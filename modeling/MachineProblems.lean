import MachineProblems.Library.Run
import MachineProblems.Library.Loop
import MachineProblems.Library.Bits
import MachineProblems.Library.Ring
import MachineProblems.Library.FrameScanner
import MachineProblems.Library.Chain
import MachineProblems.Program.LineDiscipline
import MachineProblems.Program.MissileCommand
import MachineProblems.Program.Mp1.Machine
import MachineProblems.Program.Mp1.Driver
import MachineProblems.Program.Quantizer
import MachineProblems.Program.PhotoFile
import MachineProblems.Analysis.Transmit
import MachineProblems.Analysis.Receive
import MachineProblems.Analysis.Quantizer
import MachineProblems.Analysis.ReadPhoto
import MachineProblems.Analysis.Mp1.Execution
import MachineProblems.Analysis.Mp1.Status
import MachineProblems.Analysis.Mp1.Links
import MachineProblems.Analysis.Mp1.Removal
import MachineProblems.Analysis.Mp1.Traversal
import MachineProblems.Analysis.Mp1.Bases
import MachineProblems.Analysis.Mp1.MissileList
import MachineProblems.Program.Adventure.World
import MachineProblems.Program.Adventure.Commands
import MachineProblems.Analysis.Adventure.Contents
import MachineProblems.Analysis.Adventure.Moving
import MachineProblems.Analysis.Adventure.Gates
import MachineProblems.Analysis.Adventure.Deeds
import MachineProblems.Library.Shelves
import MachineProblems.Program.Adventure.WorldData
import MachineProblems.Model.Quest
import MachineProblems.Analysis.Adventure.Building
import MachineProblems.Analysis.Adventure.Playing
import MachineProblems.Library.Memory
import MachineProblems.Program.Adventure.Drawing
import MachineProblems.Program.Adventure.ModeX
import MachineProblems.Program.Adventure.Game
import MachineProblems.Analysis.Adventure.Pictures
import MachineProblems.Analysis.Adventure.Screens
import MachineProblems.Analysis.Adventure.Coherence
import MachineProblems.Analysis.Adventure.Playback
import MachineProblems.Program.Mp1.Ioctl
import MachineProblems.Analysis.Mp1.Crosshairs
import MachineProblems.Analysis.Mp1.Explosions
import MachineProblems.Library.Sampling
import MachineProblems.Analysis.Mp1.Turns
import MachineProblems.Model.Sky
import MachineProblems.Analysis.Mp1.Commands
import MachineProblems.Analysis.Mp1.Tally
import MachineProblems.Analysis.Mp1.Scoring
import MachineProblems.Analysis.Mp1.Skies
import MachineProblems.Analysis.Mp1.Notification
import MachineProblems.Analysis.Mp1.Leaks
import MachineProblems.Analysis.Mp1.Service
import MachineProblems.Analysis.Mp1.Strokes
import MachineProblems.Program.Mp1.Preemption
import MachineProblems.Analysis.Mp1.Freeing
import MachineProblems.Analysis.Mp1.Aside
import MachineProblems.Analysis.Piloting
import MachineProblems.Analysis.Flight
import MachineProblems.Program.Tuxctl
import MachineProblems.Model.Mtcp
import MachineProblems.Analysis.Tuxctl
import MachineProblems.Analysis.Displays
import MachineProblems.Analysis.Adventure.Clamping
import MachineProblems.Analysis.Keyboard
import MachineProblems.Model.Receiver
import MachineProblems.Analysis.Sessions
import MachineProblems.Analysis.Mp1.Dispatch
import MachineProblems.Model.Repair
import MachineProblems.Analysis.Adventure.Forms
import MachineProblems.Library.Slots
import MachineProblems.Model.CommandLine
import MachineProblems.Analysis.Adventure.Typing
import MachineProblems.Analysis.Mp1.Adding
import MachineProblems.Analysis.Adventure.Handling
import MachineProblems.Analysis.Adventure.Inventory
import MachineProblems.Analysis.Adventure.Speeds
import MachineProblems.Analysis.Adventure.Fences
import MachineProblems.Analysis.Adventure.Lines
import MachineProblems.Analysis.Adventure.Copies
import MachineProblems.Analysis.Adventure.SpecialKeys
import MachineProblems.Analysis.Adventure.StatusBar
import MachineProblems.Analysis.Firing
import MachineProblems.Analysis.ObjectFile
import MachineProblems.Analysis.Queues
import MachineProblems.Analysis.SetLed
import MachineProblems.Analysis.SortOrder
import MachineProblems.Analysis.TwoRuns
import MachineProblems.Analysis.Waves
import MachineProblems.Analysis.Adventure.AddressMap
import MachineProblems.Analysis.Adventure.Cleanups
import MachineProblems.Analysis.Adventure.Placing
import MachineProblems.Analysis.Adventure.Ticks
import MachineProblems.Program.Adventure.StatusThread
import MachineProblems.Analysis.Adventure.StatusMessages
import MachineProblems.Library.Effects
import MachineProblems.Program.Adventure.Vga
import MachineProblems.Model.Monitor
import MachineProblems.Analysis.Adventure.Registers
import MachineProblems.Analysis.Adventure.PageFlips
import MachineProblems.Program.Adventure.Console
import MachineProblems.Analysis.Adventure.Consoles
import MachineProblems.Program.TuxModule
import MachineProblems.Model.Controller
import MachineProblems.Analysis.TuxModule
import MachineProblems.Analysis.TuxFollows
import MachineProblems.Analysis.TuxLoop
import MachineProblems.Analysis.TuxLockup
import MachineProblems.Analysis.Transmission
import MachineProblems.Program.MissileGame
import MachineProblems.Analysis.Mp1.Game
import MachineProblems.Analysis.RoomFile
import MachineProblems.Analysis.Adventure.Buttons
