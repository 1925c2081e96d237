import TextConsole.Directory
import TextConsole.Main
import TextConsole.Proofs.Memory
import TextConsole.Proofs.Machine.Memory
import TextConsole.Proofs.Steps
import TextConsole.Proofs.Window
import TextConsole.Proofs.Placement
import TextConsole.Proofs.Layout
import TextConsole.Proofs.Reachable
import TextConsole.Proofs.Isolation
import TextConsole.Proofs.Registers
import TextConsole.Proofs.Release
import TextConsole.Proofs.Screen
import TextConsole.Proofs.Homing
import TextConsole.Proofs.Mirror
import TextConsole.Proofs.Attention
import TextConsole.Proofs.Separation
import TextConsole.Proofs.Independence
import TextConsole.Proofs.Batching
import TextConsole.Proofs.Arrangement
import TextConsole.Proofs.Resting
import TextConsole.Proofs.Scrolling
import TextConsole.Proofs.Bytewise
import TextConsole.Proofs.Renditions
import TextConsole.Proofs.Legibility
import TextConsole.Proofs.Transcript
import TextConsole.Proofs.Json.Grammar
import TextConsole.Proofs.Json.Lexing
import TextConsole.Proofs.Json.Parsing
import TextConsole.Proofs.Json.Records
import TextConsole.Proofs.Documents
import TextConsole.Proofs.Json.Printing
import TextConsole.Proofs.Machine.Console
import TextConsole.Proofs.Machine.Agreement
import TextConsole.Proofs.Machine.Seat
import TextConsole.Proofs.Machine.CommandLine
import TextConsole.Proofs.PrintedScreens
import TextConsole.Proofs.SnapshotDocuments
import TextConsole.Proofs.Rows
import TextConsole.Proofs.Shift
import TextConsole.Proofs.Typesetting
import TextConsole.Proofs.Sequences
import TextConsole.Proofs.Splices
import TextConsole.Proofs.Grammar
import TextConsole.Proofs.Machine.Parser
import TextConsole.Proofs.CharacterSplices
import TextConsole.Proofs.Erasure
import TextConsole.Proofs.CursorMotion
import TextConsole.Proofs.LineFeeds
import TextConsole.Proofs.TabStops
import TextConsole.Proofs.UnknownSequences
import TextConsole.Proofs.ReportHistories
import TextConsole.Proofs.Homecoming
import TextConsole.Proofs.Relocation
import TextConsole.Proofs.Backspace
