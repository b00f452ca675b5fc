import Micro68.Console.Scripted
import Micro68.Inspection
import Micro68.Main
import Micro68.Proofs.OperandAccess
import Micro68.Proofs.Execution
import Micro68.Proofs.Phases
import Micro68.Proofs.Accesses
import Micro68.Proofs.FaultAtomicity
import Micro68.Proofs.Completion
import Micro68.Proofs.PointerAccounting
import Micro68.Proofs.Arithmetic
import Micro68.Proofs.Elements
import Micro68.Proofs.Results
import Micro68.Proofs.LoadedImage
import Micro68.Proofs.Disassembly
import Micro68.Proofs.CanonicalForms
import Micro68.Proofs.Assembly
import Micro68.Proofs.Runs
import Micro68.Proofs.Halting
import Micro68.Proofs.Histories
import Micro68.Proofs.Progress
import Micro68.Proofs.CellHistories
import Micro68.Proofs.Comparison
import Micro68.Proofs.ImageGrammar
import Micro68.Proofs.Visibility
import Micro68.Proofs.Stack
import Micro68.Proofs.FaultCauses
import Micro68.Proofs.FaultClasses
import Micro68.Proofs.Consoles
import Micro68.Proofs.InputLines
import Micro68.Proofs.Sessions
import Micro68.Proofs.ExactArithmetic
import Micro68.Proofs.Actions
import Micro68.Proofs.Preservation
import Micro68.Proofs.Dialogue
import Micro68.Proofs.ConsoleAccounts
import Micro68.Proofs.Journals
import Micro68.Proofs.FlagConsistency
import Micro68.Proofs.Division
import Micro68.Proofs.Rotations
import Micro68.Proofs.OneBitSteps
import Micro68.Proofs.Numerals
import Micro68.Proofs.Resolution
import Micro68.Proofs.Bookkeeping
import Micro68.Proofs.Announcements
import Micro68.Proofs.FetchedWords
import Micro68.Proofs.Forms
import Micro68.Proofs.Exchange
import Micro68.Proofs.Multiplication
import Micro68.Proofs.Loading
import Micro68.Proofs.ListingCoverage
import Micro68.Proofs.AssemblerText
import Micro68.Proofs.ReportRoundTrips
import Micro68.Proofs.Tracing
