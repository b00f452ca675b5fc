import Micro68.Datapath
import Micro68.Numeral
import Micro68.Text.Blank
import Micro68.Text.Quoted

/-! Consoles. The machine asks one for values, and gives it lines and diagnostics; where the text
comes from or goes to is up to the console. -/
namespace Micro68

namespace Location

/-- A location in a prompt. -/
def describe : Location → String
  | data n => "the register DR" ++ toString n.val
  | address n => "the register AR" ++ toString n.val
  | memory a => "the memory address $" ++ Hex.padded 4 a.toNat

/-- A location at the start of an output line. -/
def label : Location → String
  | data n => "[ DR" ++ toString n.val ++ " ]"
  | address n => "[ AR" ++ toString n.val ++ " ]"
  | memory a => "[$" ++ Hex.padded 4 a.toNat ++ "]"

end Location

/-- A value asked for: its size, and where it will be stored. -/
structure InputRequest where
  size : Size
  target : Location
  deriving DecidableEq

def InputRequest.prompt (r : InputRequest) : String :=
  "Enter a value (" ++ r.size.name ++ ") for " ++ r.target.describe ++ ": "

inductive ConsoleError where
  | endOfInput
  /-- The reply, without white space at its ends, starts with no number. -/
  | unreadable (reply : List Char)
  | io (reason : String)
  deriving DecidableEq

def ConsoleError.message : ConsoleError → String
  | endOfInput => "end of input"
  | unreadable reply => "cannot parse " ++ Text.quote reply ++ " as a number"
  | io reason => "I/O error: " ++ reason

def readReply (reply : String) : Except ConsoleError Int32 :=
  let trimmed := Text.trim reply.toList
  match Numeral.read? trimmed with
  | some x => .ok x
  | none => .error (.unreadable trimmed)

/-- What the machine needs of a console. -/
class Console (κ : Type) where
  readValue : κ → InputRequest → Except ConsoleError Int32 × κ
  writeLine : κ → String → κ
  /-- Reports a fault; where there is no better way, as a line. -/
  reportFault : κ → Diagnostic → κ := fun c d => writeLine c d.text

namespace Micro

variable {κ : Type} [Console κ]

def readValue (request : InputRequest) : Micro κ Int32 := fun s =>
  match Console.readValue s.console request with
  | (.ok x, console) => .ok x { s with console }
  | (.error e, console) => .error (.inputUnavailable e.message) { s with console }

def writeLine (line : String) : Micro κ Unit :=
  modify fun s => { s with console := Console.writeLine s.console line }

end Micro
end Micro68
