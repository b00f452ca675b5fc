import Micro68.Console
import Micro68.Instruction.Text

/-! A terminal: replies are the lines of an input, and prompts and lines go to the output. Beside the
output it takes notes, of faults and of instructions executed. -/
namespace Micro68

/-- What is written beside the output. -/
inductive Note where
  | fault (d : Diagnostic)
  /-- The instruction at an address was executed. -/
  | trace (pc : UInt16) (i : Instruction)
  deriving DecidableEq

def Note.text : Note → String
  | fault d => d.text
  | trace pc i => Hex.padded 4 pc.toNat ++ ": " ++ i.text

/-- Input still to be read, the output so far, and the notes beside it. -/
structure Terminal where
  input : List UInt8
  out : String := ""
  notes : Array Note := #[]
  deriving DecidableEq

/-- Bytes that should be text and are not. -/
def invalidText : String := "stream did not contain valid UTF-8"

def decodeText (bs : List UInt8) : Except String String :=
  match String.fromUTF8? bs.toByteArray with
  | some s => .ok s
  | none => .error invalidText

namespace Terminal

/-- Splits off the first line, with its line feed if it has one. -/
def splitLine : List UInt8 → List UInt8 × List UInt8
  | [] => ([], [])
  | b :: bs => if b = 10 then ([b], bs) else
    let (line, rest) := splitLine bs
    (b :: line, rest)

/-- Writes the prompt, then takes the next line of the input. -/
def readValue (t : Terminal) (request : InputRequest) : Except ConsoleError Int32 × Terminal :=
  let (line, input) := splitLine t.input
  let answer := match line with
    | [] => .error .endOfInput
    | _ => match decodeText line with
      | .ok reply => readReply reply
      | .error reason => .error (.io reason)
  (answer, { t with input, out := t.out ++ request.prompt })

def writeLine (t : Terminal) (line : String) : Terminal := { t with out := t.out ++ line ++ "\n" }

def note (t : Terminal) (n : Note) : Terminal := { t with notes := t.notes.push n }

def notesText (t : Terminal) : String :=
  String.join (t.notes.toList.map fun n => n.text ++ "\n")

instance : Console Terminal where
  readValue := readValue
  writeLine := writeLine
  reportFault t d := t.note (.fault d)

end Terminal
end Micro68
