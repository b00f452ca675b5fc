import Micro68.Console

/-! Consoles fed from a list of replies, which keep a record of everything they are given. -/
namespace Micro68

/-- A list of replies, and what was asked, written and reported so far. -/
structure Scripted where
  replies : List String
  prompts : Array String := #[]
  lines : Array String := #[]
  faults : Array Diagnostic := #[]
  deriving DecidableEq

namespace Scripted

def readValue (c : Scripted) (request : InputRequest) : Except ConsoleError Int32 × Scripted :=
  match c.replies with
  | [] => (.error .endOfInput, { c with prompts := c.prompts.push request.prompt })
  | reply :: replies =>
    (readReply reply, { c with replies, prompts := c.prompts.push request.prompt })

def writeLine (c : Scripted) (line : String) : Scripted := { c with lines := c.lines.push line }

def reportFault (c : Scripted) (d : Diagnostic) : Scripted := { c with faults := c.faults.push d }

instance : Console Scripted where
  readValue := readValue
  writeLine := writeLine
  reportFault := reportFault

end Scripted

/-- A scripted console without a record of faults: it reports them as lines. -/
structure Plain where
  script : Scripted
  deriving DecidableEq

namespace Plain

instance : Console Plain where
  readValue c request :=
    let (answer, script) := c.script.readValue request
    (answer, { script })
  writeLine c line := { script := c.script.writeLine line }

end Plain
end Micro68
