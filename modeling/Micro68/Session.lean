import Micro68.Console.Terminal
import Micro68.Image
import Micro68.Listing
import Micro68.Report.Snapshot
import Micro68.Session.Command

/-! A session at the command line, as a function of the command, the files and the input. -/
namespace Micro68

/-- How a session ends: its exit status, and what it wrote. -/
structure Outcome where
  code : UInt8
  out : String := ""
  err : String := ""
  deriving DecidableEq

namespace Session

def openImage (file : Except String (List UInt8)) : Except ImageError (List UInt8) :=
  match file.bind decodeText with
  | .ok text => Image.parse text
  | .error reason => .error (.io reason)

/-- Nothing ran. -/
def failure (text : String) : Outcome := { code := 1, err := text ++ "\n" }

/-- Notes the instruction of the cycle that began at `pc`, if there is one to show. -/
def noteCycle (pc : UInt16) (m : Machine Terminal) : Machine Terminal :=
  match m.lastInstruction with
  | some i => { m with console := m.console.note (.trace pc i) }
  | none => m

def tracedStep (m : Machine Terminal) : Machine Terminal := noteCycle m.regs.pc m.step

def runCycles (trace : Bool) (n : Nat) (m : Machine Terminal) : Machine Terminal :=
  iterate Machine.isHalted (if trace then tracedStep else Machine.step) n m

def banner (len : Nat) : String :=
  "Program loaded. " ++ toString len ++ " bytes in memory.\n\n"

def report (json : Bool) (s : Snapshot) : String :=
  if json then s.toJson.text ++ "\n" else "\n━━━ Result ━━━\n" ++ s.text ++ "\n"

def limitNotice (maxCycles : UInt64) : String :=
  "\nReached max cycles limit (" ++ toString maxCycles.toNat
    ++ "). Use --max-cycles to increase.\n"

/-- The end of a run: the report, the notice, and status 2 after a fault. -/
def conclude (o : RunOptions) (len : Nat) (m : Machine Terminal) : Outcome :=
  { code := if m.lastFault.isSome then 2 else 0
    out := (if o.json then "" else banner len) ++ m.console.out ++ report o.json m.snapshot
    err := m.console.notesText ++ if m.isHalted then "" else limitNotice o.maxCycles }

def run (o : RunOptions) (file : Except String (List UInt8)) (input : List UInt8) : Outcome :=
  match openImage file with
  | .error e => failure ("Can't load '" ++ o.image ++ "': " ++ e.message)
  | .ok image => match (Machine.new { input }).loadImage image with
    | .error e => failure ("Failed to load program: " ++ e.message)
    | .ok m => conclude o m.mem.imageLen (runCycles o.trace o.maxCycles.toNat m)

def disasm (path : String) (file : Except String (List UInt8)) : Outcome :=
  match openImage file with
  | .error e => failure ("Can't load '" ++ path ++ "': " ++ e.message)
  | .ok image => { code := 0, out := Listing.text image }

def imagePath : Command → String
  | .run o => o.image
  | .disasm path => path

/-- Carries out a command, given its file and the input. -/
def perform (command : Command) (file : Except String (List UInt8)) (input : List UInt8) :
    Outcome :=
  match command with
  | .run o => run o file input
  | .disasm path => disasm path file

def usage : String :=
  "usage: run <image> [-m|--max-cycles N] [-t|--trace] [--json]\n       disasm <image>"

def misuse : Outcome := { code := 2, err := usage ++ "\n" }

end Session
end Micro68
