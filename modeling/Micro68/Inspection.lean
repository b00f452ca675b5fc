import Micro68.Report.Tags
import Micro68.Snapshot

/-! Records on one line with every field by name, for a closer look than the reports give. -/
namespace Micro68

namespace Inspection

/-- A record: its name, and its fields between braces. -/
def record (name : String) (fields : List (String × String)) : String :=
  name ++ " \x7b " ++ ", ".intercalate (fields.map fun (field, value) => field ++ ": " ++ value)
    ++ " \x7d"

/-- A name, and one value between parentheses. -/
def wrapped (name value : String) : String := name ++ "(" ++ value ++ ")"

def optional {α : Type} (text : α → String) : Option α → String
  | none => "None"
  | some x => wrapped "Some" (text x)

def pair {α : Type} (text : α → String) (v : Vector α 2) : String :=
  "[" ++ ", ".intercalate (v.toList.map text) ++ "]"

end Inspection

open Inspection

def Memory.inspect (m : Memory) : String :=
  record "Memory" [("non_zero_cells", toString m.occupied),
    ("total_cells", toString Memory.capacity), ("image_len", toString m.imageLen)]

def Flags.inspect (f : Flags) : String :=
  record "Flags" [("carry", toString f.carry), ("overflow", toString f.overflow),
    ("zero", toString f.zero), ("negative", toString f.negative), ("halt", toString f.halt)]

def Registers.inspect (r : Registers) : String :=
  record "Registers" [("d", pair (fun x => toString x.toInt32.toInt) r.d),
    ("a", pair (fun x => toString x.toNat) r.a), ("pc", toString r.pc.toNat),
    ("flags", r.flags.inspect)]

def Fault.inspect : Fault → String
  | outOfRange e =>
    record "OutOfRange" [("address", toString e.address.toNat), ("len", toString e.len.toNat)]
  | invalidMode code => wrapped "InvalidAddressingMode" (toString code.toNat)
  | invalidSize code => wrapped "InvalidDataSize" (toString code.toNat)
  | invalidOperandCount count => wrapped "InvalidOperandCount" (toString count.toNat)
  | invalidInstruction id => wrapped "InvalidInstruction" (toString id.toNat)
  | divisionByZero => "DivisionByZero"
  | inputUnavailable reason => wrapped "InputUnavailable" (Text.quote reason.toList)

def Diagnostic.inspect (d : Diagnostic) : String :=
  record "Diagnostic" [("fault", d.fault.inspect), ("opcode", optional Opcode.tag d.opcode),
    ("pc", toString d.pc.toNat)]

def Machine.inspect {κ : Type} (m : Machine κ) : String :=
  record "Cpu" [("cycles", toString m.cycles.toNat), ("regs", m.regs.inspect),
    ("last_fault", optional Diagnostic.inspect m.lastFault)]

end Micro68
