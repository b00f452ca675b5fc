import Micro68.Report.Instruction
import Micro68.Snapshot

/-! Faults, diagnostics and snapshots as JSON. -/
namespace Micro68

open Json

namespace Fault

/-- A fault by name, with what it tells. -/
def toJson : Fault → Json
  | outOfRange e =>
    .obj [("OutOfRange", .obj [("address", .num e.address.toNat), ("len", .num e.len.toNat)])]
  | invalidMode code => .obj [("InvalidAddressingMode", .num code.toNat)]
  | invalidSize code => .obj [("InvalidDataSize", .num code.toNat)]
  | invalidOperandCount count => .obj [("InvalidOperandCount", .num count.toNat)]
  | invalidInstruction id => .obj [("InvalidInstruction", .num id.toNat)]
  | divisionByZero => .str "DivisionByZero"
  | inputUnavailable reason => .obj [("InputUnavailable", .str reason)]

def ofJson? (j : Json) : Option Fault := do
  let (name, contents) ← j.variant?
  match name with
  | "OutOfRange" =>
    let [address, len] ← (← contents).fields? ["address", "len"] | none
    return outOfRange ⟨← (← address).uint64?, ← (← len).uint64?⟩
  | "InvalidAddressingMode" => return invalidMode (← (← contents).uint8?)
  | "InvalidDataSize" => return invalidSize (← (← contents).uint8?)
  | "InvalidOperandCount" => return invalidOperandCount (← (← contents).uint8?)
  | "InvalidInstruction" => return invalidInstruction (← (← contents).uint8?)
  | "DivisionByZero" => if isUnit contents then some divisionByZero else none
  | "InputUnavailable" => return inputUnavailable (← (← contents).str?)
  | _ => none

end Fault

namespace Diagnostic

def toJson (d : Diagnostic) : Json :=
  .obj [("fault", d.fault.toJson), ("opcode", ofOptional Opcode.toJson d.opcode),
    ("pc", .num d.pc.toNat)]

/-- Reads a diagnostic; it may lack the operation. -/
def ofJson? (j : Json) : Option Diagnostic := do
  let [fault, opcode, pc] ← j.record? ["fault", "opcode", "pc"] | none
  return { fault := ← Fault.ofJson? (← fault)
           opcode := ← optional? Opcode.ofJson? (opcode.getD .null)
           pc := ← (← pc).uint16? }

end Diagnostic

namespace Flags

def toJson (f : Flags) : Json :=
  .obj [("carry", .bool f.carry), ("overflow", .bool f.overflow), ("zero", .bool f.zero),
    ("negative", .bool f.negative), ("halt", .bool f.halt)]

def ofJson? (j : Json) : Option Flags := do
  let [carry, overflow, zero, negative, halt] ←
    j.record? ["carry", "overflow", "zero", "negative", "halt"] | none
  return { carry := ← (← carry).bool?, overflow := ← (← overflow).bool?, zero := ← (← zero).bool?
           negative := ← (← negative).bool?, halt := ← (← halt).bool? }

end Flags

/-- The register file, data registers signed. -/
def Registers.toJson (r : Registers) : Json :=
  .obj [("d", ofPair ofPattern32 r.d), ("a", ofPair (.num ·.toNat) r.a), ("pc", .num r.pc.toNat),
    ("flags", r.flags.toJson)]

def RunState.toJson (s : RunState) : Json := .str s.name

def RunState.ofJson? (j : Json) : Option RunState := do
  let (name, contents) ← j.variant?
  if isUnit contents then [running, halted].find? (·.name = name) else none

namespace Snapshot

def toJson (s : Snapshot) : Json :=
  .obj [("state", s.state.toJson), ("cycles", .num s.cycles.toNat), ("pc", .num s.pc.toNat),
    ("d", ofPair ofPattern32 s.d), ("a", ofPair (.num ·.toNat) s.a), ("flags", s.flags.toJson),
    ("fault", ofOptional Diagnostic.toJson s.fault)]

def ofJson? (j : Json) : Option Snapshot := do
  let [state, cycles, pc, d, a, flags, fault] ←
    j.record? ["state", "cycles", "pc", "d", "a", "flags", "fault"] | none
  return { state := ← RunState.ofJson? (← state), cycles := ← (← cycles).uint64?
           pc := ← (← pc).uint16?, d := ← (← d).pair? pattern32?, a := ← (← a).pair? uint16?
           flags := ← Flags.ofJson? (← flags)
           fault := ← optional? Diagnostic.ofJson? (fault.getD .null) }

end Snapshot
end Micro68
