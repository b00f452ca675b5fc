import Micro68.Instruction
import Micro68.Json.Reading
import Micro68.Report.Tags

/-! Instructions as JSON. -/
namespace Micro68

open Json

def Size.toJson (s : Size) : Json := .str s.tag

def Size.ofJson? (j : Json) : Option Size := do
  let (name, contents) ← j.variant?
  if isUnit contents then Size.ofTag? name else none

def Opcode.toJson (o : Opcode) : Json := .str o.tag

def Opcode.ofJson? (j : Json) : Option Opcode := do
  let (name, contents) ← j.variant?
  if isUnit contents then Opcode.ofTag? name else none

namespace Mode

/-- A mode by name; a reserved one with its code. -/
def toJson : Mode → Json
  | dataRegister => .str "DataRegisterDirect"
  | addressRegister => .str "AddressRegisterDirect"
  | absolute => .str "RelativeAbsolute"
  | indirect => .str "AddressRegisterIndirect"
  | postIncrement => .str "PostIncrement"
  | preDecrement => .str "PreDecrement"
  | reserved code => .obj [("Reserved", .num code.toNat)]

def ofJson? (j : Json) : Option Mode := do
  let (name, contents) ← j.variant?
  if name = "Reserved" then return reserved (← (← contents).uint8?)
  else if isUnit contents then
    match name with
    | "DataRegisterDirect" => some dataRegister
    | "AddressRegisterDirect" => some addressRegister
    | "RelativeAbsolute" => some absolute
    | "AddressRegisterIndirect" => some indirect
    | "PostIncrement" => some postIncrement
    | "PreDecrement" => some preDecrement
    | _ => none
  else none

end Mode

namespace Operand

def toJson (op : Operand) : Json :=
  .obj [("mode", op.mode.toJson), ("reg", .num op.reg.toNat), ("address", .num op.address.toNat)]

def ofJson? (j : Json) : Option Operand := do
  let [mode, reg, address] ← j.record? ["mode", "reg", "address"] | none
  return { mode := ← Mode.ofJson? (← mode), reg := ← (← reg).uint64?
           address := ← (← address).uint16? }

end Operand

namespace Operands

def toJson : Operands → Json
  | full src dst => .obj [("Full", .obj [("src", src.toJson), ("dst", dst.toJson)])]
  | quick data dst => .obj [("Quick", .obj [("data", .num data.toNat), ("dst", dst.toJson)])]

def ofJson? (j : Json) : Option Operands := do
  let (name, contents) ← j.variant?
  match name with
  | "Full" =>
    let [src, dst] ← (← contents).fields? ["src", "dst"] | none
    return full (← Operand.ofJson? (← src)) (← Operand.ofJson? (← dst))
  | "Quick" =>
    let [data, dst] ← (← contents).fields? ["data", "dst"] | none
    return quick (← (← data).uint8?) (← Operand.ofJson? (← dst))
  | _ => none

end Operands

namespace Instruction

def toJson (i : Instruction) : Json :=
  .obj [("opcode", i.opcode.toJson), ("size", i.size.toJson),
    ("operand_count", .num i.operandCount.toNat), ("operands", i.operands.toJson)]

def ofJson? (j : Json) : Option Instruction := do
  let [opcode, size, operandCount, operands] ←
    j.record? ["opcode", "size", "operand_count", "operands"] | none
  return { opcode := ← Opcode.ofJson? (← opcode), size := ← Size.ofJson? (← size)
           operandCount := ← (← operandCount).uint8?
           operands := ← Operands.ofJson? (← operands) }

end Instruction
end Micro68
