import Micro68.Instruction
import Micro68.Text.Hex

/-! Instructions as assembler text, such as `ADD.W D0,$0100`. -/
namespace Micro68

def Operand.text (op : Operand) : String :=
  let n := toString op.index.val
  match op.mode with
  | .dataRegister => "D" ++ n
  | .addressRegister => "A" ++ n
  | .absolute => "$" ++ Hex.padded 4 op.address.toNat
  | .indirect => "(A" ++ n ++ ")"
  | .postIncrement => "(A" ++ n ++ ")+"
  | .preDecrement => "-(A" ++ n ++ ")"
  | .reserved code => "<mode " ++ toString code.toNat ++ ">"

namespace Instruction

/-- The operands as assembler text. The full format shows the second one only if there are two. -/
def operandsText (i : Instruction) : String :=
  match i.operands with
  | .quick data dst => "#" ++ toString data.toNat ++ "," ++ dst.text
  | .full src dst => if i.operandCount = 2 then src.text ++ "," ++ dst.text else src.text

def text (i : Instruction) : String :=
  if i.opcode.hasOperands then
    i.opcode.mnemonic ++ "." ++ i.size.suffix ++ " " ++ i.operandsText
  else i.opcode.mnemonic

end Instruction
end Micro68
