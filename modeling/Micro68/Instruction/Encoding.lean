import Micro68.Fault
import Micro68.Instruction

/-! Opcode words. Bits 11 to 15 hold the operation, 9 and 10 the size, 8 the operand count less one;
the low byte holds two mode/register fields, or an immediate and one such field. Decoding leaves the
addresses of absolute operands at zero, since extension words carry them. -/
namespace Micro68

/-- The bits `first` to `last` of a word, moved to the right. -/
def bitField (word : UInt16) (first last : Nat) : UInt16 :=
  UInt16.ofNat ((word.toNat >>> first) % (1 <<< (last + 1 - first)))

def Size.ofCode (c : UInt8) : Except Fault Size :=
  match Size.ofCode? c with
  | some s => .ok s
  | none => .error (.invalidSize c)

def Opcode.ofId (n : UInt8) : Except Fault Opcode :=
  match Opcode.ofId? n with
  | some o => .ok o
  | none => .error (.invalidInstruction n)

namespace Operand

def ofField (field : UInt16) : Operand :=
  { mode := Mode.ofCode (bitField field 1 3).toUInt8, reg := (bitField field 0 0).toUInt64 }

/-- The mode/register field of an operand: its mode's low three bits, its register's lowest. -/
def field (op : Operand) : Nat := op.mode.code.toNat % 8 * 2 + op.reg.toNat % 2

theorem field_lt (op : Operand) : op.field < 16 := by unfold field; omega

end Operand

namespace Operands

/-- The operands of a low byte; operations without operands ignore it. -/
def ofField (opcode : Opcode) (field : UInt16) : Operands :=
  match opcode.format with
  | .full => if opcode.hasOperands then
      .full (.ofField (bitField field 4 7)) (.ofField (bitField field 0 3))
    else .full {} {}
  | .quick => .quick (bitField field 4 7).toUInt8 (.ofField (bitField field 0 3))

def field : Operands → Nat
  | full src dst => src.field * 16 + dst.field
  | quick data dst => data.toNat % 16 * 16 + dst.field

theorem field_lt (ops : Operands) : ops.field < 256 := by
  cases ops with
  | full src dst => have := src.field_lt; have := dst.field_lt; simp only [field]; omega
  | quick data dst => have := dst.field_lt; simp only [field]; omega

end Operands

namespace Instruction

/-- The size of an opcode word; operations without operands read code 3 as a byte. -/
def decodeSize (opcode : Opcode) (code : UInt8) : Except Fault Size :=
  if opcode.hasOperands then Size.ofCode code else .ok ((Size.ofCode? code).getD .byte)

/-- An instruction has one operand or two. -/
def checkOperandCount (n : UInt8) : Except Fault Unit :=
  if 1 ≤ n ∧ n ≤ 2 then .ok () else .error (.invalidOperandCount n)

def decode (word : UInt16) : Except Fault Instruction := do
  let opcode ← Opcode.ofId (bitField word 11 15).toUInt8
  let size ← decodeSize opcode (bitField word 9 10).toUInt8
  let operandCount := (bitField word 8 8).toUInt8 + 1
  checkOperandCount operandCount
  return { opcode, size, operandCount, operands := .ofField opcode (bitField word 0 7) }

/-- Writes an opcode word. An operand count above two keeps its lowest bit only, less one. -/
def encode (i : Instruction) : UInt16 :=
  UInt16.ofNat (i.opcode.id.toNat * 2048 + i.size.code.toNat * 512
    + (i.operandCount.toNat - 1) % 2 * 256 + i.operands.field)

end Instruction
end Micro68
