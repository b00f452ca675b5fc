/-! The 32 operations, their numbers, encoding formats and mnemonics. -/
namespace Micro68

/-- How an opcode word lays out its operand fields. -/
inductive Format where
  /-- Two mode/register fields. -/
  | full
  /-- A 4-bit immediate and one mode/register field. -/
  | quick
  deriving DecidableEq

inductive Opcode where
  | add | addq | sub | subq | muls | divs | neg
  | clr | not | and | or | eor
  | lsl | lsr | rol | ror
  | cmp | tst
  | bra | bvs | beq | bcs | bge | ble
  | move | moveq | exg | movea
  | inp | dsp | dsr
  | hlt
  deriving DecidableEq

namespace Opcode

def all : List Opcode :=
  [add, addq, sub, subq, muls, divs, neg, clr, not, and, or, eor, lsl, lsr, rol, ror,
   cmp, tst, bra, bvs, beq, bcs, bge, ble, move, moveq, exg, movea, inp, dsp, dsr, hlt]

def id (o : Opcode) : UInt8 := UInt8.ofNat (all.idxOf o)

def ofId? (n : UInt8) : Option Opcode := all[n.toNat]?

@[simp] theorem ofId?_id (o : Opcode) : ofId? o.id = some o := by cases o <;> rfl

theorem id_lt (o : Opcode) : o.id.toNat < 32 := by cases o <;> decide

def format : Opcode → Format
  | addq | subq | lsl | lsr | rol | ror | moveq => .quick
  | _ => .full

def hasOperands : Opcode → Bool
  | dsr | hlt => false
  | _ => true

def mnemonic : Opcode → String
  | add => "ADD"
  | addq => "ADDQ"
  | sub => "SUB"
  | subq => "SUBQ"
  | muls => "MULS"
  | divs => "DIVS"
  | neg => "NEG"
  | clr => "CLR"
  | not => "NOT"
  | and => "AND"
  | or => "OR"
  | eor => "EOR"
  | lsl => "LSL"
  | lsr => "LSR"
  | rol => "ROL"
  | ror => "ROR"
  | cmp => "CMP"
  | tst => "TST"
  | bra => "BRA"
  | bvs => "BVS"
  | beq => "BEQ"
  | bcs => "BCS"
  | bge => "BGE"
  | ble => "BLE"
  | move => "MOVE"
  | moveq => "MOVEQ"
  | exg => "EXG"
  | movea => "MOVEA"
  | inp => "INP"
  | dsp => "DSP"
  | dsr => "DSR"
  | hlt => "HLT"

end Opcode
end Micro68
