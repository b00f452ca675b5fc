import Micro68.Mode
import Micro68.Opcode
import Micro68.Size

/-! Instructions: an operation, a size, and one or two operands. -/
namespace Micro68

/-- Operand slot: the source field comes first, the destination field second. -/
inductive Slot where
  | first
  | second
  deriving DecidableEq

/-- Both slots, in the order in which extension words follow. -/
def Slot.all : List Slot := [first, second]

/-- One mode/register pair, with the address of an absolute operand. -/
structure Operand where
  mode : Mode := .dataRegister
  reg : UInt64 := 0
  /-- Address from the extension word, filled in during operand fetch. -/
  address : UInt16 := 0
  deriving DecidableEq

namespace Operand

def index (op : Operand) : Fin 2 := Fin.ofNat 2 op.reg.toNat

def data (reg : UInt64) : Operand := { mode := .dataRegister, reg }

def addr (reg : UInt64) : Operand := { mode := .addressRegister, reg }

def absolute (address : UInt16) : Operand := { mode := .absolute, address }

end Operand

inductive Operands where
  | full (src dst : Operand)
  | quick (data : UInt8) (dst : Operand)
  deriving DecidableEq

structure Instruction where
  opcode : Opcode
  size : Size
  /-- One or two, as the opcode word gives it. -/
  operandCount : UInt8
  operands : Operands
  deriving DecidableEq

namespace Instruction

def full (opcode : Opcode) (size : Size) (src dst : Operand) : Instruction :=
  { opcode, size, operandCount := 2, operands := .full src dst }

/-- An instruction whose only operand is in the first slot. -/
def unary (opcode : Opcode) (size : Size) (op : Operand) : Instruction :=
  { opcode, size, operandCount := 1, operands := .full op {} }

def quick (opcode : Opcode) (size : Size) (data : UInt8) (dst : Operand) : Instruction :=
  { opcode, size, operandCount := 1, operands := .quick (data &&& 0xF) dst }

def bare (opcode : Opcode) : Instruction :=
  { opcode, size := .byte, operandCount := 1, operands := .full {} {} }

/-- Operand in a slot; the quick format has no first one. -/
def operand? (i : Instruction) : Slot → Option Operand
  | .first => match i.operands with
    | .full src _ => some src
    | .quick _ _ => none
  | .second => match i.operands with
    | .full _ dst => some dst
    | .quick _ dst => some dst

def setAddress (i : Instruction) (slot : Slot) (address : UInt16) : Instruction :=
  { i with operands := match slot, i.operands with
    | .first, .full src dst => .full { src with address } dst
    | .first, .quick data dst => .quick data dst
    | .second, .full src dst => .full src { dst with address }
    | .second, .quick data dst => .quick data { dst with address } }

/-- The immediate; 0 in the full format. -/
def data (i : Instruction) : UInt8 :=
  match i.operands with
  | .full _ _ => 0
  | .quick data _ => data

/-- Does the slot hold an absolute operand, which an extension word follows? -/
def isAbsolute (i : Instruction) (slot : Slot) : Bool :=
  (i.operand? slot).any (·.mode = .absolute)

def absoluteSlots (i : Instruction) : List Slot := Slot.all.filter i.isAbsolute

def extensionWords (i : Instruction) : Nat := i.absoluteSlots.length

theorem extensionWords_le (i : Instruction) : i.extensionWords ≤ 2 :=
  List.length_filter_le _ _

@[simp] theorem isAbsolute_setAddress (i : Instruction) (s t : Slot) (a : UInt16) :
    (i.setAddress s a).isAbsolute t = i.isAbsolute t := by
  cases s <;> cases t <;> simp only [setAddress, isAbsolute, operand?] <;>
    cases i.operands <;> rfl

end Instruction
end Micro68
