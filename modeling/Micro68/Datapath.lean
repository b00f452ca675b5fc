import Micro68.Fault
import Micro68.Instruction
import Micro68.Registers

/-! What a cycle works on: registers, memory, a console, and the addresses that (An)+ and -(An) gave
in this cycle. The first use of a slot adjusts its address register and notes the effective address;
a later use of the same slot takes the note, so an operand is adjusted once however often it is used.
Steps are computations on the whole; a fault keeps what was changed before it. -/
namespace Micro68

/-- Effective address of each slot whose address register was adjusted in this cycle. -/
structure Adjusted where
  first : Option UInt16 := none
  second : Option UInt16 := none
  deriving DecidableEq

namespace Adjusted

def get (r : Adjusted) : Slot → Option UInt16
  | .first => r.first
  | .second => r.second

def note (r : Adjusted) (slot : Slot) (address : UInt16) : Adjusted :=
  match slot with
  | .first => { r with first := some address }
  | .second => { r with second := some address }

@[simp] theorem get_none (slot : Slot) : get {} slot = none := by cases slot <;> rfl

@[simp] theorem get_note (r : Adjusted) (s t : Slot) (a : UInt16) :
    (r.note s a).get t = if s = t then some a else r.get t := by
  cases s <;> cases t <;> rfl

end Adjusted

/-- Where an operand lives once its mode has been applied. -/
inductive Location where
  | data (n : Fin 2)
  | address (n : Fin 2)
  | memory (address : UInt16)
  deriving DecidableEq

/-- The parts that a cycle reads and changes. -/
structure Datapath (κ : Type) where
  regs : Registers
  mem : Memory
  adjusted : Adjusted
  console : κ

/-- A computation on the parts that may end in a fault. -/
abbrev Micro (κ : Type) := EStateM Fault (Datapath κ)

namespace Micro

variable {κ : Type}

def modifyRegs (f : Registers → Registers) : Micro κ Unit :=
  modify fun s => { s with regs := f s.regs }

/-- Runs an operation that sets status bits, and gives its result. -/
def compute (f : Flags → UInt32 × Flags) : Micro κ UInt32 := fun s =>
  let (result, flags) := f s.regs.flags
  .ok result { s with regs := s.regs.withFlags flags }

def readMemory (size : Size) (address : UInt16) : Micro κ UInt32 := fun s =>
  match s.mem.read size address with
  | .ok x => .ok x s
  | .error e => .error (.outOfRange e) s

def writeMemory (size : Size) (address : UInt16) (x : UInt32) : Micro κ Unit := fun s =>
  match Memory.store size address x s.mem with
  | .ok _ mem => .ok () { s with mem }
  | .error e mem => .error (.outOfRange e) { s with mem }

/-- Reads the word at the program counter and moves past it. The move stands even if the word lies
outside memory. -/
def fetchWord : Micro κ UInt16 := do
  let pc := (← get).regs.pc
  modifyRegs Registers.advance
  return (← readMemory .word pc).toUInt16

/-- Effective address of a slot through an address register: the noted one, or else the first
component of `adjust`, whose second component becomes the register's value. -/
def locateAdjusted (slot : Slot) (n : Fin 2) (adjust : UInt16 → UInt16 × UInt16) :
    Micro κ Location := fun s =>
  match s.adjusted.get slot with
  | some address => .ok (.memory address) s
  | none =>
    let (address, pointer) := adjust (s.regs.a.get n)
    .ok (.memory address)
      { s with regs := s.regs.setA n pointer, adjusted := s.adjusted.note slot address }

def locate (slot : Slot) (op : Operand) (size : Size) : Micro κ Location :=
  match op.mode with
  | .dataRegister => return .data op.index
  | .addressRegister => return .address op.index
  | .absolute => return .memory op.address
  | .indirect => return .memory ((← get).regs.a.get op.index)
  | .postIncrement => locateAdjusted slot op.index fun a => (a, a + size.stride)
  | .preDecrement => locateAdjusted slot op.index fun a => (a - size.stride, a - size.stride)
  | .reserved code => throw (.invalidMode code)

def load (size : Size) : Location → Micro κ UInt32
  | .data n => return size.low ((← get).regs.d.get n)
  | .address n => return ((← get).regs.a.get n).toUInt32
  | .memory address => readMemory size address

/-- Writes a location: the low bits of a data register, the whole of an address register. -/
def save (size : Size) (x : UInt32) : Location → Micro κ Unit
  | .data n => modifyRegs fun r => r.setD n (r.d.get n &&& ~~~size.mask ||| size.low x)
  | .address n => modifyRegs fun r => r.setA n x.toUInt16
  | .memory address => writeMemory size address x

def fill (slot : Slot) (op : Operand) (size : Size) : Micro κ UInt32 := do
  load size (← locate slot op size)

def store (slot : Slot) (op : Operand) (size : Size) (x : UInt32) : Micro κ Unit := do
  save size x (← locate slot op size)

end Micro
end Micro68
