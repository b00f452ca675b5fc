import Micro68.Proofs.Sequencing

/-! Operand access taken apart: where an operand is, what its access does to the address registers,
and what is then read or written there. A slot that no note speaks of is accessed in one way only,
whether it is read or written, whether that succeeds or fails (`fill_run`, `store_run`). A slot whose
operand has been found is found again at the same place, and moves no pointer (`restore_run`). -/
namespace Micro68

namespace Location

/-- Why an element of this size cannot be moved to or from a location. -/
def fault? (size : Size) : Location → Option Fault
  | memory a => if Memory.inRange size a then none else some (.outOfRange (Memory.rangeError size a))
  | _ => none

end Location

namespace Operand

/-- Where an operand is while the address registers hold `a`. -/
def place (op : Operand) (size : Size) (a : Vector UInt16 2) : Option Location :=
  match op.mode with
  | .dataRegister => some (.data op.index)
  | .addressRegister => some (.address op.index)
  | .absolute => some (.memory op.address)
  | .indirect | .postIncrement => some (.memory (a.get op.index))
  | .preDecrement => some (.memory (a.get op.index - size.stride))
  | .reserved _ => none

def register (op : Operand) : Location :=
  if op.mode = .dataRegister then .data op.index else .address op.index

@[simp] theorem fault?_register (op : Operand) (size : Size) : op.register.fault? size = none := by
  unfold register
  split <;> rfl

/-- What an access adds to an address register. -/
def shift (op : Operand) (size : Size) (r : Fin 2) : UInt16 :=
  if op.index = r then
    match op.mode with
    | .postIncrement => size.stride
    | .preDecrement => -size.stride
    | _ => 0
  else 0

def adjusts (op : Operand) : Bool :=
  match op.mode with
  | .postIncrement | .preDecrement => true
  | _ => false

theorem adjusts_congr {op other : Operand} (h : op.mode = other.mode) :
    op.adjusts = other.adjusts := by
  unfold adjusts
  rw [h]

theorem shift_of_not_adjusts {op : Operand} (h : op.adjusts = false) (size : Size) (r : Fin 2) :
    op.shift size r = 0 := by
  unfold adjusts at h
  unfold shift
  cases hm : op.mode <;> simp_all

end Operand

namespace Instruction

/-- Where the operand in a slot is, or why it has no place or cannot be moved. -/
def reach (i : Instruction) (slot : Slot) (size : Size) (a : Vector UInt16 2) :
    Except Fault Location :=
  match i.operand? slot with
  | none => .error (.invalidOperandCount i.operandCount)
  | some op => match op.place size a with
    | none => .error (.invalidMode op.mode.code)
    | some l => match l.fault? size with
      | none => .ok l
      | some f => .error f

theorem reach_eq_ok {i : Instruction} {slot : Slot} {size : Size} {a : Vector UInt16 2}
    {l : Location} : i.reach slot size a = .ok l ↔
      ∃ op, i.operand? slot = some op ∧ op.place size a = some l ∧ l.fault? size = none := by
  unfold reach
  constructor
  · intro h
    split at h
    · cases h
    · rename_i op hop
      refine ⟨op, hop, ?_⟩
      split at h
      · cases h
      · rename_i l' hl
        split at h <;> cases h
        exact ⟨hl, ‹_›⟩
  · rintro ⟨op, hop, hl, hf⟩
    simp only [hop, hl, hf]

theorem reach_register {i : Instruction} {slot : Slot} {op : Operand} (hop : i.operand? slot = some op)
    (h : op.mode.isRegister = true) (size : Size) (a : Vector UInt16 2) :
    i.reach slot size a = .ok op.register := by
  refine reach_eq_ok.mpr ⟨op, hop, ?_, op.fault?_register size⟩
  unfold Operand.place Operand.register
  cases hm : op.mode <;> simp_all [Mode.isRegister]

def shift (i : Instruction) (slot : Slot) (size : Size) (r : Fin 2) : UInt16 :=
  match i.operand? slot with
  | none => 0
  | some op => op.shift size r

def adjusts (i : Instruction) (slot : Slot) : Bool := (i.operand? slot).any Operand.adjusts

end Instruction

namespace Datapath

variable {κ : Type}

/-- The state after an operand in a slot was looked for: its pointer has moved and is noted. -/
def settleOperand (s : Datapath κ) (slot : Slot) (op : Operand) (size : Size) : Datapath κ :=
  match op.mode with
  | .postIncrement =>
    { s with
      regs := s.regs.setA op.index (s.regs.a.get op.index + size.stride)
      adjusted := s.adjusted.note slot (s.regs.a.get op.index) }
  | .preDecrement =>
    { s with
      regs := s.regs.setA op.index (s.regs.a.get op.index - size.stride)
      adjusted := s.adjusted.note slot (s.regs.a.get op.index - size.stride) }
  | _ => s

def settle (s : Datapath κ) (i : Instruction) (slot : Slot) (size : Size) : Datapath κ :=
  match i.operand? slot with
  | none => s
  | some op => s.settleOperand slot op size

/-- What a location holds, zero-extended. -/
def peek (s : Datapath κ) (size : Size) : Location → UInt32
  | .data n => size.low (s.regs.d.get n)
  | .address n => (s.regs.a.get n).toUInt32
  | .memory a => BigEndian.value (s.mem.slice a.toNat size.bytes)

def poke (s : Datapath κ) (size : Size) (x : UInt32) : Location → Datapath κ
  | .data n =>
    { s with regs := s.regs.setD n (s.regs.d.get n &&& ~~~size.mask ||| size.low x) }
  | .address n => { s with regs := s.regs.setA n x.toUInt16 }
  | .memory a => { s with mem := s.mem.put a.toNat (BigEndian.bytes size x) }

def setFlags (s : Datapath κ) (f : Flags) : Datapath κ := { s with regs := s.regs.withFlags f }

section Projections

variable (s : Datapath κ) (i : Instruction) (slot : Slot) (op : Operand) (size : Size) (f : Flags)

@[simp] theorem settleOperand_mem : (s.settleOperand slot op size).mem = s.mem := by
  unfold settleOperand; split <;> rfl
@[simp] theorem settleOperand_console : (s.settleOperand slot op size).console = s.console := by
  unfold settleOperand; split <;> rfl
@[simp] theorem settleOperand_d : (s.settleOperand slot op size).regs.d = s.regs.d := by
  unfold settleOperand; split <;> rfl
@[simp] theorem settleOperand_pc : (s.settleOperand slot op size).regs.pc = s.regs.pc := by
  unfold settleOperand; split <;> rfl
@[simp] theorem settleOperand_flags :
    (s.settleOperand slot op size).regs.flags = s.regs.flags := by
  unfold settleOperand; split <;> rfl

theorem settleOperand_of_place_eq_none {s : Datapath κ} {slot : Slot} {op : Operand} {size : Size}
    {a : Vector UInt16 2} (h : op.place size a = none) : s.settleOperand slot op size = s := by
  unfold Operand.place at h
  unfold settleOperand
  cases hm : op.mode <;> simp_all

theorem settleOperand_a (r : Fin 2) :
    (s.settleOperand slot op size).regs.a.get r = s.regs.a.get r + op.shift size r := by
  unfold settleOperand Operand.shift
  split <;> rename_i hm <;> by_cases hr : op.index = r
  all_goals simp [hr, UInt16.sub_eq_add_neg]

theorem settleOperand_get (t : Slot) :
    (s.settleOperand slot op size).adjusted.get t =
      if slot = t ∧ op.adjusts then
        some (s.regs.a.get op.index - if op.mode = .preDecrement then size.stride else 0)
      else s.adjusted.get t := by
  unfold settleOperand Operand.adjusts
  split <;> rename_i hm <;> by_cases ht : slot = t <;> simp [hm, ht]

theorem settle_register {s : Datapath κ} {i : Instruction} {slot : Slot} {op : Operand}
    (hop : i.operand? slot = some op) (h : op.mode.isRegister = true) (size : Size) :
    s.settle i slot size = s := by
  unfold settle settleOperand
  rw [hop]
  cases hm : op.mode <;> simp_all [Mode.isRegister]

@[simp] theorem settle_mem : (s.settle i slot size).mem = s.mem := by
  unfold settle; split <;> simp
@[simp] theorem settle_console : (s.settle i slot size).console = s.console := by
  unfold settle; split <;> simp
@[simp] theorem settle_d : (s.settle i slot size).regs.d = s.regs.d := by
  unfold settle; split <;> simp
@[simp] theorem settle_pc : (s.settle i slot size).regs.pc = s.regs.pc := by
  unfold settle; split <;> simp
@[simp] theorem settle_flags : (s.settle i slot size).regs.flags = s.regs.flags := by
  unfold settle; split <;> simp

theorem settle_a (r : Fin 2) :
    (s.settle i slot size).regs.a.get r = s.regs.a.get r + i.shift slot size r := by
  unfold settle Instruction.shift
  split
  · simp
  · exact settleOperand_a ..

theorem settle_get_of_ne {t : Slot} (h : slot ≠ t) :
    (s.settle i slot size).adjusted.get t = s.adjusted.get t := by
  unfold settle
  split <;> simp [settleOperand_get, h]

theorem settle_get_isSome :
    ((s.settle i slot size).adjusted.get slot).isSome =
      (i.adjusts slot || (s.adjusted.get slot).isSome) := by
  unfold settle Instruction.adjusts
  split <;> rename_i ho
  · simp [ho]
  · rename_i op
    cases h : op.adjusts <;> simp [settleOperand_get, ho, h]

theorem settle_setFlags : (s.setFlags f).settle i slot size = (s.settle i slot size).setFlags f := by
  unfold settle
  split
  · rfl
  · unfold settleOperand
    split <;> rfl

theorem settle_withConsole (c : κ) : ({ s with console := c } : Datapath κ).settle i slot size =
    { s.settle i slot size with console := c } := by
  unfold settle
  split
  · rfl
  · unfold settleOperand
    split <;> rfl

@[simp] theorem setFlags_mem : (s.setFlags f).mem = s.mem := rfl
@[simp] theorem setFlags_console : (s.setFlags f).console = s.console := rfl
@[simp] theorem setFlags_adjusted : (s.setFlags f).adjusted = s.adjusted := rfl
@[simp] theorem setFlags_d : (s.setFlags f).regs.d = s.regs.d := rfl
@[simp] theorem setFlags_a : (s.setFlags f).regs.a = s.regs.a := rfl
@[simp] theorem setFlags_pc : (s.setFlags f).regs.pc = s.regs.pc := rfl
@[simp] theorem setFlags_flags : (s.setFlags f).regs.flags = f := rfl

variable (x : UInt32) (l : Location)

@[simp] theorem poke_flags : (s.poke size x l).regs.flags = s.regs.flags := by cases l <;> rfl
@[simp] theorem poke_pc : (s.poke size x l).regs.pc = s.regs.pc := by cases l <;> rfl
@[simp] theorem poke_console : (s.poke size x l).console = s.console := by cases l <;> rfl
@[simp] theorem poke_adjusted : (s.poke size x l).adjusted = s.adjusted := by cases l <;> rfl

theorem poke_a (r : Fin 2) :
    (s.poke size x l).regs.a.get r = if l = .address r then x.toUInt16 else s.regs.a.get r := by
  cases l with
  | data n => rfl
  | memory a => rfl
  | address n => simp [poke]

theorem poke_register_mem : (s.poke size x op.register).mem = s.mem := by
  unfold Operand.register
  split <;> rfl

end Projections

end Datapath

namespace Micro

variable {κ : Type} {s t : Datapath κ} {slot : Slot} {op : Operand} {size : Size} {l : Location}

/-- The first look for an operand moves its pointer. -/
theorem locate_run (h : s.adjusted.get slot = none) :
    locate slot op size s = match op.place size s.regs.a with
      | some l => .ok l (s.settleOperand slot op size)
      | none => .error (.invalidMode op.mode.code) s := by
  unfold locate Operand.place Datapath.settleOperand
  cases hm : op.mode <;> simp [locateAdjusted, bind_run, h, Mode.code]

/-- A later look finds the operand where the first one found it, and moves nothing. -/
theorem locate_again (hl : op.place size s.regs.a = some l)
    (ha : t.regs.a = (s.settleOperand slot op size).regs.a)
    (hn : t.adjusted = (s.settleOperand slot op size).adjusted) (again : Size) :
    locate slot op again t = .ok l t := by
  unfold Operand.place at hl
  unfold Datapath.settleOperand at ha hn
  unfold locate
  cases hm : op.mode <;> simp only [hm] at hl ha hn <;>
    simp_all [locateAdjusted, bind_run]

theorem locate_register (h : op.mode.isRegister = true) :
    locate slot op size s = .ok op.register s := by
  unfold Operand.register locate
  cases hm : op.mode <;> simp_all [Mode.isRegister]

theorem load_run (size : Size) (l : Location) (s : Datapath κ) :
    load size l s = match l.fault? size with
      | none => .ok (s.peek size l) s
      | some f => .error f s := by
  cases l with
  | data n => rfl
  | address n => rfl
  | memory a =>
    simp only [load, readMemory, Memory.read, Location.fault?, Datapath.peek]
    by_cases hr : Memory.inRange size a <;> simp [hr]

theorem save_run (size : Size) (x : UInt32) (l : Location) (s : Datapath κ) :
    save size x l s = match l.fault? size with
      | none => .ok () (s.poke size x l)
      | some f => .error f s := by
  cases l with
  | data n => rfl
  | address n => rfl
  | memory a =>
    simp only [save, writeMemory, Memory.store_run, Location.fault?, Datapath.poke]
    by_cases hr : Memory.inRange size a <;> simp [hr]

end Micro

namespace Microprogram

variable {κ : Type} {s t : Datapath κ} {i : Instruction} {slot : Slot} {size : Size} {l : Location}

theorem operand_run (i : Instruction) (slot : Slot) (s : Datapath κ) :
    operand i slot s = match i.operand? slot with
      | some op => .ok op s
      | none => .error (.invalidOperandCount i.operandCount) s := by
  unfold operand
  split <;> simp_all

/-- Reading moves the pointer whether it succeeds or fails. -/
theorem fill_run (h : s.adjusted.get slot = none) :
    fill i slot size s = match i.reach slot size s.regs.a with
      | .ok l => .ok ((s.settle i slot size).peek size l) (s.settle i slot size)
      | .error f => .error f (s.settle i slot size) := by
  unfold fill Instruction.reach Datapath.settle
  rw [Micro.bind_run, operand_run]
  cases i.operand? slot with
  | none => rfl
  | some op =>
    simp only [Micro.fill, Micro.bind_run, Micro.locate_run h]
    cases hp : op.place size s.regs.a with
    | none => rw [Datapath.settleOperand_of_place_eq_none hp]
    | some l =>
      simp only [Micro.load_run]
      cases l.fault? size <;> rfl

theorem store_run (h : s.adjusted.get slot = none) (x : UInt32) :
    store i slot size x s = match i.reach slot size s.regs.a with
      | .ok l => .ok () ((s.settle i slot size).poke size x l)
      | .error f => .error f (s.settle i slot size) := by
  unfold store Instruction.reach Datapath.settle
  rw [Micro.bind_run, operand_run]
  cases i.operand? slot with
  | none => rfl
  | some op =>
    simp only [Micro.store, Micro.bind_run, Micro.locate_run h]
    cases hp : op.place size s.regs.a with
    | none => rw [Datapath.settleOperand_of_place_eq_none hp]
    | some l =>
      simp only [Micro.save_run]
      cases l.fault? size <;> rfl

theorem restore_run (hl : i.reach slot size s.regs.a = .ok l)
    (ha : t.regs.a = (s.settle i slot size).regs.a)
    (hn : t.adjusted = (s.settle i slot size).adjusted) (wide : Size) (x : UInt32) :
    store i slot wide x t = match l.fault? wide with
      | none => .ok () (t.poke wide x l)
      | some f => .error f t := by
  obtain ⟨op, hop, hp, -⟩ := Instruction.reach_eq_ok.mp hl
  simp only [Datapath.settle, hop] at ha hn
  have hloc := Micro.locate_again hp ha hn wide
  unfold store
  rw [Micro.bind_run, operand_run]
  simp only [hop, Micro.store, Micro.bind_of_ok hloc, Micro.save_run]

end Microprogram
end Micro68
