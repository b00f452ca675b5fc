import Micro68.Proofs.Phases

/-! Which operands an operation looks for, in which order and at which size, and what looking for them
does to the address registers: each operand in `(An)+` or `-(An)` mode moves its register once. -/
namespace Micro68

/-- The slots whose operands an operation reads or writes, first one first. -/
def Opcode.touched : Opcode → List Slot
  | add | sub | muls | divs | and | or | eor | cmp | move | exg => [.first, .second]
  | neg | clr | not | tst | inp | dsp => [.first]
  | addq | subq | moveq | lsl | lsr | rol | ror | movea => [.second]
  | bra | bvs | beq | bcs | bge | ble | dsr | hlt => []

namespace Instruction

/-- The size at which an operand is first looked for. -/
def accessSize (i : Instruction) (slot : Slot) : Size :=
  match i.opcode, slot with
  | .muls, _ => .word
  | .divs, .first => .word
  | _, _ => i.size

/-- The operands an instruction looks for, with their sizes. -/
def accesses (i : Instruction) : List (Slot × Size) :=
  i.opcode.touched.map fun slot => (slot, i.accessSize slot)

def totalShift (i : Instruction) (accesses : List (Slot × Size)) (r : Fin 2) : UInt16 :=
  accesses.foldr (fun access total => i.shift access.1 access.2 r + total) 0

theorem SameForm.shift {i j : Instruction} (h : SameForm i j) (slot : Slot) (size : Size)
    (r : Fin 2) : j.shift slot size r = i.shift slot size r := by
  have ho := h.operand slot
  unfold Instruction.shift
  cases hi : i.operand? slot <;> cases hj : j.operand? slot <;> simp [hi, hj] at ho ⊢
  rename_i op op'
  have hindex : op'.index = op.index := by rw [Operand.index, ho.2, Operand.index]
  rw [Operand.shift, Operand.shift, hindex, ho.1]

theorem SameForm.adjusts {i j : Instruction} (h : SameForm i j) (slot : Slot) :
    j.adjusts slot = i.adjusts slot := by
  have ho := h.operand slot
  unfold Instruction.adjusts
  cases hi : i.operand? slot <;> cases hj : j.operand? slot <;> simp [hi, hj] at ho ⊢
  simp [Operand.adjusts, ho]

theorem SameForm.totalShift {i j : Instruction} (h : SameForm i j) (accesses : List (Slot × Size))
    (r : Fin 2) : j.totalShift accesses r = i.totalShift accesses r := by
  simp [Instruction.totalShift, h.shift]

theorem SameForm.accesses {i j : Instruction} (h : SameForm i j) : j.accesses = i.accesses := by
  simp [Instruction.accesses, Instruction.accessSize, h.opcode, h.size]

end Instruction

namespace Datapath

variable {κ : Type} (s : Datapath κ) (i : Instruction) (accesses : List (Slot × Size))

@[simp] theorem settleAll_nil : s.settleAll i [] = s := rfl

@[simp] theorem settleAll_cons (access : Slot × Size) : s.settleAll i (access :: accesses) =
    (s.settle i access.1 access.2).settleAll i accesses := rfl

@[simp] theorem settleAll_mem : (s.settleAll i accesses).mem = s.mem := by
  induction accesses generalizing s with
  | nil => rfl
  | cons access accesses ih => simp [ih]

@[simp] theorem settleAll_console : (s.settleAll i accesses).console = s.console := by
  induction accesses generalizing s with
  | nil => rfl
  | cons access accesses ih => simp [ih]

@[simp] theorem settleAll_d : (s.settleAll i accesses).regs.d = s.regs.d := by
  induction accesses generalizing s with
  | nil => rfl
  | cons access accesses ih => simp [ih]

@[simp] theorem settleAll_pc : (s.settleAll i accesses).regs.pc = s.regs.pc := by
  induction accesses generalizing s with
  | nil => rfl
  | cons access accesses ih => simp [ih]

@[simp] theorem settleAll_flags : (s.settleAll i accesses).regs.flags = s.regs.flags := by
  induction accesses generalizing s with
  | nil => rfl
  | cons access accesses ih => simp [ih]

/-- Address registers move by the sum of what the accesses add to them. -/
theorem settleAll_a (r : Fin 2) :
    (s.settleAll i accesses).regs.a.get r = s.regs.a.get r + i.totalShift accesses r := by
  induction accesses generalizing s with
  | nil => simp [Instruction.totalShift]
  | cons access accesses ih =>
    rw [settleAll_cons, ih, settle_a, UInt16.add_assoc]
    simp [Instruction.totalShift]

theorem settleAll_get_isSome (slot : Slot) :
    ((s.settleAll i accesses).adjusted.get slot).isSome = true ↔
      (slot ∈ accesses.map Prod.fst ∧ i.adjusts slot = true) ∨
        (s.adjusted.get slot).isSome = true := by
  induction accesses generalizing s with
  | nil => simp
  | cons access accesses ih =>
    rw [settleAll_cons, ih]
    by_cases h : access.1 = slot
    · subst h
      rw [settle_get_isSome]
      cases i.adjusts access.1 <;> simp
    · rw [settle_get_of_ne _ _ _ _ h]
      simp [Ne.symm h]

end Datapath
end Micro68
