import Micro68.Machine
import Micro68.Proofs.Execution

/-! The phases of a cycle. Up to execution a cycle changes the program counter and nothing else, so H is
as clear in every phase as it was at the start, and the cycle of a running machine either stops in an
early phase by a fault, with registers, memory and console as they were, or executes a completed
instruction in a state that differs from the first one in the program counter alone. -/
namespace Micro68

namespace Datapath

variable {κ : Type}

/-- The state in which a cycle looks at its opcode word: the notes of the cycle before are gone. -/
def begin (s : Datapath κ) : Datapath κ := { s with adjusted := {} }

def jump (s : Datapath κ) (pc : UInt16) : Datapath κ := { s with regs := s.regs.jump pc }

/-- The instruction that the next cycle decodes, without the addresses of absolute operands, or the
fault of fetching or decoding its opcode word. -/
def opcodePhase (s : Datapath κ) : Except Fault Instruction :=
  match s.mem.read .word s.regs.pc with
  | .error e => .error (.outOfRange e)
  | .ok x => Instruction.decode x.toUInt16

/-- The fault, if any, that ends the next cycle while it completes a decoded instruction. -/
def fetchFault? (s : Datapath κ) : Option Fault :=
  match s.opcodePhase with
  | .error _ => none
  | .ok i => match Micro.fetchOperands i (s.begin.jump (s.regs.pc + 2)) with
    | .error f _ => some f
    | .ok _ _ => none

/-- A form that can be decided on a given state. -/
theorem opcodePhase_eq_ok {s : Datapath κ} {i : Instruction} :
    s.opcodePhase = .ok i ↔ s.opcodePhase.toOption = some i := by
  cases s.opcodePhase <;> simp [Except.toOption]

theorem opcodePhase_word {s : Datapath κ} {i : Instruction} (h : s.opcodePhase = .ok i) :
    ∃ x, s.mem.read .word s.regs.pc = .ok x ∧ Instruction.decode x.toUInt16 = .ok i := by
  unfold opcodePhase at h
  split at h
  · cases h
  · exact ⟨_, ‹_›, h⟩

section Projections

variable (s : Datapath κ) (pc : UInt16)

@[simp] theorem begin_mem : s.begin.mem = s.mem := rfl
@[simp] theorem begin_console : s.begin.console = s.console := rfl
@[simp] theorem begin_regs : s.begin.regs = s.regs := rfl
@[simp] theorem begin_adjusted : s.begin.adjusted = {} := rfl

@[simp] theorem jump_mem : (s.jump pc).mem = s.mem := rfl
@[simp] theorem jump_console : (s.jump pc).console = s.console := rfl
@[simp] theorem jump_adjusted : (s.jump pc).adjusted = s.adjusted := rfl
@[simp] theorem jump_d : (s.jump pc).regs.d = s.regs.d := rfl
@[simp] theorem jump_a : (s.jump pc).regs.a = s.regs.a := rfl
@[simp] theorem jump_pc : (s.jump pc).regs.pc = pc := rfl
@[simp] theorem jump_flags : (s.jump pc).regs.flags = s.regs.flags := rfl
@[simp] theorem jump_jump (pc' : UInt16) : (s.jump pc).jump pc' = s.jump pc' := rfl

end Projections

end Datapath

namespace Instruction

/-- The instructions differ in the addresses of their operands at most, which extension words give. -/
structure SameForm (i j : Instruction) : Prop where
  opcode : j.opcode = i.opcode
  size : j.size = i.size
  count : j.operandCount = i.operandCount
  operand : ∀ slot, (j.operand? slot).map (fun op => { op with address := 0 }) =
    (i.operand? slot).map (fun op => { op with address := 0 })

theorem SameForm.refl (i : Instruction) : SameForm i i := ⟨rfl, rfl, rfl, fun _ => rfl⟩

theorem SameForm.trans {i j k : Instruction} (h : SameForm i j) (h' : SameForm j k) :
    SameForm i k :=
  ⟨h'.opcode.trans h.opcode, h'.size.trans h.size, h'.count.trans h.count,
    fun slot => (h'.operand slot).trans (h.operand slot)⟩

theorem sameForm_setAddress (i : Instruction) (slot : Slot) (a : UInt16) :
    SameForm i (i.setAddress slot a) := by
  refine ⟨rfl, rfl, rfl, fun t => ?_⟩
  cases slot <;> cases t <;> simp only [setAddress, operand?] <;> cases i.operands <;> rfl

theorem SameForm.isAbsolute {i j : Instruction} (h : SameForm i j) (slot : Slot) :
    j.isAbsolute slot = i.isAbsolute slot := by
  have ho := h.operand slot
  unfold Instruction.isAbsolute
  cases hi : i.operand? slot <;> cases hj : j.operand? slot <;> simp [hi, hj] at ho ⊢
  rw [ho.1]

theorem SameForm.extensionWords {i j : Instruction} (h : SameForm i j) :
    j.extensionWords = i.extensionWords := by
  have habs : j.isAbsolute = i.isAbsolute := funext h.isAbsolute
  rw [Instruction.extensionWords, Instruction.absoluteSlots, habs]
  rfl

end Instruction

namespace Micro

variable {κ : Type}

theorem fetchWord_run (s : Datapath κ) :
    fetchWord s = match s.mem.read .word s.regs.pc with
      | .ok x => .ok x.toUInt16 (s.jump (s.regs.pc + 2))
      | .error e => .error (.outOfRange e) (s.jump (s.regs.pc + 2)) := by
  simp only [fetchWord, bind_run, get_run, modifyRegs_run, readMemory]
  cases s.mem.read .word s.regs.pc <;> rfl

def fetchAddress (i : Instruction) (slot : Slot) : Micro κ Instruction := do
  return i.setAddress slot (← fetchWord)

theorem fetchAddress_run (i : Instruction) (slot : Slot) (s : Datapath κ) :
    fetchAddress i slot s = match s.mem.read .word s.regs.pc with
      | .ok x => .ok (i.setAddress slot x.toUInt16) (s.jump (s.regs.pc + 2))
      | .error e => .error (.outOfRange e) (s.jump (s.regs.pc + 2)) := by
  unfold fetchAddress
  rw [bind_run, fetchWord_run]
  cases s.mem.read .word s.regs.pc <;> rfl

theorem fetchAddresses_ok {slots : List Slot} {i j : Instruction} {s t : Datapath κ}
    (h : slots.foldlM fetchAddress i s = .ok j t) :
    i.SameForm j ∧ t = s.jump (s.regs.pc + UInt16.ofNat (2 * slots.length)) := by
  induction slots generalizing i s with
  | nil =>
    cases h
    exact ⟨.refl _, by simp [Datapath.jump, Registers.jump]⟩
  | cons slot slots ih =>
    rw [List.foldlM_cons] at h
    obtain ⟨k, u, hk, hu⟩ := bind_eq_ok.mp h
    rw [fetchAddress_run] at hk
    split at hk
    · cases hk
      obtain ⟨hform, rfl⟩ := ih hu
      refine ⟨(Instruction.sameForm_setAddress ..).trans hform, ?_⟩
      have hlen : 2 * (slots.length + 1) = 2 + 2 * slots.length := by omega
      simp [hlen, UInt16.ofNat_add, UInt16.add_assoc]
    · cases hk

/-- A missing extension word leaves the program counter moved. -/
theorem fetchAddresses_error {slots : List Slot} {i : Instruction} {s t : Datapath κ} {f : Fault}
    (h : slots.foldlM fetchAddress i s = .error f t) : ∃ pc, t = s.jump pc := by
  induction slots generalizing i s with
  | nil => cases h
  | cons slot slots ih =>
    rw [List.foldlM_cons, bind_eq_error] at h
    rcases h with h | ⟨k, u, hk, hu⟩
    · rw [fetchAddress_run] at h
      split at h <;> cases h
      exact ⟨_, rfl⟩
    · rw [fetchAddress_run] at hk
      split at hk <;> cases hk
      obtain ⟨pc, rfl⟩ := ih hu
      exact ⟨pc, rfl⟩

theorem fetchAddresses_of_fetchOperands {i j : Instruction} {s t : Datapath κ}
    (h : fetchOperands i s = .ok j t) : i.absoluteSlots.foldlM fetchAddress i s = .ok j t := by
  unfold fetchOperands at h
  split at h
  · cases h
  · exact h

theorem fetchOperands_ok {i j : Instruction} {s t : Datapath κ} (h : fetchOperands i s = .ok j t) :
    i.SameForm j ∧ t = s.jump (s.regs.pc + UInt16.ofNat (2 * i.extensionWords)) :=
  fetchAddresses_ok (fetchAddresses_of_fetchOperands h)

theorem fetchOperands_error {i : Instruction} {s t : Datapath κ} {f : Fault}
    (h : fetchOperands i s = .error f t) : ∃ pc, t = s.jump pc := by
  unfold fetchOperands at h
  split at h
  · cases h
    exact ⟨_, rfl⟩
  · exact fetchAddresses_error h

end Micro

namespace Datapath

variable {κ : Type} [Console κ]

/-- Where H is clear at the start, no check of H between the phases stops the cycle. -/
theorem cycle_run {s : Datapath κ} (hrun : s.regs.flags.halt = false) :
    s.cycle = match s.opcodePhase with
      | .error f => ⟨s.begin.jump (s.regs.pc + 2), none, some f⟩
      | .ok i => (s.begin.jump (s.regs.pc + 2)).operandPhase i := by
  have hbegin : ({ s with adjusted := {} } : Datapath κ) = s.begin := rfl
  unfold cycle opcodePhase
  rw [hbegin, Micro.fetchWord_run, begin_mem, begin_regs]
  cases s.mem.read .word s.regs.pc with
  | error e => rfl
  | ok x =>
    have hkept : (s.begin.jump (s.regs.pc + 2)).regs.flags.halt = false := hrun
    simp only [decodePhase, hkept]
    cases Instruction.decode x.toUInt16 <;> rfl

theorem executePhase_run {s : Datapath κ} (hrun : s.regs.flags.halt = false) (i : Instruction) :
    s.executePhase i = match i.execute s with
      | .ok _ t => ⟨t, some i, none⟩
      | .error f t => ⟨t, some i, some f⟩ := by
  unfold executePhase
  exact if_neg (Bool.eq_false_iff.mp hrun)

theorem operandPhase_run {s : Datapath κ} (hrun : s.regs.flags.halt = false) (i : Instruction) :
    s.operandPhase i = match Micro.fetchOperands i s with
      | .error f t => ⟨t, some i, some f⟩
      | .ok j t => match j.execute t with
        | .error f u => ⟨u, some j, some f⟩
        | .ok _ u => ⟨u, some j, none⟩ := by
  rw [operandPhase, hrun, if_neg Bool.false_ne_true]
  cases hf : Micro.fetchOperands i s with
  | error f t => rfl
  | ok j t =>
    have hkept : t.regs.flags.halt = false := by rw [(Micro.fetchOperands_ok hf).2]; exact hrun
    dsimp only
    rw [executePhase_run hkept]
    cases j.execute t <;> rfl

section Running

variable {s : Datapath κ} {i : Instruction} {f : Fault} (hrun : s.regs.flags.halt = false)

include hrun

theorem cycle_ok (h : s.cycle.fault = none) :
    ∃ i j t, s.opcodePhase = .ok i ∧ i.SameForm j ∧ s.cycle.instruction = some j ∧
      t = s.begin.jump (s.regs.pc + 2 + UInt16.ofNat (2 * i.extensionWords)) ∧
      Micro.fetchOperands i (s.begin.jump (s.regs.pc + 2)) = .ok j t ∧
      j.execute t = .ok () s.cycle.state := by
  have hc := cycle_run hrun
  cases hi : s.opcodePhase with
  | error f => simp [hc, hi] at h
  | ok i =>
    simp only [hi, operandPhase_run, jump_flags, begin_regs, hrun] at hc
    cases hj : Micro.fetchOperands i (s.begin.jump (s.regs.pc + 2)) with
    | error f t => simp [hc, hj] at h
    | ok j t =>
      simp only [hj] at hc
      obtain ⟨hform, ht⟩ := Micro.fetchOperands_ok hj
      cases he : j.execute t with
      | error f u => simp [hc, he] at h
      | ok _ u =>
        simp only [he] at hc
        exact ⟨i, j, t, rfl, hform, by rw [hc], ht, hj, by rw [he, hc]⟩

/-- A cycle that faulted did so in one of three phases. -/
theorem cycle_fault (h : s.cycle.fault = some f) :
    (s.opcodePhase = .error f ∧ s.cycle.instruction = none ∧
      ∃ pc, s.cycle.state = s.begin.jump pc) ∨
    (∃ i pc, s.opcodePhase = .ok i ∧ s.cycle.instruction = some i ∧
      s.cycle.state = s.begin.jump pc) ∨
    ∃ i j pc, s.opcodePhase = .ok i ∧ i.SameForm j ∧ s.cycle.instruction = some j ∧
      j.execute (s.begin.jump pc) = .error f s.cycle.state := by
  have hc := cycle_run hrun
  cases hi : s.opcodePhase with
  | error g =>
    simp only [hi] at hc
    have hg : g = f := by simpa [hc] using h
    exact .inl ⟨by rw [hg], by rw [hc], _, by rw [hc]⟩
  | ok i =>
    simp only [hi, operandPhase_run, jump_flags, begin_regs, hrun] at hc
    right
    cases hj : Micro.fetchOperands i (s.begin.jump (s.regs.pc + 2)) with
    | error g t =>
      simp only [hj] at hc
      obtain ⟨pc, ht⟩ := Micro.fetchOperands_error hj
      exact .inl ⟨i, pc, rfl, by rw [hc], by rw [hc, ht]; rfl⟩
    | ok j t =>
      simp only [hj] at hc
      obtain ⟨hform, ht⟩ := Micro.fetchOperands_ok hj
      cases he : j.execute t with
      | ok _ u => simp [hc, he] at h
      | error g u =>
        simp only [he] at hc
        have hg : g = f := by simpa [hc] using h
        rw [jump_jump] at ht
        exact .inr ⟨i, j, _, rfl, hform, by rw [hc], by rw [← ht, he, hc, hg]⟩

theorem cycle_instruction (hi : s.opcodePhase = .ok i) :
    ∃ j, s.cycle.instruction = some j ∧ i.SameForm j := by
  cases hf : s.cycle.fault with
  | none =>
    obtain ⟨k, j, t, hk, hform, hj, -⟩ := cycle_ok hrun hf
    cases hi.symm.trans hk
    exact ⟨j, hj, hform⟩
  | some f =>
    rcases cycle_fault hrun hf with ⟨hk, -⟩ | ⟨k, pc, hk, hj, -⟩ | ⟨k, j, pc, hk, hform, hj, -⟩
    · rw [hi] at hk
      cases hk
    · cases hi.symm.trans hk
      exact ⟨i, hj, .refl i⟩
    · cases hi.symm.trans hk
      exact ⟨j, hj, hform⟩

theorem cycle_of_opcodePhase_error (h : s.opcodePhase = .error f) :
    s.cycle.fault = some f ∧ s.cycle.instruction = none := by
  rw [cycle_run hrun, h]
  exact ⟨rfl, rfl⟩

theorem cycle_of_fetchFault (hi : s.opcodePhase = .ok i) (hf : s.fetchFault? = some f) :
    s.cycle.fault = some f ∧ s.cycle.instruction = some i := by
  simp only [fetchFault?, hi] at hf
  have hc := cycle_run hrun
  simp only [hi, operandPhase_run, jump_flags, begin_regs, hrun] at hc
  split at hf <;> cases hf
  rename_i hj
  simp only [hc, hj, and_self]

theorem cycle_completed (hi : s.opcodePhase = .ok i) (hf : s.fetchFault? = none) :
    ∃ j t, Micro.fetchOperands i (s.begin.jump (s.regs.pc + 2)) = .ok j t ∧
      s.cycle.instruction = some j ∧
      (j.execute t = .ok () s.cycle.state ∧ s.cycle.fault = none ∨
        ∃ f, j.execute t = .error f s.cycle.state ∧ s.cycle.fault = some f) := by
  have hc := cycle_run hrun
  simp only [hi, operandPhase_run, jump_flags, begin_regs, hrun] at hc
  simp only [fetchFault?, hi] at hf
  cases hj : Micro.fetchOperands i (s.begin.jump (s.regs.pc + 2)) with
  | error f t => simp [hj] at hf
  | ok j t =>
    simp only [hj] at hc
    refine ⟨j, t, rfl, ?_⟩
    cases he : j.execute t with
    | ok _ u =>
      simp only [he] at hc
      rw [hc]
      exact ⟨rfl, .inl ⟨rfl, rfl⟩⟩
    | error f u =>
      simp only [he] at hc
      rw [hc]
      exact ⟨rfl, .inr ⟨f, rfl, rfl⟩⟩

theorem cycle_executes (hi : s.cycle.instruction = some i) (hf : s.fetchFault? = none) :
    ∃ pc, i.execute (s.begin.jump pc) = .ok () s.cycle.state ∧ s.cycle.fault = none ∨
      ∃ f, i.execute (s.begin.jump pc) = .error f s.cycle.state ∧ s.cycle.fault = some f := by
  cases hp : s.opcodePhase with
  | error f =>
    rw [(cycle_of_opcodePhase_error hrun hp).2] at hi
    cases hi
  | ok k =>
    obtain ⟨j, t, hj, hinstr, hend⟩ := cycle_completed hrun hp hf
    obtain rfl : j = i := Option.some.inj (hinstr.symm.trans hi)
    obtain ⟨-, rfl⟩ := Micro.fetchOperands_ok hj
    exact ⟨_, hend⟩

end Running

end Datapath
end Micro68
