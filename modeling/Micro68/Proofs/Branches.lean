import Micro68.Proofs.Completion
import Micro68.Proofs.Steps

/-! Where a step goes on: behind the words of its instruction, none of which lies outside memory, or at
the address in the first extension word, if the instruction is a branch whose condition holds. -/
namespace Micro68

theorem Memory.toNat_next {m : Memory} {a : UInt16} {x : UInt32} (h : m.read .word a = .ok x) :
    (a + 2).toNat = a.toNat + 2 ∧ a.toNat + 2 ≤ capacity := by
  have hcap : capacity = 0x1001 := rfl
  have hin : a.toNat + 2 ≤ capacity := by
    unfold read at h
    split at h
    · rename_i hin
      exact of_decide_eq_true hin
    · cases h
  refine ⟨?_, hin⟩
  rw [UInt16.toNat_add]
  change (a.toNat + 2) % 2 ^ 16 = a.toNat + 2
  omega

theorem Instruction.operand?_setAddress (i : Instruction) (s t : Slot) (a : UInt16) :
    (i.setAddress s a).operand? t =
      if s = t then (i.operand? t).map fun op => { op with address := a } else i.operand? t := by
  cases s <;> cases t <;> simp only [setAddress, operand?] <;> cases i.operands <;> rfl

namespace Micro

variable {κ : Type} {i j : Instruction} {s t : Datapath κ}

theorem fetchAddresses_toNat {slots : List Slot} (h : slots.foldlM fetchAddress i s = .ok j t)
    (hpc : s.regs.pc.toNat ≤ Memory.capacity) :
    t.regs.pc.toNat = s.regs.pc.toNat + 2 * slots.length ∧ t.regs.pc.toNat ≤ Memory.capacity := by
  induction slots generalizing i s with
  | nil =>
    cases h
    exact ⟨rfl, hpc⟩
  | cons slot slots ih =>
    rw [List.foldlM_cons] at h
    obtain ⟨k, u, hk, hu⟩ := bind_eq_ok.mp h
    rw [fetchAddress_run] at hk
    split at hk
    · rename_i x hx
      cases hk
      obtain ⟨hnext, hin⟩ := Memory.toNat_next hx
      obtain ⟨hlast, hend⟩ := ih hu (by rw [Datapath.jump_pc, hnext]; exact hin)
      rw [Datapath.jump_pc, hnext] at hlast
      rw [List.length_cons]
      exact ⟨by omega, hend⟩
    · cases hk

theorem fetchAddresses_operand? {slots : List Slot} {slot : Slot} (hslot : slot ∉ slots)
    (h : slots.foldlM fetchAddress i s = .ok j t) : j.operand? slot = i.operand? slot := by
  induction slots generalizing i s with
  | nil =>
    cases h
    rfl
  | cons other slots ih =>
    rw [List.foldlM_cons] at h
    obtain ⟨k, u, hk, hu⟩ := bind_eq_ok.mp h
    rw [fetchAddress_run] at hk
    split at hk
    · cases hk
      rw [ih (List.not_mem_of_not_mem_cons hslot) hu, Instruction.operand?_setAddress,
        if_neg (Ne.symm (List.ne_of_not_mem_cons hslot))]
    · cases hk

theorem fetchOperands_first (h : fetchOperands i s = .ok j t) (hfirst : i.isAbsolute .first = true) :
    ∃ x op, s.mem.read .word s.regs.pc = .ok x ∧ j.operand? .first = some op ∧
      op.mode = .absolute ∧ op.address = x.toUInt16 := by
  obtain ⟨op, hop, hmode⟩ : ∃ op, i.operand? .first = some op ∧ op.mode = .absolute := by
    simpa [Instruction.isAbsolute, Option.any_eq_true] using hfirst
  have hslots : i.absoluteSlots = .first :: [Slot.second].filter i.isAbsolute :=
    List.filter_cons_of_pos hfirst
  have hwords := fetchAddresses_of_fetchOperands h
  rw [hslots, List.foldlM_cons] at hwords
  obtain ⟨k, u, hk, hu⟩ := bind_eq_ok.mp hwords
  rw [fetchAddress_run] at hk
  split at hk
  · rename_i x hx
    cases hk
    have hother : Slot.first ∉ [Slot.second].filter i.isAbsolute := by simp
    have hkeep := fetchAddresses_operand? hother hu
    rw [Instruction.operand?_setAddress, if_pos rfl, hop] at hkeep
    exact ⟨x, _, hx, hkeep, hmode, rfl⟩
  · cases hk

end Micro

namespace Datapath

variable {κ : Type} [Console κ] {s : Datapath κ}

omit [Console κ] in
theorem fetchOperands_toNat {i j : Instruction} {t : Datapath κ} (hi : s.opcodePhase = .ok i)
    (h : Micro.fetchOperands i (s.begin.jump (s.regs.pc + 2)) = .ok j t) :
    t.regs.pc.toNat = s.regs.pc.toNat + 2 + 2 * i.extensionWords ∧
      t.regs.pc.toNat ≤ Memory.capacity := by
  obtain ⟨x, hx, -⟩ := opcodePhase_word hi
  obtain ⟨hnext, hin⟩ := Memory.toNat_next hx
  have hbehind := Micro.fetchAddresses_toNat (Micro.fetchAddresses_of_fetchOperands h)
    (by rw [jump_pc, hnext]; exact hin)
  rw [jump_pc, hnext] at hbehind
  exact hbehind

/-- A cycle that does not fault executes its instruction from behind the words of it, which lie in
memory. -/
theorem cycle_behind (hrun : s.regs.flags.halt = false) (hok : s.cycle.fault = none) :
    ∃ i j t, s.opcodePhase = .ok i ∧ i.SameForm j ∧ s.cycle.instruction = some j ∧
      t.adjusted = {} ∧ t.regs.flags = s.regs.flags ∧ j.execute t = .ok () s.cycle.state ∧
      t.regs.pc.toNat = s.regs.pc.toNat + 2 + 2 * i.extensionWords ∧
      t.regs.pc.toNat ≤ Memory.capacity := by
  obtain ⟨i, j, t, hi, hform, hj, ht, hfetch, he⟩ := cycle_ok hrun hok
  exact ⟨i, j, t, hi, hform, hj, by rw [ht]; rfl, by rw [ht]; rfl, he, fetchOperands_toNat hi hfetch⟩

end Datapath

open Microprogram in
theorem execute_of_isBranch {κ : Type} [Console κ] {i : Instruction} (h : i.opcode.isBranch = true) :
    (i.execute : Micro κ Unit) = branch i := by
  unfold Instruction.execute
  cases ho : i.opcode <;> simp [ho, Opcode.isBranch] at h <;> rfl

namespace Machine

variable {κ : Type} [Console κ] {m : Machine κ}

/-- Does the next step go to the target of a branch? -/
def takesBranch (m : Machine κ) : Bool :=
  m.toDatapath.cycle.fault.isNone && m.toDatapath.cycle.instruction.any fun i =>
    i.opcode.isBranch && Microprogram.taken i.opcode m.regs.flags

/-- A step that neither faults nor takes a branch goes on behind the words of its instruction. -/
theorem step_pc_of_no_branch (hrun : m.isHalted = false) (hok : m.toDatapath.cycle.fault = none)
    (hb : m.takesBranch = false) :
    ∃ i, m.toDatapath.opcodePhase = .ok i ∧
      m.step.regs.pc.toNat = m.regs.pc.toNat + 2 + 2 * i.extensionWords ∧
      m.step.regs.pc.toNat ≤ Memory.capacity := by
  obtain ⟨i, j, t, hi, -, hj, hadj, hflags, he, hbehind⟩ := Datapath.cycle_behind hrun hok
  have hnot : (j.opcode.isBranch && Microprogram.taken j.opcode t.regs.flags) = false := by
    simpa [takesBranch, hok, hj, hflags] using hb
  rw [step_pc hrun, execute_pc hadj he hnot]
  exact ⟨i, hi, hbehind⟩

open Microprogram in
/-- A branch that is word-sized and has its target in an extension word does not fault, and changes
the program counter alone. -/
theorem step_branch {b : Instruction} (hrun : m.isHalted = false)
    (hp : m.toDatapath.opcodePhase = .ok b) (hfetch : m.toDatapath.fetchFault? = none)
    (hb : b.opcode.isBranch = true) (hsize : b.size = .word) (habs : b.isAbsolute .first = true) :
    m.toDatapath.cycle.fault = none ∧ m.takesBranch = taken b.opcode m.regs.flags ∧
      ∃ x, m.mem.read .word (m.regs.pc + 2) = .ok x ∧
        m.step.toDatapath = m.toDatapath.begin.jump (if taken b.opcode m.regs.flags then x.toUInt16
          else m.regs.pc + 2 + UInt16.ofNat (2 * b.extensionWords)) := by
  obtain ⟨j, t, hj, hinstr, hend⟩ := Datapath.cycle_completed hrun hp hfetch
  obtain ⟨hform, ht⟩ := Micro.fetchOperands_ok hj
  obtain ⟨x, op, hx, hop, hmode, haddr⟩ := Micro.fetchOperands_first hj habs
  have hbj : j.opcode.isBranch = true := by rw [hform.opcode, hb]
  have hsizej : j.size = .word := by rw [hform.size, hsize]
  rw [execute_of_isBranch hbj] at hend
  rcases hend with ⟨he, hok⟩ | ⟨f, he, -⟩
  · obtain ⟨op', hop', -, -, hstate⟩ := branch_ok he
    cases hop.symm.trans hop'
    refine ⟨hok, ?_, x, hx, ?_⟩
    · simp [takesBranch, hok, hinstr, hform.opcode, hb]
    · rw [step_of_ok hrun hok, hstate, hform.opcode, haddr, ht]
      simp only [Datapath.jump_flags, Datapath.begin_regs, Datapath.jump_jump, Datapath.jump_pc]
      exact (apply_ite m.toDatapath.begin.jump _ _ _).symm
  · rw [branch_run, hop] at he
    simp [hmode, hsizej] at he

end Machine
end Micro68
