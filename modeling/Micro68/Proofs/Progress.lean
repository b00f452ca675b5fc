import Micro68.Proofs.Branches
import Micro68.Proofs.Halting

/-! Progress. A step that neither faults nor takes a branch moves the program counter on by one word at
least, and not out of memory; what the words are, and whether the program has changed them itself,
does not matter. So a machine that takes no branch has soon halted. -/
namespace Micro68

namespace Machine

variable {κ : Type} [Console κ] {m : Machine κ}

theorem step_progress (hrun : m.isHalted = false) (hok : m.toDatapath.cycle.fault = none)
    (hb : m.takesBranch = false) :
    m.regs.pc.toNat + 2 ≤ m.step.regs.pc.toNat ∧ m.step.regs.pc.toNat ≤ Memory.capacity := by
  obtain ⟨i, -, hpc, hend⟩ := step_pc_of_no_branch hrun hok hb
  exact ⟨by omega, hend⟩

theorem fault_eq_none_of_running (hrun : m.step.isHalted = false) :
    m.isHalted = false ∧ m.toDatapath.cycle.fault = none := by
  have hbefore : m.isHalted = false := by
    by_contra hh
    rw [Bool.not_eq_false] at hh
    rw [step_of_halted hh, hh] at hrun
    cases hrun
  refine ⟨hbefore, ?_⟩
  by_contra hf
  rw [(step_isHalted hbefore).mpr (.inr hf)] at hrun
  cases hrun

/-- As long as a machine runs and takes no branch its program counter grows with every step. -/
theorem iterate_step_progress {n : Nat} (hrun : (step^[n] m).isHalted = false)
    (hb : ∀ k < n, (step^[k] m).isHalted = false → (step^[k] m).takesBranch = false) :
    m.regs.pc.toNat + 2 * n ≤ (step^[n] m).regs.pc.toNat ∧
      (0 < n → (step^[n] m).regs.pc.toNat ≤ Memory.capacity) := by
  induction n with
  | zero => exact ⟨Nat.le_refl _, fun h => absurd h (Nat.lt_irrefl 0)⟩
  | succ n ih =>
    rw [Function.iterate_succ_apply'] at hrun ⊢
    obtain ⟨hbefore, hok⟩ := fault_eq_none_of_running hrun
    obtain ⟨hgrown, -⟩ := ih hbefore fun k hk => hb k (Nat.lt_succ_of_lt hk)
    obtain ⟨hnext, hend⟩ := step_progress hbefore hok (hb n (Nat.lt_succ_self n) hbefore)
    exact ⟨by omega, fun _ => hend⟩

/-- Memory has room for half as many words as it has cells. -/
theorem isHalted_of_no_branch {n : Nat} (hn : Memory.capacity < 2 * n)
    (hb : ∀ k < n, (step^[k] m).isHalted = false → (step^[k] m).takesBranch = false) :
    (step^[n] m).isHalted = true := by
  by_contra hh
  rw [Bool.not_eq_true] at hh
  obtain ⟨hgrown, hend⟩ := iterate_step_progress hh hb
  have hlast := hend (by omega)
  omega

theorem no_branch_of_halted {n : Nat} (hhalted : (step^[n] m).isHalted = true)
    (hb : ∀ k < n, (step^[k] m).takesBranch = false) (k : Nat)
    (hrun : (step^[k] m).isHalted = false) : (step^[k] m).takesBranch = false := by
  rcases Nat.lt_or_ge k n with hk | hk
  · exact hb k hk
  · rw [(run_of_halted hhalted hk).1, hhalted] at hrun
    cases hrun

/-- Among any 2049 steps one takes a branch, or leaves the machine halted. Without a branch a run of
2049 steps leaves it halted if the counter has room for so many, and otherwise leaves it halted or the
counter full. A step of a running machine that neither faults nor takes a branch moves the program
counter on by a word at least, and not out of memory. -/
theorem branch_or_halt (m : Machine κ) :
    (∃ k < 2049, (step^[k] m).isHalted = false ∧ (step^[k] m).takesBranch = true ∨
      (step^[k + 1] m).isHalted = true) ∧
    ((∀ k < 2049, (step^[k] m).isHalted = false → (step^[k] m).takesBranch = false) →
      (step^[2049] m).isHalted = true ∧
      (m.cycles.toNat + 2049 < 2 ^ 64 → (m.runLimited 2049).2.isHalted = true) ∧
      ((m.runLimited 2049).2.isHalted = true ∨
        (m.runLimited 2049).2.cycles.toNat = 2 ^ 64 - 1)) ∧
    (m.isHalted = false → m.toDatapath.cycle.fault = none → m.takesBranch = false →
      m.regs.pc.toNat + 2 ≤ m.step.regs.pc.toNat ∧ m.step.regs.pc.toNat ≤ 0x1001) := by
  have hwords : Memory.capacity < 2 * 2049 := by decide
  have hlimit : (2049 : UInt64).toNat = 2049 := rfl
  have hroom (hb : ∀ k < 2049, (step^[k] m).isHalted = false → (step^[k] m).takesBranch = false)
      (hfits : m.cycles.toNat + 2049 < 2 ^ 64) : (m.runLimited 2049).2.isHalted = true := by
    rw [runLimited_of_room (hlimit ▸ hfits)]
    exact isHalted_of_no_branch hwords hb
  refine ⟨?_, fun hb => ⟨isHalted_of_no_branch hwords hb, hroom hb, ?_⟩, step_progress⟩
  · by_contra hnone
    have hb : ∀ k < 2049, (step^[k] m).isHalted = false → (step^[k] m).takesBranch = false :=
      fun k hk hrun => Bool.eq_false_iff.mpr fun h => hnone ⟨k, hk, .inl ⟨hrun, h⟩⟩
    exact hnone ⟨2048, by decide, .inr (isHalted_of_no_branch hwords hb)⟩
  · by_cases hfits : m.cycles.toNat + 2049 < 2 ^ 64
    · exact .inl (hroom hb hfits)
    · exact (runLimited_stops 2049 m).imp_right fun hcycles => by omega

/-- `BVS $0000`, which is not taken, and `HLT`. -/
theorem branch_or_halt_untaken :
    let m := holding [0x9A, 0x60, 0x00, 0x00, 0xF8, 0x00] {}
    m.isHalted = false ∧ m.toDatapath.cycle.fault = none ∧ m.takesBranch = false ∧
      m.regs.pc.toNat + 2 ≤ m.step.regs.pc.toNat ∧
      (∀ k < 2049, (step^[k] m).isHalted = false → (step^[k] m).takesBranch = false) ∧
      m.cycles.toNat + 2049 < 2 ^ 64 ∧ (m.runLimited 2049).2.isHalted = true := by
  intro m
  obtain ⟨-, hhalts, hgrows⟩ := branch_or_halt m
  have hrun : m.isHalted = false := by decide
  have hok : m.toDatapath.cycle.fault = none := by decide +kernel
  have hnot : m.takesBranch = false := by decide +kernel
  have hhalted : (step^[2] m).isHalted = true := by decide +kernel
  have hb := no_branch_of_halted hhalted (by decide +kernel)
  have hfits : m.cycles.toNat + 2049 < 2 ^ 64 := by decide
  exact ⟨hrun, hok, hnot, (hgrows hrun hok hnot).1, fun k _ => hb k, hfits,
    (hhalts fun k _ => hb k).2.1 hfits⟩

/-- The counter must have room, and the machine must run. `DSR` and `HLT` take no branch, but a run of
them ends before it begins where the counter is full; and once they have halted the machine a further
step, which does not fault either, leaves the program counter where it is. -/
theorem branch_or_halt_full :
    let m := { holding [0xF0, 0x00, 0xF8, 0x00] {} with cycles := 0xFFFFFFFFFFFFFFFF }
    let halted := step^[2] m
    (∀ k < 2049, (step^[k] m).isHalted = false → (step^[k] m).takesBranch = false) ∧
      (m.runLimited 2049).2.isHalted = false ∧
      halted.isHalted = true ∧ halted.toDatapath.cycle.fault = none ∧
      halted.takesBranch = false ∧
      ¬ halted.regs.pc.toNat + 2 ≤ halted.step.regs.pc.toNat := by
  intro m halted
  have hhalted : (step^[2] m).isHalted = true := by decide +kernel
  have hb := no_branch_of_halted hhalted (by decide +kernel)
  exact ⟨fun k _ => hb k, by decide +kernel, hhalted, by decide +kernel, by decide +kernel,
    by decide +kernel⟩

end Machine
end Micro68
