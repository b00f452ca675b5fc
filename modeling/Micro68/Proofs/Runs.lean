import Mathlib.Algebra.Group.Nat.Defs
import Mathlib.Logic.Function.Iterate
import Micro68.Proofs.Steps

/-! Runs. A run takes one step after the other; from the step that halts the machine on nothing
changes, and until then every step counts one cycle. So a loop that stops where the machine has halted
or the counter has reached a limit takes as many steps as the counter is away from the limit. -/
namespace Micro68

namespace Machine

/-- How many steps the counter can still count. -/
def room {κ : Type} (m : Machine κ) : Nat := maxCycles - m.cycles.toNat

theorem room_eq {κ : Type} (m : Machine κ) : m.room = 2 ^ 64 - 1 - m.cycles.toNat := rfl

variable {κ : Type} [Console κ] {m : Machine κ}

theorem step_of_halted (h : m.isHalted = true) : m.step = m := by
  rw [step, if_pos h]

theorem iterate_step_of_halted (h : m.isHalted = true) (n : Nat) : step^[n] m = m :=
  Function.iterate_fixed (step_of_halted h) n

theorem runCycles_eq (n : Nat) (m : Machine κ) : runCycles n m = step^[n] m := by
  unfold runCycles
  induction n generalizing m with
  | zero => rfl
  | succ n ih =>
    rw [Micro68.iterate, ih, Function.iterate_succ_apply]
    split
    · rename_i h
      rw [step_of_halted h, iterate_step_of_halted h]
    · rfl

/-- How many of the next `n` steps find the machine running. -/
def executed : Nat → Machine κ → Nat
  | 0, _ => 0
  | n + 1, m => (if m.isHalted then 0 else 1) + m.step.executed n

theorem executed_of_halted (h : m.isHalted = true) (n : Nat) : m.executed n = 0 := by
  induction n with
  | zero => rfl
  | succ n ih => rw [executed, if_pos h, step_of_halted h, ih]

theorem executed_succ (n : Nat) (h : m.isHalted = false) :
    m.executed (n + 1) = 1 + m.step.executed n := by
  simp [executed, h]

theorem executed_le (n : Nat) (m : Machine κ) : m.executed n ≤ n := by
  induction n generalizing m with
  | zero => exact Nat.le_refl 0
  | succ n ih =>
    have hstep := ih m.step
    rw [executed]
    split <;> omega

theorem executed_add (a b : Nat) (m : Machine κ) :
    m.executed (a + b) = m.executed a + (step^[a] m).executed b := by
  induction a generalizing m with
  | zero => simp [executed]
  | succ a ih =>
    rw [Nat.succ_add, executed, executed, ih, Function.iterate_succ_apply, Nat.add_assoc]

/-- The counter counts the steps that find the machine running, as long as it can. -/
theorem iterate_step_cycles (n : Nat) (m : Machine κ) :
    (step^[n] m).cycles = m.cycles + UInt64.ofNat (m.executed n) := by
  induction n generalizing m with
  | zero => simp [executed]
  | succ n ih =>
    cases h : m.isHalted with
    | true => simp [iterate_step_of_halted h, executed_of_halted h]
    | false =>
      rw [Function.iterate_succ_apply, ih, step_cycles h, executed_succ n h, UInt64.ofNat_add,
        UInt64.add_assoc]
      rfl

theorem halted_of_executed_lt {n : Nat} (h : m.executed n < n) : (step^[n] m).isHalted = true := by
  induction n generalizing m with
  | zero => exact absurd h (Nat.not_lt_zero _)
  | succ n ih =>
    cases hm : m.isHalted with
    | true => rw [iterate_step_of_halted hm, hm]
    | false =>
      rw [executed_succ n hm] at h
      exact ih (by omega)

theorem iterate_step_cycles_toNat {n : Nat} (h : n ≤ m.room) :
    (step^[n] m).cycles.toNat = m.cycles.toNat + m.executed n := by
  have hle := m.executed_le n
  have hm : m.cycles.toNat < 2 ^ 64 := m.cycles.toNat_lt
  have hroom := m.room_eq
  rw [iterate_step_cycles, UInt64.toNat_add,
    UInt64.toNat_ofNat_of_lt' (show m.executed n < 2 ^ 64 by omega)]
  omega

theorem room_step (hrun : m.isHalted = false) (hroom : 0 < m.room) : m.room = m.step.room + 1 := by
  have hcycles := step_cycles_toNat hrun (Nat.lt_of_sub_pos hroom)
  rw [room] at hroom ⊢
  rw [room, hcycles]
  omega

/-- By induction on the number of steps: the limit stays where it is, and the counter comes nearer to it
with each step. -/
theorem runUntil_eq {k : Nat} (hk : k ≤ m.room) :
    m.runUntil (UInt64.ofNat (m.cycles.toNat + k)) = step^[k] m := by
  have hm : m.cycles.toNat < 2 ^ 64 := m.cycles.toNat_lt
  have hroom := m.room_eq
  have hlimit : (UInt64.ofNat (m.cycles.toNat + k)).toNat = m.cycles.toNat + k :=
    UInt64.toNat_ofNat_of_lt' (show _ < 2 ^ 64 by omega)
  induction k generalizing m with
  | zero =>
    rw [runUntil, if_neg]
    · rfl
    · simp
  | succ k ih =>
    cases hrun : m.isHalted with
    | true =>
      rw [runUntil, if_neg (by simp [hrun]), iterate_step_of_halted hrun]
    | false =>
      have hbelow : m.cycles < UInt64.ofNat (m.cycles.toNat + (k + 1)) := by
        rw [UInt64.lt_iff_toNat_lt, hlimit]
        omega
      have hnext := room_step hrun (by omega)
      have hcycles := step_cycles_toNat hrun (Nat.lt_of_sub_pos (show 0 < m.room by omega))
      have hsame : m.cycles.toNat + (k + 1) = m.step.cycles.toNat + k := by omega
      rw [runUntil, if_pos ⟨hrun, hbelow⟩, Function.iterate_succ_apply]
      rw [hsame] at hlimit ⊢
      exact ih (by omega) m.step.cycles.toNat_lt m.step.room_eq hlimit

theorem runLimited_eq (n : UInt64) (m : Machine κ) : m.runLimited n =
    (UInt64.ofNat (m.executed (min n.toNat m.room)), step^[min n.toNat m.room] m) := by
  have hm : m.cycles.toNat < 2 ^ 64 := m.cycles.toNat_lt
  have hmax : maxCycles = 2 ^ 64 - 1 := rfl
  have hroom := m.room_eq
  have hlimit : min (m.cycles.toNat + n.toNat) maxCycles =
      m.cycles.toNat + min n.toNat m.room := by omega
  unfold runLimited
  dsimp only
  rw [hlimit, runUntil_eq (Nat.min_le_right _ _), iterate_step_cycles, UInt64.add_comm,
    UInt64.add_sub_cancel]

theorem runLimited_of_room {n : UInt64} (h : m.cycles.toNat + n.toNat < 2 ^ 64) :
    (m.runLimited n).2 = step^[n.toNat] m := by
  have hroom : min n.toNat m.room = n.toNat := by
    have hdef := m.room_eq
    omega
  rw [runLimited_eq, hroom]

theorem toNat_runLimited (n : UInt64) (m : Machine κ) :
    (m.runLimited n).1.toNat = m.executed (min n.toNat m.room) := by
  have hle := m.executed_le (min n.toNat m.room)
  have hn : n.toNat < 2 ^ 64 := n.toNat_lt
  rw [runLimited_eq]
  exact UInt64.toNat_ofNat_of_lt' (show _ < 2 ^ 64 by omega)

theorem runLimited_cycles (n : UInt64) (m : Machine κ) :
    (m.runLimited n).2.cycles.toNat = m.cycles.toNat + (m.runLimited n).1.toNat := by
  rw [toNat_runLimited, runLimited_eq]
  exact iterate_step_cycles_toNat (Nat.min_le_right _ _)

theorem run_of_halted {a b : Nat} (h : (step^[a] m).isHalted = true) (hab : a ≤ b) :
    step^[b] m = step^[a] m ∧ m.executed b = m.executed a := by
  obtain ⟨d, rfl⟩ := Nat.exists_eq_add_of_le hab
  constructor
  · rw [Nat.add_comm, Function.iterate_add_apply, iterate_step_of_halted h]
  · rw [executed_add, executed_of_halted h, Nat.add_zero]

theorem room_iterate_step {n : Nat} (h : n ≤ m.room) :
    (step^[n] m).room = m.room - m.executed n := by
  have hcycles := iterate_step_cycles_toNat h
  rw [room, room, hcycles]
  omega

/-- Two limited runs, one after the other, are one. -/
theorem runLimited_add {a b : UInt64} (hab : a.toNat + b.toNat < 2 ^ 64) (m : Machine κ) :
    m.runLimited (a + b) = ((m.runLimited a).1 + ((m.runLimited a).2.runLimited b).1,
      ((m.runLimited a).2.runLimited b).2) := by
  have hsum : (a + b).toNat = a.toNat + b.toNat := by
    rw [UInt64.toNat_add, Nat.mod_eq_of_lt hab]
  generalize hfirst : min a.toNat m.room = first
  have hroom : (step^[first] m).room = m.room - m.executed first := room_iterate_step (by omega)
  generalize hsecond : min b.toNat (step^[first] m).room = second
  have htotal : step^[min (a.toNat + b.toNat) m.room] m = step^[first + second] m ∧
      m.executed (min (a.toNat + b.toNat) m.room) = m.executed (first + second) := by
    have hle := m.executed_le first
    by_cases hshort : m.executed first < first
    · -- the first run has halted the machine, so neither number of steps matters
      have hhalt := halted_of_executed_lt hshort
      obtain ⟨hs, he⟩ := run_of_halted hhalt (b := min (a.toNat + b.toNat) m.room) (by omega)
      obtain ⟨hs', he'⟩ := run_of_halted hhalt (b := first + second) (by omega)
      exact ⟨hs.trans hs'.symm, he.trans he'.symm⟩
    · have hmin : min (a.toNat + b.toNat) m.room = first + second := by omega
      rw [hmin]
      exact ⟨rfl, rfl⟩
  simp only [runLimited_eq, hsum, hfirst, hsecond]
  rw [htotal.1, htotal.2, executed_add, UInt64.ofNat_add, Nat.add_comm, Function.iterate_add_apply]

theorem iterate_step_executed (n : Nat) (m : Machine κ) : step^[m.executed n] m = step^[n] m := by
  induction n generalizing m with
  | zero => rfl
  | succ n ih =>
    cases h : m.isHalted with
    | true => rw [iterate_step_of_halted h, iterate_step_of_halted h]
    | false =>
      rw [executed_succ n h, Nat.add_comm, Function.iterate_succ_apply, Function.iterate_succ_apply,
        ih]

/-- By induction on the steps that the counter can still count. -/
theorem runToHalt?_eq (m : Machine κ) : m.runToHalt? =
    if (step^[m.room] m).isHalted then some (step^[m.room] m) else none := by
  generalize hr : m.room = r
  induction r generalizing m with
  | zero =>
    rw [room] at hr
    rw [runToHalt?, if_neg (show ¬ m.cycles.toNat < maxCycles by omega)]
    rfl
  | succ r ih =>
    cases hrun : m.isHalted with
    | true => simp [runToHalt?, hrun, iterate_step_of_halted hrun]
    | false =>
      have hbelow : m.cycles.toNat < maxCycles := Nat.lt_of_sub_pos (show 0 < m.room by omega)
      have hnext := room_step hrun (by omega)
      rw [runToHalt?, hrun, if_neg Bool.false_ne_true, if_pos hbelow, ih m.step (by omega),
        Function.iterate_succ_apply]

theorem run?_eq (m : Machine κ) : m.run? =
    if (step^[m.room] m).isHalted then
      some (UInt64.ofNat (m.executed m.room), step^[m.room] m)
    else none := by
  rw [run?, runToHalt?_eq]
  split
  · rw [Option.map_some, iterate_step_cycles, UInt64.add_comm, UInt64.add_sub_cancel]
  · rfl

/-- A run to the end has no outcome where the counter is full before the machine has halted. -/
theorem run?_eq_none : m.run? = none ↔ ∃ k, (step^[k] m).isHalted = false ∧
    m.cycles.toNat + k = 2 ^ 64 - 1 ∧ (step^[k] m).cycles.toNat = 2 ^ 64 - 1 := by
  have hm : m.cycles.toNat < 2 ^ 64 := m.cycles.toNat_lt
  have hroom := m.room_eq
  have hfull : m.cycles.toNat + m.room = 2 ^ 64 - 1 := by omega
  rw [run?_eq, ite_eq_right_iff]
  constructor
  · intro h
    have hrun : (step^[m.room] m).isHalted = false := Bool.eq_false_iff.mpr fun hh => nomatch h hh
    have hall : m.executed m.room = m.room := by
      refine Nat.le_antisymm (m.executed_le _) (Nat.not_lt.mp fun hlt => ?_)
      rw [halted_of_executed_lt hlt] at hrun
      cases hrun
    refine ⟨m.room, hrun, hfull, ?_⟩
    rw [iterate_step_cycles_toNat (Nat.le_refl _), hall, hfull]
  · rintro ⟨k, hrun, hk, -⟩ hhalt
    obtain rfl : k = m.room := by omega
    rw [hhalt] at hrun
    cases hrun

/-- A run to the end is any limited run that is long enough for the machine to halt. -/
theorem run?_eq_some {r : UInt64 × Machine κ} : m.run? = some r ↔
    r.2.isHalted = true ∧ ∀ n, r.1 ≤ n → m.runLimited n = r := by
  have hroom : m.room ≤ 2 ^ 64 - 1 := Nat.sub_le _ _
  have hle := m.executed_le m.room
  rw [run?_eq]
  constructor
  · intro h
    split at h
    · rename_i hhalt
      cases h
      refine ⟨hhalt, fun n hn => ?_⟩
      rw [UInt64.le_iff_toNat_le,
        UInt64.toNat_ofNat_of_lt' (show m.executed m.room < 2 ^ 64 by omega)] at hn
      rw [← iterate_step_executed] at hhalt
      obtain ⟨hs, he⟩ := run_of_halted hhalt (b := min n.toNat m.room) (by omega)
      obtain ⟨hs', he'⟩ := run_of_halted hhalt hle
      rw [runLimited_eq, hs.trans hs'.symm, he.trans he'.symm]
    · cases h
  · rintro ⟨hhalt, hlong⟩
    have hmax : (UInt64.ofNat (2 ^ 64 - 1)).toNat = 2 ^ 64 - 1 :=
      UInt64.toNat_ofNat_of_lt' (by decide)
    have hr : r.1.toNat < 2 ^ 64 := r.1.toNat_lt
    have hrun := hlong (UInt64.ofNat (2 ^ 64 - 1)) (by rw [UInt64.le_iff_toNat_le, hmax]; omega)
    rw [runLimited_eq, hmax, Nat.min_eq_right hroom] at hrun
    subst hrun
    rw [if_pos hhalt]

theorem runLimited_stops (n : UInt64) (m : Machine κ) : (m.runLimited n).2.isHalted = true ∨
    (m.runLimited n).2.cycles.toNat = min (m.cycles.toNat + n.toNat) (2 ^ 64 - 1) := by
  have hm : m.cycles.toNat < 2 ^ 64 := m.cycles.toNat_lt
  have hroom := m.room_eq
  have hle := m.executed_le (min n.toNat m.room)
  rw [runLimited_cycles, toNat_runLimited, runLimited_eq]
  by_cases hshort : m.executed (min n.toNat m.room) < min n.toNat m.room
  · exact .inl (halted_of_executed_lt hshort)
  · right
    omega

/-- Limited runs and runs to the end are runs of steps. A limited run that the counter has room for
is that many steps, and gives the number of those that found the machine running; two of them are
one; a run to the end is every limited run that is long enough. The counter never wraps: a limited run
that has not halted the machine stops where it is full, if it does not stop before, and a run to the end
has no outcome there. -/
theorem runLimited_laws (m : Machine κ) :
    (∀ n : UInt64, m.cycles.toNat + n.toNat < 2 ^ 64 →
      ∃ k, m.runLimited n = (k, step^[n.toNat] m) ∧ k ≤ n ∧ k.toNat = m.executed n.toNat ∧
        (k < n → (step^[n.toNat] m).isHalted = true) ∧
        (step^[n.toNat] m).cycles.toNat = m.cycles.toNat + k.toNat) ∧
    (∀ a b : UInt64, a.toNat + b.toNat < 2 ^ 64 →
      m.runLimited (a + b) = ((m.runLimited a).1 + ((m.runLimited a).2.runLimited b).1,
        ((m.runLimited a).2.runLimited b).2)) ∧
    (∀ k final, m.run? = some (k, final) ↔
      final.isHalted = true ∧ ∀ n, k ≤ n → m.runLimited n = (k, final)) ∧
    (∀ n, (m.runLimited n).2.cycles.toNat = m.cycles.toNat + (m.runLimited n).1.toNat ∧
      ((m.runLimited n).2.isHalted = true ∨
        (m.runLimited n).2.cycles.toNat = min (m.cycles.toNat + n.toNat) (2 ^ 64 - 1))) ∧
    (m.run? = none ↔ ∃ k, (step^[k] m).isHalted = false ∧
      m.cycles.toNat + k = 2 ^ 64 - 1 ∧ (step^[k] m).cycles.toNat = 2 ^ 64 - 1) := by
  refine ⟨fun n hn => ?_, fun a b hab => runLimited_add hab m, fun k final => run?_eq_some,
    fun n => ⟨runLimited_cycles n m, runLimited_stops n m⟩, run?_eq_none⟩
  have hroom : min n.toNat m.room = n.toNat := by
    have hdef := m.room_eq
    omega
  have hk : (m.runLimited n).1.toNat = m.executed n.toNat := by rw [toNat_runLimited, hroom]
  have hfinal : (m.runLimited n).2 = step^[n.toNat] m := by rw [runLimited_eq, hroom]
  have hcycles := runLimited_cycles n m
  rw [hfinal] at hcycles
  refine ⟨(m.runLimited n).1, Prod.ext rfl hfinal, ?_, hk, fun hlt => ?_, hcycles⟩
  · rw [UInt64.le_iff_toNat_le, hk]
    exact m.executed_le _
  · rw [UInt64.lt_iff_toNat_lt, hk] at hlt
    exact halted_of_executed_lt hlt

/-- `DSR` and `HLT`: of seven steps two find the machine running, in one run or in several. Where the
counter is full there is no run to the end. -/
theorem runLimited_laws_halting :
    let m := holding [0xF0, 0x00, 0xF8, 0x00] {}
    let full := { m with cycles := 0xFFFFFFFFFFFFFFFF }
    m.cycles.toNat + (7 : UInt64).toNat < 2 ^ 64 ∧ m.runLimited 7 = (2, step^[7] m) ∧
      (step^[7] m).isHalted = true ∧ m.run? = some (2, step^[7] m) ∧
      ((m.runLimited 1).2.runLimited 6).2 = step^[7] m ∧ full.run? = none := by
  intro m full
  obtain ⟨hsteps, hadd, hrun, -⟩ := runLimited_laws m
  have hroom : m.cycles.toNat + (7 : UInt64).toNat < 2 ^ 64 := by decide
  obtain ⟨k, hk, -, hcount, hhalt, -⟩ := hsteps 7 hroom
  obtain rfl : k = 2 := by
    apply UInt64.toNat_inj.mp
    rw [hcount]
    decide +kernel
  have hhalted := hhalt (by decide)
  have hfinal : m.run?.map (·.1) = some 2 := by decide +kernel
  obtain ⟨⟨k, final⟩, hr, hk2⟩ := Option.map_eq_some_iff.mp hfinal
  obtain rfl : k = 2 := hk2
  have hlong := ((hrun 2 final).mp hr).2 7 (by decide)
  have hsum := hadd 1 6 (by decide)
  refine ⟨hroom, hk, hhalted, ?_, ?_, (runLimited_laws full).2.2.2.2.mpr ⟨0, rfl, rfl, rfl⟩⟩
  · rw [hr, ← hlong, hk]
    rfl
  · change m.runLimited 7 = _ at hsum
    rw [hk] at hsum
    exact (congrArg Prod.snd hsum).symm

end Machine
end Micro68
