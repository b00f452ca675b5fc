import Micro68.Proofs.Runs

/-! What a programmer sees decides what happens. A cycle begins by forgetting where operands were found
before it, and reads neither the counter nor the records of the last instruction and the last fault. So
machines with the same registers, memory and console stay so, whatever else they differ in. -/
namespace Micro68

theorem Datapath.cycle_congr {κ : Type} [Console κ] {s s' : Datapath κ} (h : s'.begin = s.begin) :
    s'.cycle = s.cycle := by
  have hbegin : ({ s' with adjusted := {} } : Datapath κ) = { s with adjusted := {} } := h
  rw [cycle, hbegin]
  rfl

namespace Machine

/-- Two machines have the same registers, memory and console. -/
structure SameVisible {κ : Type} (m m' : Machine κ) : Prop where
  regs : m'.regs = m.regs
  mem : m'.mem = m.mem
  console : m'.console = m.console

namespace SameVisible

variable {κ : Type} {m m' : Machine κ}

theorem of_toDatapath (h : m'.toDatapath = m.toDatapath) : SameVisible m m' where
  regs := congrArg Datapath.regs h
  mem := congrArg Datapath.mem h
  console := congrArg Datapath.console h

theorem begin_eq (h : SameVisible m m') : m'.toDatapath.begin = m.toDatapath.begin := by
  simp only [Datapath.begin, h.regs, h.mem, h.console]

theorem isHalted_eq (h : SameVisible m m') : m'.isHalted = m.isHalted := by
  rw [isHalted, h.regs, isHalted]

variable [Console κ]

theorem step_of_running (h : SameVisible m m') (hrun : m.isHalted = false) :
    m'.step.toDatapath = m.step.toDatapath ∧ m'.step.lastInstruction = m.step.lastInstruction := by
  have hrun' : m'.isHalted = false := h.isHalted_eq.trans hrun
  have hcycle : m'.toDatapath.cycle = m.toDatapath.cycle := Datapath.cycle_congr h.begin_eq
  cases hf : m.toDatapath.cycle.fault with
  | none =>
    rw [step_of_ok hrun hf, step_of_ok hrun' (hcycle ▸ hf), hcycle]
    exact ⟨rfl, rfl⟩
  | some f =>
    rw [step_of_fault hrun hf, step_of_fault hrun' (hcycle ▸ hf), hcycle, h.regs]
    exact ⟨rfl, rfl⟩

theorem step (h : SameVisible m m') : SameVisible m.step m'.step := by
  cases hrun : m.isHalted with
  | true => rwa [step_of_halted hrun, step_of_halted (h.isHalted_eq.trans hrun)]
  | false => exact of_toDatapath (h.step_of_running hrun).1

theorem iterate_step (h : SameVisible m m') (n : Nat) :
    SameVisible (Machine.step^[n] m) (Machine.step^[n] m') := by
  induction n generalizing m m' with
  | zero => exact h
  | succ n ih => exact ih h.step

theorem executed_eq (h : SameVisible m m') (n : Nat) : m'.executed n = m.executed n := by
  induction n generalizing m m' with
  | zero => rfl
  | succ n ih => rw [executed, executed, h.isHalted_eq, ih h.step]

/-- Once a step has been executed the differences in what it records are gone, and they stay so. -/
theorem lastInstruction_eq (h : SameVisible m m') {n : Nat} (hn : 0 < m.executed n) :
    (Machine.step^[n] m').lastInstruction = (Machine.step^[n] m).lastInstruction := by
  induction n with
  | zero => exact absurd hn (Nat.lt_irrefl 0)
  | succ n ih =>
    rw [Function.iterate_succ_apply', Function.iterate_succ_apply']
    have hlast := h.iterate_step n
    cases hrun : (Machine.step^[n] m).isHalted with
    | false => exact (hlast.step_of_running hrun).2
    | true =>
      have hbefore : 0 < m.executed n := by
        rwa [executed_add, executed_of_halted hrun] at hn
      rw [step_of_halted hrun, step_of_halted (hlast.isHalted_eq.trans hrun), ih hbefore]

end SameVisible

variable {κ : Type} [Console κ]

/-- Machines that look the same take the same steps: registers, memory and console stay the same, the
counters grow by the same number, and so does the record of the last instruction from the first
executed step on. So a machine that is reset runs like a new one with its memory and console, whatever
was done to it before. -/
theorem run_of_visible (m : Machine κ) (n : Nat) :
    (∀ m', SameVisible m m' → SameVisible (step^[n] m) (step^[n] m') ∧
      (step^[n] m').cycles - m'.cycles = (step^[n] m).cycles - m.cycles ∧
      (0 < m.executed n → (step^[n] m').lastInstruction = (step^[n] m).lastInstruction)) ∧
    step^[n] m.reset = step^[n] { new m.console with mem := m.mem } := by
  refine ⟨fun m' h => ⟨h.iterate_step n, ?_, h.lastInstruction_eq⟩, rfl⟩
  rw [iterate_step_cycles, iterate_step_cycles, h.executed_eq, UInt64.add_comm,
    UInt64.add_sub_cancel, UInt64.add_comm, UInt64.add_sub_cancel]

/-- Twice `ADD.W (A0)+,(A0)+`, on a machine that still has notes for both slots: A0 moves all the same. -/
theorem run_of_visible_staleNotes :
    let m := holding [0x03, 0xCC, 0x03, 0xCC] { a := #v[0x10, 0x20] }
    let m' : Machine Scripted :=
      { m with
        adjusted := { first := some 0x800, second := some 0x900 }
        cycles := 7
        lastInstruction := some (.bare .hlt)
        lastFault := some ⟨.divisionByZero, some .divs, 0x40⟩ }
    SameVisible m m' ∧ 0 < m.executed 2 ∧ (step^[2] m').regs.a.get 0 = 0x18 ∧
      (step^[2] m').cycles = 9 ∧
      (step^[2] m').lastInstruction = some (.full .add .word { mode := .postIncrement }
        { mode := .postIncrement }) := by
  intro m m'
  have hsame : SameVisible m m' := ⟨rfl, rfl, rfl⟩
  have hn : 0 < m.executed 2 := by decide +kernel
  obtain ⟨hvisible, hcycles, hlast⟩ := (run_of_visible m 2).1 m' hsame
  have hgrown : (step^[2] m).cycles - m.cycles = 2 := by decide +kernel
  refine ⟨hsame, hn, ?_, ?_, (hlast hn).trans (by decide +kernel)⟩
  · rw [hvisible.regs]
    decide +kernel
  · rw [hgrown] at hcycles
    rw [UInt64.sub_eq_iff_eq_add.mp hcycles]
    rfl

end Machine
end Micro68
