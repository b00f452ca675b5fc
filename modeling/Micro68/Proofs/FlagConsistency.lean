import Micro68.Proofs.Actions
import Micro68.Proofs.Arithmetic
import Micro68.Proofs.Preservation

/-! Consistent status bits. No result is both zero and negative, at whatever size it is looked at, so
no operation sets both N and Z, and those that set neither leave them as they were. What never set
both from outside finds them never both set. -/
namespace Micro68

/-- N and Z are not both set. -/
def Flags.Consistent (f : Flags) : Prop := ¬(f.negative = true ∧ f.zero = true)

namespace Flags.Consistent

theorem of_finishes {g : Flags → UInt32 × Flags} (hg : Alu.Finishes g) (f : Flags) :
    (g f).2.Consistent := by
  obtain ⟨size, result, overflow, carry, rfl⟩ := hg
  obtain ⟨-, hzero, hnegative, -⟩ := Alu.yields_finish (x := size.trunc result) rfl overflow carry f
  rintro ⟨hn, hz⟩
  rw [hzero, decide_eq_true_eq] at hz
  rw [hnegative, hz] at hn
  simp at hn

theorem closed {κ : Type} : Micro.Closed fun s : Datapath κ => s.regs.flags.Consistent where
  regs := fun h _ hflags => hflags ▸ h
  mem := fun h _ => h
  adjusted := fun h _ => h
  outcome := fun _ _ hg => of_finishes hg _
  clearVC := fun h => h
  halt := fun h => h

end Flags.Consistent

namespace Action

def Consistent : Action → Prop
  | .operation (.setRegisters regs) => regs.flags.Consistent
  | _ => True

end Action

namespace Machine

variable {κ : Type} [Console κ] {m m' : Machine κ}

theorem act_consistent {action : Action} (h : m.regs.flags.Consistent) (ha : action.Consistent)
    (hact : m.act? action = some m') : m'.regs.flags.Consistent := by
  cases act?_effect hact with
  | steps n => exact iterate_step_keeps Flags.Consistent.closed (fun h _ => h) h n
  | memory | halt => exact h
  | registers regs => exact ha
  | reset => simp [reset, Flags.Consistent]

theorem actAll_consistent {actions : List Action} (h : m.regs.flags.Consistent)
    (ha : ∀ action ∈ actions, action.Consistent) (hact : m.actAll? actions = some m') :
    m'.regs.flags.Consistent := by
  induction actions generalizing m with
  | nil =>
    cases hact
    exact h
  | cons action actions ih =>
    rw [actAll?_cons] at hact
    obtain ⟨m₁, hfirst, hrest⟩ := Option.bind_eq_some_iff.mp hact
    exact ih (act_consistent h (ha action List.mem_cons_self) hfirst)
      (fun later hlater => ha later (List.mem_cons_of_mem _ hlater)) hrest

/-- N and Z are never both set. No micro-program sets both, whatever the instruction and the state,
and whether it ends in a fault or not; so nothing that can be done to a machine that is new or has
been reset makes it set both, unless they are set from outside. -/
theorem flags_consistent :
    (∀ (i : Instruction) (s : Datapath κ), s.regs.flags.Consistent →
      (Micro.after i.execute s).regs.flags.Consistent) ∧
    ∀ (start : Machine κ) (actions : List Action) (m : Machine κ),
      (∃ console, start = new console) ∨ (∃ before : Machine κ, start = before.reset) →
      (∀ action ∈ actions, action.Consistent) → start.actAll? actions = some m →
        m.regs.flags.Consistent := by
  refine ⟨fun i s h => execute_keeps Flags.Consistent.closed i (fun _ _ h _ => h) s h,
    fun start actions m hstart ha hact => ?_⟩
  have hclear : start.regs.flags = {} := by
    rcases hstart with ⟨console, rfl⟩ | ⟨before, rfl⟩ <;> rfl
  exact actAll_consistent (by simp [hclear, Flags.Consistent]) ha hact

/-- `NOT.B D0` sets N. `CLR.B $FFFE` then sets Z, before it faults, and so leaves N clear. -/
theorem flags_consistent_fault :
    let start := new ({ replies := [] } : Scripted)
    let first := start.performAll [.loadProgram [0x40, 0x00, 0x38, 0x60, 0xFF, 0xFE], .runLimited 1]
    let second := first.perform (.runLimited 1)
    first.regs.flags.negative = true ∧ second.lastFault.isSome = true ∧
      second.regs.flags.zero = true ∧ second.regs.flags.negative = false := by
  intro start first second
  let actions : List Action := [.operation (.loadProgram [0x40, 0x00, 0x38, 0x60, 0xFF, 0xFE]),
    .operation (.runLimited 1), .operation (.runLimited 1)]
  have hzero : second.regs.flags.zero = true := by decide +kernel
  have hconsistent : second.regs.flags.Consistent :=
    flags_consistent.2 start actions second (.inl ⟨_, rfl⟩) (by simp [actions, Action.Consistent])
      rfl
  refine ⟨by decide +kernel, by decide +kernel, hzero, ?_⟩
  cases hn : second.regs.flags.negative with
  | false => rfl
  | true => exact absurd ⟨hn, hzero⟩ hconsistent

end Machine
end Micro68
