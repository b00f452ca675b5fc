/-! Repeating a step until a condition holds, but at most so many times. -/
namespace Micro68

/-- Takes up to `n` steps, and none from a state that satisfies `stop`. -/
def iterate {σ : Type} (stop : σ → Bool) (step : σ → σ) : Nat → σ → σ
  | 0, s => s
  | n + 1, s => if stop s then s else iterate stop step n (step s)

variable {σ τ : Type} {stop : σ → Bool} {step : σ → σ}

@[simp] theorem iterate_zero (s : σ) : iterate stop step 0 s = s := rfl

/-- Loops that stop together keep between them what their steps keep. -/
theorem iterate_invariant {stop' : τ → Bool} {step' : τ → τ} {S : σ → τ → Prop}
    (hstop : ∀ {s t}, S s t → stop s = stop' t) (hstep : ∀ {s t}, S s t → S (step s) (step' t))
    (n : Nat) {s : σ} {t : τ} (h : S s t) :
    S (iterate stop step n s) (iterate stop' step' n t) := by
  induction n generalizing s t with
  | zero => exact h
  | succ n ih =>
    rw [iterate, iterate, hstop h]
    split
    · exact h
    · exact ih (hstep h)

end Micro68
