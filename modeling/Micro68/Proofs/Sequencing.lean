import Micro68.Microprogram

/-! How computations on the datapath run: one equation for each primitive, so that a micro-program
unfolds into a case distinction on the first step that fails. -/
namespace Micro68
namespace Micro

variable {κ α β : Type}

@[simp] theorem pure_run (a : α) (s : Datapath κ) : (pure a : Micro κ α) s = .ok a s := rfl

@[simp] theorem throw_run (f : Fault) (s : Datapath κ) :
    (throw f : Micro κ α) s = .error f s := rfl

@[simp] theorem get_run (s : Datapath κ) : (get : Micro κ (Datapath κ)) s = .ok s s := rfl

theorem modifyRegs_run (g : Registers → Registers) (s : Datapath κ) :
    modifyRegs g s = .ok () { s with regs := g s.regs } := rfl

theorem writeLine_run [Console κ] (line : String) (s : Datapath κ) :
    writeLine line s = .ok () { s with console := Console.writeLine s.console line } := rfl

theorem bind_run (x : Micro κ α) (g : α → Micro κ β) (s : Datapath κ) :
    (x >>= g) s = match x s with
      | .ok a t => g a t
      | .error f t => .error f t := by
  cases h : x s <;> simp [bind, EStateM.bind, h]

theorem bind_of_ok {x : Micro κ α} {g : α → Micro κ β} {s t : Datapath κ} {a : α}
    (h : x s = .ok a t) : (x >>= g) s = g a t := by
  rw [bind_run, h]

theorem bind_eq_ok {x : Micro κ α} {g : α → Micro κ β} {s t : Datapath κ} {b : β} :
    (x >>= g) s = .ok b t ↔ ∃ a u, x s = .ok a u ∧ g a u = .ok b t := by
  rw [bind_run]
  cases x s <;> simp [and_assoc]

theorem bind_eq_error {x : Micro κ α} {g : α → Micro κ β} {s t : Datapath κ} {f : Fault} :
    (x >>= g) s = .error f t ↔
      x s = .error f t ∨ ∃ a u, x s = .ok a u ∧ g a u = .error f t := by
  rw [bind_run]
  cases x s <;> simp [and_assoc]

theorem discard_run (x : Micro κ α) (s : Datapath κ) :
    (discard x : Micro κ Unit) s = match x s with
      | .ok _ t => .ok () t
      | .error f t => .error f t := by
  cases h : x s <;>
    simp [discard, Functor.discard, Functor.mapConst, EStateM.map, h]

end Micro
end Micro68
