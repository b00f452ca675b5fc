import Micro68.Proofs.Consoles
import Micro68.Proofs.Histories

/-! Actions. From outside a machine can be operated, and it can be run to the end, which gives no
machine if there is no end. Every action either takes steps or leaves the console alone, and machines
that differ in their consoles alone take the same steps. -/
namespace Micro68

/-- What can be done to a machine, runs to the end included. -/
inductive Action where
  | operation (op : Operation)
  | run
  deriving DecidableEq

/-- The memory after an operation that can change nothing else; none for the other operations. -/
def Operation.onMemory (mem : Memory) : Operation → Option Memory
  | .memory op => some (mem.after op)
  | .loadProgram image => some (mem.afterImage image)
  | .loadImage text => some (match Image.parse text with
    | .ok image => mem.afterImage image
    | .error _ => mem)
  | _ => none

namespace Machine

variable {κ : Type} [Console κ]

/-- The machine after an action; none if it is a run that has no end. -/
def act? (m : Machine κ) : Action → Option (Machine κ)
  | .operation op => some (m.perform op)
  | .run => m.run?.map (·.2)

def actAll? (m : Machine κ) (actions : List Action) : Option (Machine κ) := actions.foldlM act? m

/-- The machines that the next `n` steps find running. -/
def running : Nat → Machine κ → List (Machine κ)
  | 0, _ => []
  | n + 1, m => if m.isHalted then [] else m :: m.step.running n

def found (m : Machine κ) : Action → List (Machine κ)
  | .operation .step => m.running 1
  | .operation (.runLimited limit) => m.running (min limit.toNat m.room)
  | .run => m.running m.room
  | .operation _ => []

def foundAll (m : Machine κ) : List Action → List (Machine κ)
  | [] => []
  | action :: actions => m.found action ++ ((m.act? action).map (foundAll · actions)).getD []

variable {m m' : Machine κ} {action : Action}

theorem foundAll_cons (h : m.act? action = some m') (actions : List Action) :
    m.foundAll (action :: actions) = m.found action ++ m'.foundAll actions := by
  rw [foundAll, h]
  rfl

theorem isHalted_of_mem_running {n : Nat} (h : m' ∈ m.running n) : m'.isHalted = false := by
  induction n generalizing m with
  | zero => cases h
  | succ n ih =>
    rw [running] at h
    split at h
    · cases h
    · rename_i hrun
      rcases List.mem_cons.mp h with rfl | hlater
      · simpa using hrun
      · exact ih hlater

theorem isHalted_of_mem_found (h : m' ∈ m.found action) : m'.isHalted = false := by
  unfold found at h
  split at h
  · exact isHalted_of_mem_running h
  · exact isHalted_of_mem_running h
  · exact isHalted_of_mem_running h
  · cases h

theorem isHalted_of_mem_foundAll {actions : List Action} (h : m' ∈ m.foundAll actions) :
    m'.isHalted = false := by
  induction actions generalizing m with
  | nil => cases h
  | cons action actions ih =>
    rcases List.mem_append.mp h with h | h
    · exact isHalted_of_mem_found h
    · cases hnext : m.act? action with
      | none =>
        rw [hnext] at h
        cases h
      | some next =>
        rw [hnext] at h
        exact ih h

theorem actAll?_cons (m : Machine κ) (action : Action) (actions : List Action) :
    m.actAll? (action :: actions) = (m.act? action).bind (actAll? · actions) := by
  rw [actAll?, List.foldlM_cons]
  rfl

theorem perform_onMemory {op : Operation} {mem : Memory} (h : op.onMemory m.mem = some mem) :
    m.perform op = { m with mem } := by
  cases op <;> cases h
  case memory op => rfl
  case loadProgram image => exact m.stateAfter_loadInPlace image
  case loadImage text =>
    rw [perform]
    cases Image.parse text with
    | ok image => exact m.stateAfter_loadInPlace image
    | error e => rfl

theorem found_onMemory {op : Operation} {mem : Memory} (h : op.onMemory m.mem = some mem) :
    m.found (.operation op) = [] := by
  cases op <;> cases h <;> rfl

theorem perform_runLimited (m : Machine κ) (limit : UInt64) :
    m.perform (.runLimited limit) = step^[min limit.toNat m.room] m :=
  congrArg Prod.snd (runLimited_eq limit m)

theorem act?_run (m : Machine κ) :
    m.act? .run = if (step^[m.room] m).isHalted then some (step^[m.room] m) else none := by
  rw [act?, run?_eq]
  split <;> rfl

/-- What an action comes to: some steps, a change of memory or registers, or a reset. -/
inductive Effect (m : Machine κ) : Action → Machine κ → Prop where
  | steps {action : Action} (n : Nat) (h : m.found action = m.running n) :
      Effect m action (step^[n] m)
  | memory {op : Operation} (mem : Memory) (h : op.onMemory m.mem = some mem) :
      Effect m (.operation op) { m with mem }
  | registers (regs : Registers) : Effect m (.operation (.setRegisters regs))
      { m with regs := regs.withFlags { regs.flags with halt := m.isHalted } }
  | halt : Effect m (.operation .requestHalt) m.requestHalt
  | reset : Effect m (.operation .reset) m.reset

theorem act?_effect (h : m.act? action = some m') : m.Effect action m' := by
  cases action with
  | run =>
    rw [act?_run] at h
    split at h <;> cases h
    exact .steps m.room rfl
  | operation op =>
    cases h
    cases op with
    | memory | loadProgram | loadImage =>
      rw [perform_onMemory (by rfl)]
      exact .memory _ rfl
    | setRegisters regs => exact .registers regs
    | step => exact .steps 1 rfl
    | runLimited limit => exact perform_runLimited m limit ▸ .steps _ rfl
    | requestHalt => exact .halt
    | reset => exact .reset

namespace Matches

variable {κ' : Type} [Console κ'] {R : κ → κ' → Prop} {p p' : Machine κ'}

omit [Console κ] [Console κ'] in
/-- Machines that match may be matched by other relations of their consoles. -/
theorem of_console {S : κ → κ' → Prop} (h : m.Matches R p) (hS : S m.console p.console) :
    m.Matches S p :=
  ⟨⟨h.datapath.regs, h.datapath.mem, h.datapath.adjusted, hS⟩, h.cycles, h.lastInstruction,
    h.lastFault⟩

theorem iterate_step (h : m.Matches R p) (hR : Console.Simulation R) (n : Nat) :
    (Machine.step^[n] m).Matches R (Machine.step^[n] p) := by
  rw [← runCycles_eq, ← runCycles_eq]
  exact h.runCycles hR n

/-- What the same action comes to on two machines: neither has an end, or both take the same number
of steps, or neither uses its console. -/
inductive Together (R : κ → κ' → Prop) (m : Machine κ) (p : Machine κ') (action : Action) :
    Option (Machine κ) → Option (Machine κ') → Prop where
  | endless : Together R m p action none none
  | steps (n : Nat) (h : m.found action = m.running n) :
      Together R m p action (some (Machine.step^[n] m)) (some (Machine.step^[n] p))
  | outside {m' : Machine κ} {p' : Machine κ'} (hfound : m.found action = [])
      (hm : m'.console = m.console) (hp : p'.console = p.console) (h : m'.Matches R p') :
      Together R m p action (some m') (some p')

theorem act (h : m.Matches R p) (hR : Console.Simulation R) (action : Action) :
    Together R m p action (m.act? action) (p.act? action) := by
  have hroom : p.room = m.room := by rw [room, room, h.cycles]
  cases action with
  | run =>
    rw [act?_run, act?_run, hroom, ← (h.iterate_step hR _).isHalted]
    split
    · exact .steps m.room rfl
    · exact .endless
  | operation op =>
    have hmemory {mem : Memory} (hmem : op.onMemory m.mem = some mem) :
        Together R m p (.operation op) (some (m.perform op)) (some (p.perform op)) := by
      rw [perform_onMemory hmem, perform_onMemory (h.datapath.mem ▸ hmem)]
      exact .outside (found_onMemory hmem) rfl rfl
        ⟨⟨h.datapath.regs, rfl, h.datapath.adjusted, h.datapath.console⟩, h.cycles,
          h.lastInstruction, h.lastFault⟩
    change Together R m p _ (some _) (some _)
    cases op with
    | memory | loadProgram | loadImage => exact hmemory rfl
    | setRegisters regs =>
      refine .outside rfl rfl rfl ⟨⟨?_, h.datapath.mem, h.datapath.adjusted, h.datapath.console⟩,
        h.cycles, h.lastInstruction, h.lastFault⟩
      exact congrArg (fun halt => regs.withFlags { regs.flags with halt }) h.isHalted
    | step => exact .steps 1 rfl
    | runLimited limit =>
      rw [perform_runLimited, perform_runLimited, hroom]
      exact .steps _ rfl
    | requestHalt =>
      exact .outside rfl rfl rfl ⟨⟨congrArg Registers.setHalt h.datapath.regs, h.datapath.mem,
        h.datapath.adjusted, h.datapath.console⟩, h.cycles, h.lastInstruction, h.lastFault⟩
    | reset =>
      exact .outside rfl rfl rfl ⟨⟨rfl, h.datapath.mem, rfl, h.datapath.console⟩, rfl, rfl, rfl⟩

end Matches
end Machine
end Micro68
