import Micro68.Proofs.Phases
import Micro68.Snapshot

/-! Consoles that a machine cannot tell apart. Consoles of two kinds may be related so that they give
the same answers and stay related in every use. Machines that differ in such consoles alone then run
alike: their registers, memories, counters and faults are the same after every step. -/
namespace Micro68

variable {κ κ' α β : Type} {R : κ → κ' → Prop}

/-- A relation between consoles that every use keeps. Related consoles give the same values. -/
structure Console.Simulation [Console κ] [Console κ'] (R : κ → κ' → Prop) : Prop where
  answer : ∀ {c c'}, R c c' → ∀ request,
    (Console.readValue c request).1 = (Console.readValue c' request).1
  readValue : ∀ {c c'}, R c c' → ∀ request,
    R (Console.readValue c request).2 (Console.readValue c' request).2
  writeLine : ∀ {c c'}, R c c' → ∀ line, R (Console.writeLine c line) (Console.writeLine c' line)
  reportFault : ∀ {c c'}, R c c' → ∀ d, R (Console.reportFault c d) (Console.reportFault c' d)

structure Datapath.Matches (R : κ → κ' → Prop) (s : Datapath κ) (t : Datapath κ') : Prop where
  regs : s.regs = t.regs
  mem : s.mem = t.mem
  adjusted : s.adjusted = t.adjusted
  console : R s.console t.console

namespace Micro

/-- Computations on matching parts end alike, and leave matching parts. -/
inductive SameOutcome (R : κ → κ' → Prop) :
    EStateM.Result Fault (Datapath κ) α → EStateM.Result Fault (Datapath κ') α → Prop where
  | ok {s : Datapath κ} {t : Datapath κ'} (a : α) (h : s.Matches R t) :
      SameOutcome R (.ok a s) (.ok a t)
  | error {s : Datapath κ} {t : Datapath κ'} (f : Fault) (h : s.Matches R t) :
      SameOutcome R (.error f s) (.error f t)

/-- Two computations do the same, each with its kind of console. -/
def Related (R : κ → κ' → Prop) (x : Micro κ α) (y : Micro κ' α) : Prop :=
  ∀ s t, s.Matches R t → SameOutcome R (x s) (y t)

namespace Related

theorem pure (a : α) : Related R (pure a) (pure a) := fun _ _ h => .ok a h

theorem throw (f : Fault) : Related R (throw f : Micro κ α) (throw f) := fun _ _ h => .error f h

theorem run_cases {x : Micro κ α} {y : Micro κ' α} (hx : Related R x y) {s : Datapath κ}
    {t : Datapath κ'} (h : s.Matches R t) :
    (∃ a u v, x s = .ok a u ∧ y t = .ok a v ∧ u.Matches R v) ∨
      ∃ f u v, x s = .error f u ∧ y t = .error f v ∧ u.Matches R v := by
  have houtcome := hx s t h
  generalize x s = r, y t = r' at houtcome
  cases houtcome with
  | ok a huv => exact .inl ⟨a, _, _, rfl, rfl, huv⟩
  | error f huv => exact .inr ⟨f, _, _, rfl, rfl, huv⟩

theorem bind {x : Micro κ α} {y : Micro κ' α} {g : α → Micro κ β} {h : α → Micro κ' β}
    (hx : Related R x y) (hg : ∀ a, Related R (g a) (h a)) : Related R (x >>= g) (y >>= h) := by
  intro s t hst
  rw [bind_run, bind_run]
  obtain ⟨a, u, v, hu, hv, huv⟩ | ⟨f, u, v, hu, hv, huv⟩ := hx.run_cases hst <;> rw [hu, hv]
  · exact hg a u v huv
  · exact .error f huv

/-- A computation that looks at the parts may look at everything but the console. -/
theorem get_bind {g : Datapath κ → Micro κ α} {h : Datapath κ' → Micro κ' α}
    (hg : ∀ s t, s.Matches R t → Related R (g s) (h t)) : Related R (get >>= g) (get >>= h) :=
  fun s t hst => hg s t hst s t hst

theorem modifyRegs (f : Registers → Registers) :
    Related R (modifyRegs f : Micro κ Unit) (modifyRegs f) :=
  fun _ _ h => .ok () ⟨congrArg f h.regs, h.mem, h.adjusted, h.console⟩

theorem compute (f : Flags → UInt32 × Flags) :
    Related R (compute f : Micro κ UInt32) (compute f) := by
  intro s t h
  simp only [Micro.compute, h.regs]
  exact .ok _ ⟨rfl, h.mem, h.adjusted, h.console⟩

theorem discard {x : Micro κ α} {y : Micro κ' α} (hx : Related R x y) :
    Related R (discard x) (discard y) := by
  intro s t hst
  rw [discard_run, discard_run]
  obtain ⟨a, u, v, hu, hv, huv⟩ | ⟨f, u, v, hu, hv, huv⟩ := hx.run_cases hst <;> rw [hu, hv]
  · exact .ok () huv
  · exact .error f huv

theorem readMemory (size : Size) (a : UInt16) :
    Related R (readMemory size a : Micro κ UInt32) (readMemory size a) := by
  intro s t h
  simp only [Micro.readMemory, h.mem]
  cases t.mem.read size a with
  | ok x => exact .ok x h
  | error e => exact .error _ h

theorem writeMemory (size : Size) (a : UInt16) (x : UInt32) :
    Related R (writeMemory size a x : Micro κ Unit) (writeMemory size a x) := by
  intro s t h
  simp only [Micro.writeMemory, h.mem]
  cases Memory.store size a x t.mem with
  | ok _ mem => exact .ok () ⟨h.regs, rfl, h.adjusted, h.console⟩
  | error e mem => exact .error _ ⟨h.regs, rfl, h.adjusted, h.console⟩

theorem locateAdjusted (slot : Slot) (n : Fin 2) (adjust : UInt16 → UInt16 × UInt16) :
    Related R (locateAdjusted slot n adjust : Micro κ Location) (locateAdjusted slot n adjust) := by
  intro s t h
  simp only [Micro.locateAdjusted, h.adjusted, h.regs]
  cases t.adjusted.get slot with
  | some a => exact .ok _ h
  | none => exact .ok _ ⟨rfl, h.mem, rfl, h.console⟩

theorem locate (slot : Slot) (op : Operand) (size : Size) :
    Related R (locate slot op size : Micro κ Location) (locate slot op size) := by
  unfold Micro.locate
  cases op.mode with
  | dataRegister | addressRegister | absolute => exact .pure _
  | indirect => exact .get_bind fun s t h => h.regs ▸ .pure _
  | postIncrement | preDecrement => exact locateAdjusted slot op.index _
  | reserved code => exact .throw _

theorem load (size : Size) (l : Location) : Related R (load size l : Micro κ UInt32) (load size l) := by
  cases l with
  | data n | address n => exact .get_bind fun s t h => h.regs ▸ .pure _
  | memory a => exact .readMemory size a

theorem save (size : Size) (x : UInt32) (l : Location) :
    Related R (save size x l : Micro κ Unit) (save size x l) := by
  unfold Micro.save
  cases l with
  | data n | address n => exact modifyRegs _
  | memory a => exact writeMemory size a x

theorem fetchWord : Related R (fetchWord : Micro κ UInt16) fetchWord :=
  .get_bind fun _ _ h => h.regs ▸
    (modifyRegs _).bind fun _ => (readMemory .word _).bind fun _ => .pure _

theorem fetchAddresses (slots : List Slot) (i : Instruction) :
    Related R (slots.foldlM fetchAddress i : Micro κ Instruction) (slots.foldlM fetchAddress i) := by
  induction slots generalizing i with
  | nil => exact .pure i
  | cons slot slots ih => exact (fetchWord.bind fun _ => .pure _).bind ih

theorem fetchOperands (i : Instruction) :
    Related R (fetchOperands i : Micro κ Instruction) (fetchOperands i) := by
  unfold Micro.fetchOperands
  split
  · exact .throw _
  · exact fetchAddresses i.absoluteSlots i

end Related

end Micro

namespace Microprogram

open Micro (Related)

variable (i : Instruction) (slot : Slot) (size : Size)

theorem operand_related : Related R (operand i slot : Micro κ Operand) (operand i slot) := by
  unfold operand
  split
  · exact .pure _
  · exact .throw _

theorem fill_related : Related R (fill i slot size : Micro κ UInt32) (fill i slot size) :=
  (operand_related i slot).bind fun op => (Related.locate slot op size).bind fun l => .load size l

theorem store_related (x : UInt32) :
    Related R (store i slot size x : Micro κ Unit) (store i slot size x) :=
  (operand_related i slot).bind fun op => (Related.locate slot op size).bind fun l => .save size x l

theorem requireSize_related : Related R (requireSize i size : Micro κ Unit) (requireSize i size) := by
  unfold requireSize
  split
  · exact .pure _
  · exact .throw _

theorem requireMode_related (op : Operand) (allowed : Mode → Bool) :
    Related R (requireMode op allowed : Micro κ Unit) (requireMode op allowed) := by
  unfold requireMode
  split
  · exact .pure _
  · exact .throw _

theorem computeStore_related (f : Flags → UInt32 × Flags) :
    Related R (Micro.compute f >>= fun x => (store i slot size x : Micro κ Unit))
      (Micro.compute f >>= fun x => store i slot size x) :=
  (Related.compute f).bind fun x => store_related i slot size x

theorem combine_related (op : AluOp) : Related R (combine op i : Micro κ Unit) (combine op i) :=
  (fill_related i .first i.size).bind fun _ => (fill_related i .second i.size).bind fun _ =>
    computeStore_related i .second i.size _

theorem combineQuick_related (op : AluOp) :
    Related R (combineQuick op i : Micro κ Unit) (combineQuick op i) :=
  (fill_related i .second i.size).bind fun _ => computeStore_related i .second i.size _

theorem change_related (op : Size → UInt32 → Flags → UInt32 × Flags) :
    Related R (change op i : Micro κ Unit) (change op i) :=
  (fill_related i .first i.size).bind fun _ => computeStore_related i .first i.size _

theorem compare_related (op : AluOp) : Related R (compare op i : Micro κ Unit) (compare op i) :=
  (fill_related i .first i.size).bind fun _ => (fill_related i .second i.size).bind fun _ =>
    (Related.compute _).discard

theorem test_related : Related R (test i : Micro κ Unit) (test i) :=
  (fill_related i .first i.size).bind fun _ => (Related.compute _).discard

theorem clear_related : Related R (clear i : Micro κ Unit) (clear i) :=
  computeStore_related i .first i.size _

theorem multiply_related : Related R (multiply i : Micro κ Unit) (multiply i) :=
  (requireSize_related i .word).bind fun _ => (fill_related i .first .word).bind fun _ =>
    (fill_related i .second .word).bind fun _ => computeStore_related i .second .long _

theorem divide_related : Related R (divide i : Micro κ Unit) (divide i) := by
  refine (requireSize_related i .long).bind fun _ => (fill_related i .first .word).bind fun x => ?_
  dsimp only
  split
  · -- division by zero ends the operation here, and what would follow does not matter
    exact fun s t h => .error _ h
  · exact (fill_related i .second .long).bind fun _ => computeStore_related i .second .long _

theorem move_related : Related R (move i : Micro κ Unit) (move i) :=
  (fill_related i .first i.size).bind fun x => store_related i .second i.size x

theorem moveQuick_related : Related R (moveQuick i : Micro κ Unit) (moveQuick i) :=
  computeStore_related i .second i.size _

theorem exchange_related : Related R (exchange i : Micro κ Unit) (exchange i) :=
  (operand_related i .first).bind fun src => (requireMode_related src _).bind fun _ =>
    (operand_related i .second).bind fun dst => (requireMode_related dst _).bind fun _ =>
    (fill_related i .first i.size).bind fun x => (fill_related i .second i.size).bind fun y =>
    (store_related i .second i.size x).bind fun _ => (store_related i .first i.size y).bind fun _ =>
    .modifyRegs _

theorem moveAddress_related : Related R (moveAddress i : Micro κ Unit) (moveAddress i) :=
  (operand_related i .first).bind fun src => (requireMode_related src _).bind fun _ =>
    (operand_related i .second).bind fun dst => (requireMode_related dst _).bind fun _ =>
    (requireSize_related i .word).bind fun _ => store_related i .second .word _

theorem branch_related : Related R (branch i : Micro κ Unit) (branch i) := by
  refine (operand_related i .first).bind fun target => (requireMode_related target _).bind fun _ =>
    (requireSize_related i .word).bind fun _ => .get_bind fun s t h => ?_
  rw [h.regs]
  split
  · exact .modifyRegs _
  · exact .pure _

theorem preview_related (op : Operand) :
    Related R (preview op size : Micro κ Location) (preview op size) := by
  unfold preview
  cases op.mode with
  | dataRegister | addressRegister | absolute => exact .pure _
  | indirect | postIncrement | preDecrement => exact .get_bind fun s t h => h.regs ▸ .pure _
  | reserved code => exact .throw _

theorem review_related (op : Operand) :
    Related R (review slot op : Micro κ Location) (review slot op) := by
  refine .get_bind fun s t h => ?_
  rw [h.regs, h.adjusted]
  cases op.mode <;> exact .pure _

end Microprogram

namespace Console.Simulation

open Micro (Related)
open Microprogram

variable [Console κ] [Console κ'] (hR : Console.Simulation R)

include hR

theorem readValue_related (request : InputRequest) :
    Related R (Micro.readValue request : Micro κ Int32) (Micro.readValue request) := by
  intro s t h
  have hanswer := hR.answer h.console request
  have hnext := hR.readValue h.console request
  unfold Micro.readValue
  generalize Console.readValue s.console request = r at hanswer hnext
  generalize Console.readValue t.console request = r' at hanswer hnext
  obtain ⟨answer, c⟩ := r
  obtain ⟨answer', c'⟩ := r'
  obtain rfl : answer = answer' := hanswer
  cases answer with
  | ok x => exact .ok x ⟨h.regs, h.mem, h.adjusted, hnext⟩
  | error e => exact .error _ ⟨h.regs, h.mem, h.adjusted, hnext⟩

theorem writeLine_related (line : String) :
    Related R (Micro.writeLine line : Micro κ Unit) (Micro.writeLine line) :=
  fun _ _ h => .ok () ⟨h.regs, h.mem, h.adjusted, hR.writeLine h.console line⟩

theorem input_related (i : Instruction) : Related R (input i : Micro κ Unit) (input i) :=
  (operand_related i .first).bind fun op => (preview_related i.size op).bind fun _ =>
    (hR.readValue_related _).bind fun _ => computeStore_related i .first i.size _

theorem display_related (i : Instruction) : Related R (display i : Micro κ Unit) (display i) :=
  (operand_related i .first).bind fun op => (fill_related i .first i.size).bind fun _ =>
    (review_related .first op).bind fun _ => hR.writeLine_related _

theorem displayStatus_related : Related R (displayStatus : Micro κ Unit) displayStatus :=
  .get_bind fun _ _ h => h.regs ▸ hR.writeLine_related _

/-- No operation can tell related consoles apart. -/
theorem execute_related (i : Instruction) : Related R (i.execute : Micro κ Unit) i.execute := by
  unfold Instruction.execute
  cases i.opcode
  case add | sub | and | or | eor => exact combine_related i _
  case addq | subq | lsl | lsr | rol | ror => exact combineQuick_related i _
  case neg | not => exact change_related i _
  case muls => exact multiply_related i
  case divs => exact divide_related i
  case clr => exact clear_related i
  case cmp => exact compare_related i _
  case tst => exact test_related i
  case bra | bvs | beq | bcs | bge | ble => exact branch_related i
  case move => exact move_related i
  case moveq => exact moveQuick_related i
  case exg => exact exchange_related i
  case movea => exact moveAddress_related i
  case inp => exact hR.input_related i
  case dsp => exact hR.display_related i
  case dsr => exact hR.displayStatus_related
  case hlt => exact .modifyRegs _

end Console.Simulation

structure CycleResult.Matches (R : κ → κ' → Prop) (r : CycleResult κ) (r' : CycleResult κ') :
    Prop where
  state : r.state.Matches R r'.state
  instruction : r.instruction = r'.instruction
  fault : r.fault = r'.fault

namespace Datapath.Matches

variable [Console κ] [Console κ'] {s : Datapath κ} {t : Datapath κ'}

theorem executePhase (h : s.Matches R t) (hR : Console.Simulation R) (i : Instruction) :
    (s.executePhase i).Matches R (t.executePhase i) := by
  unfold Datapath.executePhase
  rw [h.regs]
  split
  · exact ⟨h, rfl, rfl⟩
  obtain ⟨_, u, v, hu, hv, huv⟩ | ⟨f, u, v, hu, hv, huv⟩ := (hR.execute_related i).run_cases h <;>
    simp only [hu, hv] <;> exact ⟨huv, rfl, rfl⟩

theorem operandPhase (h : s.Matches R t) (hR : Console.Simulation R) (i : Instruction) :
    (s.operandPhase i).Matches R (t.operandPhase i) := by
  unfold Datapath.operandPhase
  rw [h.regs]
  split
  · exact ⟨h, rfl, rfl⟩
  rcases (Micro.Related.fetchOperands i).run_cases h with
    ⟨j, u, v, hu, hv, huv⟩ | ⟨f, u, v, hu, hv, huv⟩
  · simp only [hu, hv]
    exact huv.executePhase hR j
  · simp only [hu, hv]
    exact ⟨huv, rfl, rfl⟩

theorem cycle (h : s.Matches R t) (hR : Console.Simulation R) : s.cycle.Matches R t.cycle := by
  unfold Datapath.cycle
  have hbegin : ({ s with adjusted := {} } : Datapath κ).Matches R { t with adjusted := {} } :=
    ⟨h.regs, h.mem, rfl, h.console⟩
  rcases Micro.Related.fetchWord.run_cases hbegin with
    ⟨w, u, v, hu, hv, huv⟩ | ⟨f, u, v, hu, hv, huv⟩
  · simp only [hu, hv]
    unfold decodePhase
    rw [huv.regs]
    split
    · exact ⟨huv, rfl, rfl⟩
    cases Instruction.decode w with
    | error f => exact ⟨huv, rfl, rfl⟩
    | ok i => exact huv.operandPhase hR i
  · simp only [hu, hv]
    exact ⟨huv, rfl, rfl⟩

theorem stop (h : s.Matches R t) (hR : Console.Simulation R) (d : Diagnostic) :
    (s.stop d).Matches R (t.stop d) :=
  ⟨congrArg Registers.setHalt h.regs, h.mem, h.adjusted, hR.reportFault h.console d⟩

end Datapath.Matches

structure Machine.Matches (R : κ → κ' → Prop) (m : Machine κ) (m' : Machine κ') : Prop where
  datapath : m.toDatapath.Matches R m'.toDatapath
  cycles : m.cycles = m'.cycles
  lastInstruction : m.lastInstruction = m'.lastInstruction
  lastFault : m.lastFault = m'.lastFault

namespace Machine.Matches

variable {m : Machine κ} {m' : Machine κ'}

theorem isHalted (h : m.Matches R m') : m.isHalted = m'.isHalted :=
  congrArg (fun r => r.flags.halt) h.datapath.regs

theorem snapshot (h : m.Matches R m') : m.snapshot = m'.snapshot := by
  simp [Machine.snapshot, state, h.isHalted, h.cycles, h.datapath.regs, h.lastFault]

variable [Console κ] [Console κ']

theorem step (h : m.Matches R m') (hR : Console.Simulation R) : m.step.Matches R m'.step := by
  have hcycle := h.datapath.cycle hR
  unfold Machine.step afterCycle
  rw [h.isHalted, hcycle.fault, hcycle.instruction, h.datapath.regs, h.cycles, h.lastFault]
  split
  · exact h
  · cases m'.toDatapath.cycle.fault with
    | none => exact ⟨hcycle.state, rfl, rfl, rfl⟩
    | some f => exact ⟨hcycle.state.stop hR _, rfl, rfl, rfl⟩

theorem runCycles (h : m.Matches R m') (hR : Console.Simulation R) (n : Nat) :
    (Machine.runCycles n m).Matches R (Machine.runCycles n m') :=
  iterate_invariant (fun h => h.isHalted) (fun h => h.step hR) n h

end Machine.Matches
end Micro68
