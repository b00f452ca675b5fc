import Micro68.Proofs.Runs

/-! Preservation. A condition on the parts is kept by a computation if it holds of whatever the
computation leaves, by a result or by a fault. What every single change of registers, memory and status
bits keeps, every micro-program keeps, from any state and for any operands; for those that talk to the
console it must allow any console too. So does every step of a machine then. -/
namespace Micro68

def Opcode.talks : Opcode → Bool
  | inp | dsp | dsr => true
  | _ => false

/-- An outcome with all four status bits, which a result and its V and C give. -/
def Alu.Finishes (g : Flags → UInt32 × Flags) : Prop :=
  ∃ size result overflow carry, g = finish size result overflow carry

namespace Micro

variable {κ α β : Type} {I : Datapath κ → Prop}

def after (x : Micro κ α) (s : Datapath κ) : Datapath κ :=
  match x s with
  | .ok _ t => t
  | .error _ t => t

/-- Where the condition is true before a computation it is true after it. -/
def Keeps (I : Datapath κ → Prop) (x : Micro κ α) : Prop := ∀ s, I s → I (after x s)

/-- Conditions that every single change keeps. They may speak of the status bits, but then of nothing
that the arithmetic unit, the clearing of V and C or the setting of H could make false. -/
structure Closed (I : Datapath κ → Prop) : Prop where
  regs : ∀ {s}, I s → ∀ regs : Registers, regs.flags = s.regs.flags → I { s with regs }
  mem : ∀ {s}, I s → ∀ mem, I { s with mem }
  adjusted : ∀ {s}, I s → ∀ adjusted, I { s with adjusted }
  outcome : ∀ {s}, I s → ∀ {g}, Alu.Finishes g →
    I { s with regs := s.regs.withFlags (g s.regs.flags).2 }
  clearVC : ∀ {s}, I s → I { s with regs := s.regs.withFlags (s.regs.flags.setVC false false) }
  halt : ∀ {s}, I s → I { s with regs := s.regs.setHalt }

namespace Keeps

theorem of_ok {x : Micro κ α} (hx : Keeps I x) {s t : Datapath κ} {a : α} (h : I s)
    (hr : x s = .ok a t) : I t := by
  have hs := hx s h
  rwa [after, hr] at hs

theorem of_error {x : Micro κ α} (hx : Keeps I x) {s t : Datapath κ} {f : Fault} (h : I s)
    (hr : x s = .error f t) : I t := by
  have hs := hx s h
  rwa [after, hr] at hs

theorem pure (a : α) : Keeps I (pure a) := fun _ h => h

theorem throw (f : Fault) : Keeps I (throw f : Micro κ α) := fun _ h => h

theorem bind {x : Micro κ α} {g : α → Micro κ β} (hx : Keeps I x) (hg : ∀ a, Keeps I (g a)) :
    Keeps I (x >>= g) := by
  intro s h
  have hs := hx s h
  unfold after at hs ⊢
  rw [bind_run]
  cases hr : x s with
  | ok a t =>
    rw [hr] at hs
    exact hg a t hs
  | error f t =>
    rw [hr] at hs
    exact hs

theorem get_bind {g : Datapath κ → Micro κ α} (hg : ∀ s, Keeps I (g s)) : Keeps I (get >>= g) :=
  fun s h => hg s s h

theorem discard {x : Micro κ α} (hx : Keeps I x) : Keeps I (discard x) := by
  intro s h
  have hs := hx s h
  unfold after at hs ⊢
  rw [discard_run]
  cases hr : x s <;> rw [hr] at hs <;> exact hs

theorem readMemory (size : Size) (a : UInt16) : Keeps I (readMemory size a : Micro κ UInt32) := by
  intro s h
  unfold after Micro.readMemory
  cases s.mem.read size a <;> exact h

variable (hI : Closed I)

include hI

/-- Registers may change in everything but the status bits. -/
theorem modifyRegs {f : Registers → Registers} (hf : ∀ r, (f r).flags = r.flags) :
    Keeps I (modifyRegs f : Micro κ Unit) :=
  fun _ h => hI.regs h _ (hf _)

theorem compute {g : Flags → UInt32 × Flags} (hg : Alu.Finishes g) :
    Keeps I (compute g : Micro κ UInt32) :=
  fun _ h => hI.outcome h hg

theorem writeMemory (size : Size) (a : UInt16) (x : UInt32) :
    Keeps I (writeMemory size a x : Micro κ Unit) := by
  intro s h
  unfold after Micro.writeMemory
  cases Memory.store size a x s.mem with
  | ok _ mem => exact hI.mem h mem
  | error e mem => exact hI.mem h mem

theorem locateAdjusted (slot : Slot) (n : Fin 2) (adjust : UInt16 → UInt16 × UInt16) :
    Keeps I (locateAdjusted slot n adjust : Micro κ Location) := by
  intro s h
  unfold after Micro.locateAdjusted
  cases s.adjusted.get slot with
  | some a => exact h
  | none => exact hI.adjusted (hI.regs h (s.regs.setA n _) rfl) _

theorem locate (slot : Slot) (op : Operand) (size : Size) :
    Keeps I (locate slot op size : Micro κ Location) := by
  unfold Micro.locate
  cases op.mode with
  | dataRegister | addressRegister | absolute => exact .pure _
  | indirect => exact .get_bind fun _ => .pure _
  | postIncrement | preDecrement => exact locateAdjusted hI slot op.index _
  | reserved code => exact .throw _

omit hI in
theorem load (size : Size) (l : Location) : Keeps I (load size l : Micro κ UInt32) := by
  cases l with
  | data n | address n => exact .get_bind fun _ => .pure _
  | memory a => exact .readMemory size a

theorem save (size : Size) (x : UInt32) (l : Location) : Keeps I (save size x l : Micro κ Unit) := by
  unfold Micro.save
  cases l with
  | data n | address n => exact modifyRegs hI fun _ => rfl
  | memory a => exact writeMemory hI size a x

end Keeps
end Micro

namespace Microprogram

open Micro

variable {κ : Type} {I : Datapath κ → Prop} (i : Instruction) (slot : Slot) (size : Size)

theorem operand_keeps : Keeps I (operand i slot) := by
  unfold operand
  split
  · exact .pure _
  · exact .throw _

theorem requireSize_keeps : Keeps I (requireSize i size) := by
  unfold requireSize
  split
  · exact .pure _
  · exact .throw _

theorem requireMode_keeps (op : Operand) (allowed : Mode → Bool) :
    Keeps I (requireMode op allowed) := by
  unfold requireMode
  split
  · exact .pure _
  · exact .throw _

theorem preview_keeps (op : Operand) : Keeps I (preview op size) := by
  unfold preview
  cases op.mode with
  | dataRegister | addressRegister | absolute => exact .pure _
  | indirect | postIncrement | preDecrement => exact .get_bind fun _ => .pure _
  | reserved code => exact .throw _

theorem review_keeps (op : Operand) : Keeps I (review slot op) := by
  refine .get_bind fun s => ?_
  cases op.mode <;> exact .pure _

section Closed

variable (hI : Closed I)

include hI

theorem fill_keeps : Keeps I (fill i slot size) :=
  (operand_keeps i slot).bind fun op => (Keeps.locate hI slot op size).bind fun l => .load size l

theorem store_keeps (x : UInt32) : Keeps I (store i slot size x) :=
  (operand_keeps i slot).bind fun op => (Keeps.locate hI slot op size).bind fun l =>
    .save hI size x l

theorem computeStore_keeps {g : Flags → UInt32 × Flags} (hg : Alu.Finishes g) :
    Keeps I (compute g >>= fun x => store i slot size x) :=
  (Keeps.compute hI hg).bind fun x => store_keeps i slot size hI x

theorem combine_keeps {op : AluOp} (hop : ∀ size x y, Alu.Finishes (op size x y)) :
    Keeps I (combine op i) :=
  (fill_keeps i .first i.size hI).bind fun _ => (fill_keeps i .second i.size hI).bind fun _ =>
    computeStore_keeps i .second i.size hI (hop ..)

theorem combineQuick_keeps {op : AluOp} (hop : ∀ size x y, Alu.Finishes (op size x y)) :
    Keeps I (combineQuick op i) :=
  (fill_keeps i .second i.size hI).bind fun _ => computeStore_keeps i .second i.size hI (hop ..)

theorem change_keeps {op : Size → UInt32 → Flags → UInt32 × Flags}
    (hop : ∀ size x, Alu.Finishes (op size x)) : Keeps I (change op i) :=
  (fill_keeps i .first i.size hI).bind fun _ => computeStore_keeps i .first i.size hI (hop ..)

theorem compare_keeps {op : AluOp} (hop : ∀ size x y, Alu.Finishes (op size x y)) :
    Keeps I (compare op i) :=
  (fill_keeps i .first i.size hI).bind fun _ => (fill_keeps i .second i.size hI).bind fun _ =>
    (Keeps.compute hI (hop ..)).discard

theorem test_keeps : Keeps I (test i) :=
  (fill_keeps i .first i.size hI).bind fun _ => (Keeps.compute hI ⟨_, _, _, _, rfl⟩).discard

theorem clear_keeps : Keeps I (clear i) :=
  computeStore_keeps i .first i.size hI ⟨_, _, _, _, rfl⟩

theorem multiply_keeps : Keeps I (multiply i) :=
  (requireSize_keeps i .word).bind fun _ => (fill_keeps i .first .word hI).bind fun _ =>
    (fill_keeps i .second .word hI).bind fun _ =>
    computeStore_keeps i .second .long hI ⟨_, _, _, _, rfl⟩

theorem divide_keeps : Keeps I (divide i) := by
  refine (requireSize_keeps i .long).bind fun _ => (fill_keeps i .first .word hI).bind fun x => ?_
  dsimp only
  split
  · -- division by zero ends the operation here, and what would follow does not matter
    exact fun s h => h
  · exact (fill_keeps i .second .long hI).bind fun _ =>
      computeStore_keeps i .second .long hI ⟨_, _, _, _, rfl⟩

theorem move_keeps : Keeps I (move i) :=
  (fill_keeps i .first i.size hI).bind fun x => store_keeps i .second i.size hI x

theorem moveQuick_keeps : Keeps I (moveQuick i) :=
  computeStore_keeps i .second i.size hI ⟨_, _, _, _, rfl⟩

theorem exchange_keeps : Keeps I (exchange i) :=
  (operand_keeps i .first).bind fun src => (requireMode_keeps src _).bind fun _ =>
    (operand_keeps i .second).bind fun dst => (requireMode_keeps dst _).bind fun _ =>
    (fill_keeps i .first i.size hI).bind fun x => (fill_keeps i .second i.size hI).bind fun y =>
    (store_keeps i .second i.size hI x).bind fun _ => (store_keeps i .first i.size hI y).bind fun _ =>
    fun _ h => hI.clearVC h

theorem moveAddress_keeps : Keeps I (moveAddress i) :=
  (operand_keeps i .first).bind fun src => (requireMode_keeps src _).bind fun _ =>
    (operand_keeps i .second).bind fun dst => (requireMode_keeps dst _).bind fun _ =>
    (requireSize_keeps i .word).bind fun _ => store_keeps i .second .word hI _

theorem branch_keeps : Keeps I (branch i) := by
  refine (operand_keeps i .first).bind fun target => (requireMode_keeps target _).bind fun _ =>
    (requireSize_keeps i .word).bind fun _ => .get_bind fun s => ?_
  split
  · exact .modifyRegs hI fun _ => rfl
  · exact .pure _

section Dialogue

variable [Console κ] (hc : ∀ {s}, I s → ∀ console, I { s with console })

include hc

omit hI in
theorem readValue_keeps (request : InputRequest) : Keeps I (readValue request) := by
  intro s h
  unfold after readValue
  rcases Console.readValue s.console request with ⟨_ | _, console⟩ <;> exact hc h console

omit hI in
theorem writeLine_keeps (line : String) : Keeps I (writeLine line) := fun _ h => hc h _

theorem input_keeps : Keeps I (input i) :=
  (operand_keeps i .first).bind fun op => (preview_keeps i.size op).bind fun _ =>
    (readValue_keeps hc _).bind fun _ => computeStore_keeps i .first i.size hI ⟨_, _, _, _, rfl⟩

theorem display_keeps : Keeps I (display i) :=
  (operand_keeps i .first).bind fun op => (fill_keeps i .first i.size hI).bind fun _ =>
    (review_keeps .first op).bind fun _ => writeLine_keeps hc _

omit hI in
theorem displayStatus_keeps : Keeps I displayStatus := .get_bind fun _ => writeLine_keeps hc _

end Dialogue
end Closed
end Microprogram

open Micro Microprogram in
/-- Every operation keeps what each single change keeps. -/
theorem execute_keeps {κ : Type} [Console κ] {I : Datapath κ → Prop} (hI : Closed I)
    (i : Instruction)
    (hc : i.opcode.talks = true → ∀ {s}, I s → ∀ console, I { s with console }) :
    Keeps I i.execute := by
  unfold Instruction.execute
  cases ho : i.opcode <;> simp only [ho, Opcode.talks] at hc
  case add | sub | and | or | eor => exact combine_keeps i hI fun _ _ _ => ⟨_, _, _, _, rfl⟩
  case addq | subq | lsl | lsr | rol | ror =>
    exact combineQuick_keeps i hI fun _ _ _ => ⟨_, _, _, _, rfl⟩
  case neg | not => exact change_keeps i hI fun _ _ => ⟨_, _, _, _, rfl⟩
  case muls => exact multiply_keeps i hI
  case divs => exact divide_keeps i hI
  case clr => exact clear_keeps i hI
  case cmp => exact compare_keeps i hI fun _ _ _ => ⟨_, _, _, _, rfl⟩
  case tst => exact test_keeps i hI
  case bra | bvs | beq | bcs | bge | ble => exact branch_keeps i hI
  case move => exact move_keeps i hI
  case moveq => exact moveQuick_keeps i hI
  case exg => exact exchange_keeps i hI
  case movea => exact moveAddress_keeps i hI
  case inp => exact input_keeps i hI (hc trivial)
  case dsp => exact display_keeps i hI (hc trivial)
  case dsr => exact displayStatus_keeps (hc trivial)
  case hlt => exact fun _ h => hI.halt h

section Steps

variable {κ : Type} [Console κ] {I : Datapath κ → Prop} (hI : Micro.Closed I)
  (hc : ∀ {s}, I s → ∀ console, I { s with console })

include hI

omit [Console κ] in
theorem Datapath.jump_keeps {s : Datapath κ} (h : I s) (pc : UInt16) : I (s.begin.jump pc) :=
  hI.regs (hI.adjusted h {}) _ rfl

include hc

theorem Datapath.cycle_keeps {s : Datapath κ} (hrun : s.regs.flags.halt = false) (h : I s) :
    I s.cycle.state := by
  have hexecute (i : Instruction) : Micro.Keeps I i.execute := execute_keeps hI i fun _ => hc
  cases hf : s.cycle.fault with
  | none =>
    obtain ⟨i, j, t, -, -, -, rfl, -, he⟩ := cycle_ok hrun hf
    exact (hexecute j).of_ok (jump_keeps hI h _) he
  | some f =>
    obtain ⟨-, -, pc, hs⟩ | ⟨i, pc, -, -, hs⟩ | ⟨i, j, pc, -, -, -, he⟩ := cycle_fault hrun hf
    · exact hs ▸ jump_keeps hI h pc
    · exact hs ▸ jump_keeps hI h pc
    · exact (hexecute j).of_error (jump_keeps hI h pc) he

theorem Machine.step_keeps {m : Machine κ} (h : I m.toDatapath) : I m.step.toDatapath := by
  cases hrun : m.isHalted with
  | true => rwa [step_of_halted hrun]
  | false =>
    have hcycle := Datapath.cycle_keeps hI hc hrun h
    cases hf : m.toDatapath.cycle.fault with
    | none => rwa [step_of_ok hrun hf]
    | some f =>
      rw [step_of_fault hrun hf]
      exact hI.halt (hc hcycle (Console.reportFault _ _))

theorem Machine.iterate_step_keeps {m : Machine κ} (h : I m.toDatapath) (n : Nat) :
    I (Machine.step^[n] m).toDatapath :=
  Function.Iterate.rec (fun m : Machine κ => I m.toDatapath) h (fun _ => step_keeps hI hc) n

end Steps

end Micro68
