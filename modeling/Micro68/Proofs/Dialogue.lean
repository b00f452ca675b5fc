import Micro68.Proofs.FaultClasses
import Micro68.Proofs.Preservation

/-! The dialogue with the console. A cycle uses its console once at most: an executed INP whose
operand has a mode with a meaning asks for a value, and an executed DSR, or DSP that does not fault,
writes a line. For want of a value a cycle faults exactly if it has asked and got no answer. -/
namespace Micro68

namespace Instruction

def asks (i : Instruction) : Bool :=
  i.opcode = .inp && (i.operand? .first).any fun op => !op.mode.isReserved

/-- The operation writes a line, if it ends with the given fault or none. -/
def speaks (i : Instruction) (fault : Option Fault) : Bool :=
  i.opcode = .dsr || i.opcode = .dsp && fault.isNone

theorem asks_of_place {i : Instruction} {op : Operand} (ho : i.opcode = .inp)
    (hop : i.operand? .first = some op) (size : Size) (a : Vector UInt16 2) :
    i.asks = (op.place size a).isSome := by
  unfold asks Operand.place
  rw [ho, hop]
  cases hm : op.mode <;> simp [hm, Mode.isReserved]

end Instruction

theorem Location.fault?_ne (l : Location) (size : Size) (reason : String) :
    l.fault? size ≠ some (.inputUnavailable reason) := by
  cases l <;> simp [fault?]

/-- What a cycle has done with its console: asked for a value, or written a line, or neither. The two
flags tell which. -/
inductive Dialogue {κ : Type} [Console κ] (c : κ) (r : CycleResult κ) : Bool → Bool → Prop where
  | asked (request : InputRequest) (hc : r.state.console = (Console.readValue c request).2)
      (hf : ∀ reason, r.fault = some (.inputUnavailable reason) ↔
        ∃ e, (Console.readValue c request).1 = .error e ∧ e.message = reason) :
      Dialogue c r true false
  | spoken (line : String) (hc : r.state.console = Console.writeLine c line) (hf : r.fault = none) :
      Dialogue c r false true
  | silent (hc : r.state.console = c) (hf : ∀ reason, r.fault ≠ some (.inputUnavailable reason)) :
      Dialogue c r false false

section Execution

variable {κ : Type} [Console κ] {s : Datapath κ} {i : Instruction} (hrun : s.regs.flags.halt = false)

open Microprogram

include hrun

theorem executePhase_input (hs : s.adjusted = {}) (hi : i.Furnished) (ho : i.opcode = .inp) :
    Dialogue s.console (s.executePhase i) i.asks false := by
  obtain ⟨op, hop⟩ := hi .first (by rw [ho]; decide)
  have hinput : i.execute s = input i s := by rw [Instruction.execute, ho]
  rw [Instruction.asks_of_place ho hop i.size s.regs.a, Datapath.executePhase_run hrun, hinput,
    input_run hs]
  simp only [hop]
  cases hl : op.place i.size s.regs.a with
  | none => exact .silent rfl nofun
  | some l =>
    dsimp only
    -- the console has been asked, whatever becomes of the answer
    refine .asked { size := i.size, target := l } ?_ ?_
    · rcases Console.readValue s.console { size := i.size, target := l } with ⟨e | x, c⟩
      · rfl
      · cases l.fault? i.size <;> simp
    · rcases Console.readValue s.console { size := i.size, target := l } with ⟨e | x, c⟩
      · simp
      · have hne := l.fault?_ne i.size
        cases hf : l.fault? i.size with
        | none => simp
        | some f => simpa [hf] using hne

theorem executePhase_fault (hs : s.adjusted = {}) (hi : i.Furnished) (ho : i.opcode ≠ .inp)
    (reason : String) : (s.executePhase i).fault ≠ some (.inputUnavailable reason) := by
  intro hf
  rw [Datapath.executePhase_run hrun] at hf
  split at hf
  · cases hf
  · rename_i f t he
    obtain rfl : f = .inputUnavailable reason := Option.some.inj hf
    cases execute_cause hs hi he with
    | input request e hinp h => exact ho hinp

theorem executePhase_display (hs : s.adjusted = {}) (hi : i.Furnished) (ho : i.opcode = .dsp) :
    Dialogue s.console (s.executePhase i) false (i.speaks (s.executePhase i).fault) := by
  have hnone := executePhase_fault hrun hs hi (by simp [ho])
  have hdisplay : i.execute s = display i s := by rw [Instruction.execute, ho]
  rw [Datapath.executePhase_run hrun, hdisplay, display_run hs] at hnone ⊢
  cases hl : i.reach .first i.size s.regs.a with
  | ok l =>
    simp only [Instruction.speaks, ho]
    exact .spoken _ rfl rfl
  | error f =>
    simp only [hl] at hnone
    simp only [Instruction.speaks, ho]
    exact .silent (by simp) hnone

theorem executePhase_console (ho : i.opcode.talks = false) :
    (s.executePhase i).state.console = s.console := by
  have hclosed : Micro.Closed fun t : Datapath κ => t.console = s.console :=
    ⟨fun h _ _ => h, fun h _ => h, fun h _ => h, fun h _ _ => h, fun h => h, fun h => h⟩
  have hkeeps := execute_keeps hclosed i (by simp [ho])
  rw [Datapath.executePhase_run hrun]
  cases he : i.execute s with
  | ok _ t => exact hkeeps.of_ok rfl he
  | error f t => exact hkeeps.of_error rfl he

theorem executePhase_dialogue (hs : s.adjusted = {}) (hi : i.Furnished) :
    Dialogue s.console (s.executePhase i) i.asks (i.speaks (s.executePhase i).fault) := by
  by_cases htalks : i.opcode.talks = true
  · obtain ho | ho | ho : i.opcode = .inp ∨ i.opcode = .dsp ∨ i.opcode = .dsr := by
      cases ho : i.opcode <;> simp [ho, Opcode.talks] at htalks ⊢
    · have hspeaks (fault : Option Fault) : i.speaks fault = false := by
        simp [Instruction.speaks, ho]
      rw [hspeaks]
      exact executePhase_input hrun hs hi ho
    · rw [show i.asks = false by simp [Instruction.asks, ho]]
      exact executePhase_display hrun hs hi ho
    · have hstatus : i.execute s = displayStatus s := by rw [Instruction.execute, ho]
      rw [Datapath.executePhase_run hrun, hstatus]
      simp only [Instruction.asks, Instruction.speaks, ho]
      exact .spoken _ rfl rfl
  · have hinp : i.opcode ≠ .inp := fun ho => htalks (by rw [ho]; rfl)
    have hdsp : i.opcode ≠ .dsp := fun ho => htalks (by rw [ho]; rfl)
    have hdsr : i.opcode ≠ .dsr := fun ho => htalks (by rw [ho]; rfl)
    simp only [Instruction.asks, Instruction.speaks, hinp, hdsp, hdsr]
    exact .silent (executePhase_console hrun (by simpa using htalks))
      (executePhase_fault hrun hs hi hinp)

end Execution

namespace Datapath

variable {κ : Type} [Console κ]

/-- The instruction that the next cycle executes; none if it stops in an early phase. -/
def executing? (s : Datapath κ) : Option Instruction :=
  match s.opcodePhase with
  | .error _ => none
  | .ok i => match Micro.fetchOperands i (s.begin.jump (s.regs.pc + 2)) with
    | .error _ _ => none
    | .ok j _ => some j

def asks (s : Datapath κ) : Bool := s.executing?.any Instruction.asks

def speaks (s : Datapath κ) : Bool := s.executing?.any (·.speaks s.cycle.fault)

variable {s : Datapath κ} {i : Instruction} (hrun : s.regs.flags.halt = false)

include hrun

theorem cycle_of_executing (h : s.executing? = some i) :
    i.Furnished ∧ ∃ pc, s.cycle = (s.begin.jump pc).executePhase i := by
  cases hj : s.opcodePhase with
  | error f => simp [executing?, hj] at h
  | ok j =>
    cases hfetch : Micro.fetchOperands j (s.begin.jump (s.regs.pc + 2)) with
    | error f t => simp [executing?, hj, hfetch] at h
    | ok k t =>
      obtain rfl : k = i := by simpa [executing?, hj, hfetch] using h
      obtain ⟨x, -, hdecode⟩ := opcodePhase_word hj
      obtain ⟨hform, rfl⟩ := Micro.fetchOperands_ok hfetch
      have hcycle : s.cycle = (s.begin.jump (s.regs.pc + 2)).operandPhase j := by rw [cycle_run hrun, hj]
      have hkept : (s.begin.jump (s.regs.pc + 2)).regs.flags.halt = false := hrun
      rw [operandPhase, hkept, if_neg Bool.false_ne_true, hfetch] at hcycle
      exact ⟨hform.furnished (Instruction.furnished_of_decode hdecode), _, hcycle⟩

theorem cycle_of_not_executing (h : s.executing? = none) :
    Dialogue s.console s.cycle false false := by
  cases hi : s.opcodePhase with
  | error f =>
    have hcycle : s.cycle = ⟨s.begin.jump (s.regs.pc + 2), none, some f⟩ := by rw [cycle_run hrun, hi]
    rw [hcycle]
    refine .silent rfl fun reason hreason => ?_
    obtain rfl : f = .inputUnavailable reason := Option.some.inj hreason
    unfold opcodePhase at hi
    split at hi
    · cases hi
    · cases (Instruction.decode_error_cause hi).1
  | ok i =>
    have hcycle : s.cycle = (s.begin.jump (s.regs.pc + 2)).operandPhase i := by rw [cycle_run hrun, hi]
    cases hfetch : Micro.fetchOperands i (s.begin.jump (s.regs.pc + 2)) with
    | ok j t => simp [executing?, hi, hfetch] at h
    | error f t =>
      obtain ⟨pc, rfl⟩ := Micro.fetchOperands_error hfetch
      rw [operandPhase_run (s := s.begin.jump (s.regs.pc + 2)) hrun, hfetch] at hcycle
      rw [hcycle]
      refine .silent rfl fun reason hreason => ?_
      obtain rfl : f = .inputUnavailable reason := Option.some.inj hreason
      rcases Micro.fetchOperands_cause hfetch with ⟨-, -, hf⟩ | ⟨a, -, hf⟩ <;> cases hf

theorem cycle_dialogue : Dialogue s.console s.cycle s.asks s.speaks := by
  unfold asks speaks
  cases h : s.executing? with
  | none => exact cycle_of_not_executing hrun h
  | some i =>
    obtain ⟨hi, pc, hcycle⟩ := cycle_of_executing hrun h
    have hdialogue := executePhase_dialogue (s := s.begin.jump pc) hrun rfl hi
    rw [← hcycle] at hdialogue
    exact hdialogue

end Datapath

end Micro68
