import Micro68.Proofs.Completion
import Micro68.Proofs.Interruption
import Micro68.Proofs.Runs

/-! What halts a machine. Of all operations only HLT sets H, and a fault does; no operation clears H
or changes how much of the memory counts as loaded, and the console is told of nothing but faults,
lines and values asked for. -/
namespace Micro68

namespace Datapath

variable {κ : Type}

@[simp] theorem poke_imageLen (s : Datapath κ) (size : Size) (x : UInt32) (l : Location) :
    (s.poke size x l).mem.imageLen = s.mem.imageLen := by
  cases l with
  | memory a => exact Memory.imageLen_put ..
  | _ => rfl

theorem cycle_fault_frame [Console κ] {s : Datapath κ} {f : Fault}
    (hrun : s.regs.flags.halt = false) (hf : s.cycle.fault = some f) :
    s.cycle.state.mem = s.mem ∧ (s.cycle.state.console = s.console ∨
      ∃ request, s.cycle.state.console = (Console.readValue s.console request).2) := by
  rcases cycle_fault hrun hf with ⟨-, -, pc, hs⟩ | ⟨i, pc, -, -, hs⟩ | ⟨i, j, pc, -, -, -, he⟩
  · exact ⟨by rw [hs]; rfl, .inl (by rw [hs]; rfl)⟩
  · exact ⟨by rw [hs]; rfl, .inl (by rw [hs]; rfl)⟩
  · have hint := execute_error rfl he
    exact ⟨hint.mem, hint.console.imp_right And.right⟩

end Datapath

/-- What an operation that ends without a fault does beside its result. -/
structure Completed {κ : Type} [Console κ] (s : Datapath κ) (i : Instruction) (t : Datapath κ) :
    Prop where
  imageLen : t.mem.imageLen = s.mem.imageLen
  halt : t.regs.flags.halt = (s.regs.flags.halt || i.opcode = .hlt)
  console : t.console = s.console ∨
    (∃ request, t.console = (Console.readValue s.console request).2) ∨
    ∃ line, t.console = Console.writeLine s.console line

namespace Completed

variable {κ : Type} [Console κ] {s t u : Datapath κ} {i : Instruction}

theorem of_frame (hn : i.opcode ≠ .hlt) (hm : t.mem.imageLen = s.mem.imageLen)
    (hh : t.regs.flags.halt = s.regs.flags.halt) (hc : t.console = s.console) : Completed s i t :=
  ⟨hm, by simp [hh, hn], .inl hc⟩

theorem of_result (hn : i.opcode ≠ .hlt) {r : UInt32 × Flags} {x : UInt32} {flags : Flags}
    (hr : r = (x, flags)) (hh : r.2.halt = s.regs.flags.halt) (hm : u.mem = s.mem)
    (hc : u.console = s.console) : Completed s i (u.setFlags flags) := by
  subst hr
  exact of_frame hn (congrArg Memory.imageLen hm) hh hc

theorem poke (h : Completed s i t) (size : Size) (x : UInt32) (l : Location) :
    Completed s i (t.poke size x l) :=
  ⟨by simp [h.imageLen], by simp [h.halt], by simpa using h.console⟩

end Completed

open Microprogram in
theorem execute_completed {κ : Type} [Console κ] {s t : Datapath κ} {i : Instruction}
    (hs : s.adjusted = {}) (h : i.execute s = .ok () t) : Completed s i t := by
  unfold Instruction.execute at h
  cases ho : i.opcode <;> simp only [ho] at h
  case add | sub | and | or | eor =>
    obtain ⟨l₁, l, x, flags, -, -, hr, rfl⟩ := combine_ok hs h
    exact (Completed.of_result (by simp [ho]) hr rfl (by simp [Datapath.settleBoth])
      (by simp [Datapath.settleBoth])).poke ..
  case addq | subq | lsl | lsr | rol | ror =>
    obtain ⟨l, x, flags, -, hr, rfl⟩ := combineQuick_ok hs h
    exact (Completed.of_result (by simp [ho]) hr rfl (by simp) (by simp)).poke ..
  case neg | not =>
    obtain ⟨l, x, flags, -, hr, rfl⟩ := change_ok hs h
    exact (Completed.of_result (by simp [ho]) hr rfl (by simp) (by simp)).poke ..
  case clr =>
    obtain ⟨l, x, flags, -, hr, rfl⟩ := clear_ok hs h
    exact (Completed.of_result (by simp [ho]) hr rfl (by simp) (by simp)).poke ..
  case moveq =>
    obtain ⟨l, x, flags, -, hr, rfl⟩ := moveQuick_ok hs h
    exact (Completed.of_result (by simp [ho]) hr rfl (by simp) (by simp)).poke ..
  case muls =>
    obtain ⟨l₁, l, x, flags, -, -, -, -, hr, rfl⟩ := multiply_ok hs h
    exact (Completed.of_result (by simp [ho]) hr rfl (by simp [Datapath.settleBoth])
      (by simp [Datapath.settleBoth])).poke ..
  case divs =>
    obtain ⟨l₁, l, q, x, flags, -, -, -, -, -, hr, rfl⟩ := divide_ok hs h
    exact (Completed.of_result (by simp [ho]) hr rfl (by simp [Datapath.settleBoth])
      (by simp [Datapath.settleBoth])).poke ..
  case cmp =>
    obtain ⟨l₁, l₂, x, flags, -, -, hr, rfl⟩ := compare_ok hs h
    exact .of_result (by simp [ho]) hr rfl (by simp [Datapath.settleBoth])
      (by simp [Datapath.settleBoth])
  case tst =>
    obtain ⟨l, x, flags, -, hr, rfl⟩ := test_ok hs h
    exact .of_result (by simp [ho]) hr rfl (by simp) (by simp)
  case move =>
    obtain ⟨l₁, l, -, -, rfl⟩ := move_ok hs h
    exact (Completed.of_frame (by simp [ho]) (by simp [Datapath.settleBoth])
      (by simp [Datapath.settleBoth]) (by simp [Datapath.settleBoth])).poke ..
  case exg =>
    obtain ⟨src, dst, -, -, -, rfl⟩ := exchange_ok h
    exact .of_frame (by simp [ho]) (by simp) rfl (by simp)
  case movea =>
    obtain ⟨src, dst, -, -, -, -, rfl⟩ := moveAddress_ok h
    exact .of_frame (by simp [ho]) rfl rfl rfl
  case bra | bvs | beq | bcs | bge | ble =>
    obtain ⟨target, -, -, -, rfl⟩ := branch_ok h
    split <;> exact .of_frame (by simp [ho]) rfl rfl rfl
  case inp =>
    obtain ⟨op, l, x, console, y, flags, -, -, -, hread, hr, rfl⟩ := input_ok hs h
    obtain rfl : (Console.readValue s.console _).2 = console := congrArg Prod.snd hread
    obtain rfl : _ = flags := congrArg Prod.snd hr
    exact ⟨by simp, by simp [ho]; rfl, .inr (.inl ⟨_, by simp; rfl⟩)⟩
  case dsp =>
    obtain ⟨l, -, rfl⟩ := display_ok hs h
    exact ⟨by simp, by simp [ho], .inr (.inr ⟨_, rfl⟩)⟩
  case dsr =>
    cases h
    exact ⟨rfl, by simp [ho], .inr (.inr ⟨_, rfl⟩)⟩
  case hlt =>
    cases h
    exact ⟨rfl, by simp [ho, Registers.setHalt, Registers.withFlags, Flags.setHalt], .inl rfl⟩

namespace Scripted

theorem readValue_faults (c : Scripted) (request : InputRequest) :
    (Console.readValue c request).2.faults = c.faults := by
  change (c.readValue request).2.faults = c.faults
  unfold readValue
  split <;> rfl

end Scripted

namespace Machine

section AnyConsole

variable {κ : Type} [Console κ] {m : Machine κ}

/-- The next step runs the micro-program of an operation, on the instruction that it records, from
behind the words of the instruction to the end. -/
def Executes (m : Machine κ) (o : Opcode) : Prop :=
  ∃ i pc, i.opcode = o ∧ m.step.lastInstruction = some i ∧
    i.execute (m.toDatapath.begin.jump pc) = .ok () m.step.toDatapath

theorem step_completed (hrun : m.isHalted = false) (hok : m.toDatapath.cycle.fault = none) :
    ∃ i pc, m.step.lastInstruction = some i ∧
      i.execute (m.toDatapath.begin.jump pc) = .ok () m.step.toDatapath ∧
      Completed (m.toDatapath.begin.jump pc) i m.step.toDatapath := by
  obtain ⟨-, i, pc, -, -, hi, he⟩ := step_executed hrun hok
  exact ⟨i, pc, hi, he, execute_completed rfl he⟩

/-- A step halts the machine if it executes HLT or faults, and otherwise does not. -/
theorem step_isHalted (hrun : m.isHalted = false) :
    m.step.isHalted = true ↔ m.Executes .hlt ∨ m.toDatapath.cycle.fault ≠ none := by
  cases hf : m.toDatapath.cycle.fault with
  | some f => simp [step_of_fault hrun hf, isHalted, Datapath.stop, Registers.setHalt,
      Registers.withFlags, Flags.setHalt]
  | none =>
    obtain ⟨i, pc, hi, he, hc⟩ := step_completed hrun hf
    have hhalt : m.step.isHalted = decide (i.opcode = .hlt) := by
      have hclear : m.regs.flags.halt = false := hrun
      refine hc.halt.trans ?_
      rw [show (m.toDatapath.begin.jump pc).regs.flags.halt = m.regs.flags.halt from rfl, hclear]
      simp
    rw [hhalt, decide_eq_true_eq]
    constructor
    · intro ho
      exact .inl ⟨i, pc, ho, hi, he⟩
    · rintro (⟨j, -, ho, hj, -⟩ | hne)
      · rw [hi] at hj
        cases hj
        exact ho
      · exact absurd rfl hne

@[simp] theorem step_imageLen (m : Machine κ) : m.step.mem.imageLen = m.mem.imageLen := by
  cases hrun : m.isHalted with
  | true => rw [step_of_halted hrun]
  | false =>
    cases hf : m.toDatapath.cycle.fault with
    | none =>
      obtain ⟨i, pc, -, -, hc⟩ := step_completed hrun hf
      exact hc.imageLen
    | some f =>
      rw [step_mem hrun, (Datapath.cycle_fault_frame hrun hf).1]

end AnyConsole

variable {m : Machine Scripted} {f : Fault}

theorem step_faults_of_ok (hrun : m.isHalted = false) (hok : m.toDatapath.cycle.fault = none) :
    m.step.console.faults = m.console.faults := by
  obtain ⟨i, pc, -, -, hc⟩ := step_completed hrun hok
  rcases hc.console with h | ⟨request, h⟩ | ⟨line, h⟩
  · rw [h]; rfl
  · rw [h, Scripted.readValue_faults]; rfl
  · rw [h]; rfl

theorem step_faults_of_fault (hrun : m.isHalted = false) (hf : m.toDatapath.cycle.fault = some f) :
    ∃ d, m.step.lastFault = some d ∧ m.step.console.faults = m.console.faults.push d := by
  have hcycle : m.toDatapath.cycle.state.console.faults = m.console.faults := by
    rcases (Datapath.cycle_fault_frame hrun hf).2 with h | ⟨request, h⟩
    · rw [h]
    · rw [h, Scripted.readValue_faults]
  rw [step_of_fault hrun hf]
  exact ⟨_, rfl, congrArg (Array.push · _) hcycle⟩

theorem step_isHalted_iff (hrun : m.isHalted = false) : m.step.isHalted = true ↔
    m.Executes .hlt ∨ ∃ d, m.step.console.faults = m.console.faults.push d := by
  rw [step_isHalted hrun]
  refine or_congr Iff.rfl ?_
  cases hf : m.toDatapath.cycle.fault with
  | none => simp [step_faults_of_ok hrun hf]
  | some f =>
    obtain ⟨d, -, hd⟩ := step_faults_of_fault hrun hf
    exact iff_of_true (by simp) ⟨d, hd⟩

end Machine
end Micro68
