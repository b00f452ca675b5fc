import Micro68.Console.Scripted
import Micro68.Proofs.Phases

/-! A step of a machine, in terms of its cycle. -/
namespace Micro68

namespace Machine

variable {κ : Type} [Console κ] {m : Machine κ} {f : Fault}

theorem step_of_ok (hrun : m.isHalted = false) (hok : m.toDatapath.cycle.fault = none) :
    m.step = { toDatapath := m.toDatapath.cycle.state
               cycles := m.cycles + 1
               lastInstruction := m.toDatapath.cycle.instruction
               lastFault := m.lastFault } := by
  simp [step, hrun, afterCycle, hok]

theorem step_executed (hrun : m.isHalted = false) (hok : m.toDatapath.cycle.fault = none) :
    ∃ i j pc, m.toDatapath.opcodePhase = .ok i ∧ i.SameForm j ∧ m.step.lastInstruction = some j ∧
      j.execute (m.toDatapath.begin.jump pc) = .ok () m.step.toDatapath := by
  obtain ⟨i, j, t, hp, hform, hi, rfl, -, he⟩ := Datapath.cycle_ok hrun hok
  rw [step_of_ok hrun hok]
  exact ⟨i, j, _, hp, hform, hi, he⟩

theorem step_of_fault (hrun : m.isHalted = false) (hf : m.toDatapath.cycle.fault = some f) :
    m.step = { toDatapath := m.toDatapath.cycle.state.stop
                 ⟨f, m.toDatapath.cycle.instruction.map (·.opcode), m.regs.pc⟩
               cycles := m.cycles + 1
               lastInstruction := m.toDatapath.cycle.instruction
               lastFault := some ⟨f, m.toDatapath.cycle.instruction.map (·.opcode), m.regs.pc⟩ } := by
  simp [step, hrun, afterCycle, hf]

theorem step_lastInstruction (hrun : m.isHalted = false) :
    m.step.lastInstruction = m.toDatapath.cycle.instruction := by
  cases hf : m.toDatapath.cycle.fault with
  | none => rw [step_of_ok hrun hf]
  | some f => rw [step_of_fault hrun hf]

theorem step_mem (hrun : m.isHalted = false) : m.step.mem = m.toDatapath.cycle.state.mem := by
  cases hf : m.toDatapath.cycle.fault with
  | none => rw [step_of_ok hrun hf]
  | some f =>
    rw [step_of_fault hrun hf]
    rfl

theorem step_pc (hrun : m.isHalted = false) :
    m.step.regs.pc = m.toDatapath.cycle.state.regs.pc := by
  cases hf : m.toDatapath.cycle.fault with
  | none => rw [step_of_ok hrun hf]
  | some f =>
    rw [step_of_fault hrun hf]
    rfl

theorem step_lastFault (hrun : m.isHalted = false) (hnone : m.lastFault = none) :
    m.step.lastFault.map (·.fault) = m.toDatapath.cycle.fault := by
  cases hf : m.toDatapath.cycle.fault with
  | none =>
    rw [step_of_ok hrun hf, hnone]
    rfl
  | some f =>
    rw [step_of_fault hrun hf]
    rfl

/-- A machine that begins with some bytes at the start of its memory, and some registers. -/
def holding (bytes : List UInt8) (regs : Registers) : Machine Scripted :=
  { new { replies := [] } with mem := Memory.empty.put 0 bytes, regs }

end Machine
end Micro68
