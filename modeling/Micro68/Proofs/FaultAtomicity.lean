import Mathlib.Algebra.Group.Nat.Defs
import Micro68.Proofs.Interruption
import Micro68.Proofs.Steps

/-! Fault atomicity. -/
namespace Micro68

/-- What a step from `m` to `m'` that ends in the fault `f` does. -/
structure Machine.FaultAtomic {κ : Type} [Console κ] (m m' : Machine κ) (f : Fault) : Prop where
  /-- Every cell of memory stays, and so does the length of the image. -/
  mem : m'.mem = m.mem
  data : m'.regs.d = m.regs.d
  halted : m'.isHalted = true
  cycles : m'.cycles.toNat = m.cycles.toNat + 1
  /-- Apart from the report of the fault nothing is written, and only INP may have asked for a
  value, once. -/
  report : ∃ d, m'.lastFault = some d ∧ d.fault = f ∧ d.pc = m.regs.pc ∧
    (d.opcode = none ↔ m.toDatapath.opcodePhase = .error f) ∧
    (∀ i, m.toDatapath.opcodePhase = .ok i → d.opcode = some i.opcode) ∧
    ∃ console, m'.console = Console.reportFault console d ∧
      (console = m.console ∨
        d.opcode = some .inp ∧ ∃ request, console = (Console.readValue m.console request).2)
  /-- N, Z, V and C stay, unless the operation sets them before a store. -/
  flags : (∀ i, m.toDatapath.opcodePhase = .ok i → i.opcode.flagsFirst = false) →
    m'.regs.flags = m.regs.flags.setHalt
  /-- Address registers move for the operands looked for before the fault, which are a first part of
  those that the operation looks for; the notes tell which of them moved a register. -/
  pointers : match m.toDatapath.opcodePhase with
    | .error _ => m'.regs.a = m.regs.a
    | .ok i => ∃ done, done <+: i.accesses ∧
        (∀ slot, (m'.adjusted.get slot).isSome = true ↔
          slot ∈ done.map Prod.fst ∧ i.adjusts slot = true) ∧
        ∀ r : Fin 2, m'.regs.a.get r = m.regs.a.get r + i.totalShift done r

namespace Machine

variable {κ : Type} [Console κ] {m : Machine κ} {f : Fault}

theorem flags_of_fault (hrun : m.isHalted = false) (hf : m.toDatapath.cycle.fault = some f)
    (hflags : ∀ i, m.toDatapath.opcodePhase = .ok i → i.opcode.flagsFirst = false) :
    m.toDatapath.cycle.state.regs.flags = m.regs.flags := by
  rcases Datapath.cycle_fault hrun hf with ⟨-, -, pc, hs⟩ | ⟨i, pc, -, -, hs⟩ |
    ⟨i, j, pc, hp, hform, -, he⟩
  · rw [hs]; rfl
  · rw [hs]; rfl
  · have hj : j.opcode.flagsFirst = false := by
      rw [hform.opcode]
      exact hflags i hp
    exact (execute_error (by rfl) he).flags hj

/-- A faulting step is atomic. -/
theorem step_faultAtomic (hrun : m.isHalted = false) (hcount : m.cycles.toNat < 2 ^ 64 - 1)
    (hf : m.toDatapath.cycle.fault = some f) : FaultAtomic m m.step f := by
  rw [step_of_fault hrun hf]
  have hcycles : (m.cycles + 1).toNat = m.cycles.toNat + 1 := by
    rw [UInt64.toNat_add, UInt64.toNat_one]
    omega
  have hflags := fun h => congrArg Flags.setHalt (flags_of_fault hrun hf h)
  rcases Datapath.cycle_fault hrun hf with ⟨hp, hi, pc, hs⟩ | ⟨i, pc, hp, hi, hs⟩ |
    ⟨i, j, pc, hp, hform, hi, he⟩
  · refine ⟨by rw [hs]; rfl, by rw [hs]; rfl, rfl, hcycles, ?_, hflags, ?_⟩
    · refine ⟨_, rfl, rfl, rfl, by simp [hp, hi], by simp [hp], m.console, ?_, .inl rfl⟩
      simp [Datapath.stop, hs]
    · simp [hp, hs, Datapath.stop, Registers.setHalt, Registers.withFlags]
  · refine ⟨by rw [hs]; rfl, by rw [hs]; rfl, rfl, hcycles, ?_, hflags, ?_⟩
    · refine ⟨_, rfl, rfl, rfl, by simp [hp, hi], by simp [hp, hi], m.console, ?_, .inl rfl⟩
      simp [Datapath.stop, hs]
    · simp only [hp]
      refine ⟨[], List.nil_prefix, fun slot => ?_, fun r => ?_⟩
      · simp [hs, Datapath.stop]
      · simp [hs, Datapath.stop, Registers.setHalt, Registers.withFlags, Instruction.totalShift]
  · have hint := execute_error (by rfl) he
    refine ⟨hint.mem, hint.data, rfl, hcycles, ?_, hflags, ?_⟩
    · refine ⟨_, rfl, rfl, rfl, by simp [hp, hi], by simp [hp, hi, hform.opcode],
        m.toDatapath.cycle.state.console, rfl, ?_⟩
      simpa [hi] using hint.console
    · simp only [hp]
      obtain ⟨done, hdone, hnotes, hmoved⟩ := hint.pointers
      refine ⟨done, hform.accesses ▸ hdone, fun slot => ?_, fun r => ?_⟩
      · rw [← hform.adjusts]
        exact hnotes slot
      · rw [← hform.totalShift]
        exact hmoved r

/-- A machine that has nothing but an opcode word, and three bytes of memory from where its address
registers point. -/
def nearEnd (hi lo : UInt8) : Machine Scripted :=
  let m := new { replies := ["0"] }
  { m with
    mem := (m.mem.setCell 0 hi).setCell 1 lo
    regs := { m.regs with a := Vector.replicate 2 0x0FFE } }

/-- `MULS.W (A0)+,(A1)`: both words can be read, but the long product cannot be stored. -/
theorem step_faultAtomic_nearEnd :
    (nearEnd 0x23 0xC9).isHalted = false ∧ (nearEnd 0x23 0xC9).cycles.toNat < 2 ^ 64 - 1 ∧
      (nearEnd 0x23 0xC9).toDatapath.cycle.fault = some (.outOfRange ⟨0x0FFE, 4⟩) ∧
      FaultAtomic (nearEnd 0x23 0xC9) (nearEnd 0x23 0xC9).step (.outOfRange ⟨0x0FFE, 4⟩) := by
  have hrun : (nearEnd 0x23 0xC9).isHalted = false := by decide
  have hcount : (nearEnd 0x23 0xC9).cycles.toNat < 2 ^ 64 - 1 := by decide
  have hf : (nearEnd 0x23 0xC9).toDatapath.cycle.fault = some (.outOfRange ⟨0x0FFE, 4⟩) := by
    decide +kernel
  exact ⟨hrun, hcount, hf, step_faultAtomic hrun hcount hf⟩

/-- The operations that set the status bits before a store are exactly those that can fault with
changed status bits. -/
theorem flagsFirst_iff (o : Opcode) : o.flagsFirst = true ↔
    ∃ (m : Machine Scripted) (f : Fault), m.isHalted = false ∧ m.toDatapath.cycle.fault = some f ∧
      m.toDatapath.opcodePhase.toOption.map (·.opcode) = some o ∧
      m.toDatapath.cycle.state.regs.flags ≠ m.regs.flags := by
  constructor
  · intro ho
    cases o <;> simp only [Opcode.flagsFirst, Bool.false_eq_true] at ho
    case muls => exact ⟨nearEnd 0x23 0x09, .outOfRange ⟨0x0FFE, 4⟩, by decide +kernel⟩
    case clr => exact ⟨nearEnd 0x3C 0x90, .outOfRange ⟨0x0FFE, 4⟩, by decide +kernel⟩
    case moveq => exact ⟨nearEnd 0xCC 0x09, .outOfRange ⟨0x0FFE, 4⟩, by decide +kernel⟩
    case inp => exact ⟨nearEnd 0xE4 0x90, .outOfRange ⟨0x0FFE, 4⟩, by decide +kernel⟩
  · rintro ⟨m, f, hrun, hf, ho, hne⟩
    cases hn : o.flagsFirst with
    | true => rfl
    | false =>
      refine absurd (flags_of_fault hrun hf fun i hi => ?_) hne
      simp only [hi, Except.toOption, Option.map_some, Option.some.injEq] at ho
      rw [ho, hn]

end Machine
end Micro68
