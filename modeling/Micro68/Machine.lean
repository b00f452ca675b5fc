import Micro68.Cycle
import Micro68.Iterate

/-! The machine: a datapath, a count of cycles, and a memory of the last instruction and fault. -/
namespace Micro68

/-- A machine and the console it talks to. -/
structure Machine (κ : Type) extends Datapath κ where
  /-- Cycles since the last reset, those that faulted included. -/
  cycles : UInt64
  /-- The instruction of the last cycle; none if that cycle could not fetch and decode one. -/
  lastInstruction : Option Instruction
  /-- The fault that stopped the machine. -/
  lastFault : Option Diagnostic

inductive RunState where
  | running
  | halted
  deriving DecidableEq

namespace Machine

variable {κ : Type}

def new (console : κ) : Machine κ :=
  { regs := {}, mem := .empty, adjusted := {}, console, cycles := 0
    lastInstruction := none, lastFault := none }

def isHalted (m : Machine κ) : Bool := m.regs.flags.halt

def state (m : Machine κ) : RunState := if m.isHalted then .halted else .running

/-- Zeroes registers, status bits and records; memory and console stay. -/
def reset (m : Machine κ) : Machine κ :=
  { m with regs := {}, adjusted := {}, cycles := 0, lastInstruction := none, lastFault := none }

def requestHalt (m : Machine κ) : Machine κ := { m with regs := m.regs.setHalt }

def loadInPlace (image : List UInt8) : EStateM RangeError (Machine κ) Nat := fun m =>
  match Memory.placeImage image m.mem with
  | .ok n mem => .ok n { m with mem }
  | .error e mem => .error e { m with mem }

def loadProgram (m : Machine κ) (image : List UInt8) : Except RangeError (Machine κ) :=
  outcome (loadInPlace image) m

variable [Console κ]

/-- The machine after a cycle that began at `pc`. A fault is reported and recorded, and halts. -/
def afterCycle (pc : UInt16) (cycles : UInt64) (lastFault : Option Diagnostic)
    (r : CycleResult κ) : Machine κ :=
  match r.fault with
  | none => { toDatapath := r.state, cycles, lastInstruction := r.instruction, lastFault }
  | some fault =>
    let d : Diagnostic := { fault, opcode := r.instruction.map (·.opcode), pc }
    { toDatapath := r.state.stop d, cycles, lastInstruction := r.instruction, lastFault := some d }

/-- Runs one cycle; a halted machine does nothing. -/
def step (m : Machine κ) : Machine κ :=
  if m.isHalted then m else afterCycle m.regs.pc (m.cycles + 1) m.lastFault m.toDatapath.cycle

def runCycles (n : Nat) (m : Machine κ) : Machine κ := iterate isHalted step n m

theorem step_cycles {m : Machine κ} (h : m.isHalted = false) : m.step.cycles = m.cycles + 1 := by
  rw [step, if_neg (by simp [h])]
  unfold afterCycle
  split <;> rfl

def maxCycles : Nat := UInt64.size - 1

theorem step_cycles_toNat {m : Machine κ} (h : m.isHalted = false)
    (hroom : m.cycles.toNat < maxCycles) : m.step.cycles.toNat = m.cycles.toNat + 1 := by
  rw [step_cycles h, UInt64.toNat_add]
  exact Nat.mod_eq_of_lt (Nat.succ_lt_of_lt_pred hroom)

/-- Takes steps until the machine has halted or its counter has reached a limit. -/
def runUntil (limit : UInt64) (m : Machine κ) : Machine κ :=
  if m.isHalted = false ∧ m.cycles < limit then runUntil limit m.step else m
termination_by limit.toNat - m.cycles.toNat
decreasing_by
  rename_i h
  have hlimit : limit.toNat ≤ maxCycles := Nat.le_pred_of_lt limit.toNat_lt
  have hbelow : m.cycles.toNat < limit.toNat := UInt64.lt_iff_toNat_lt.mp h.2
  rw [step_cycles_toNat h.1 (Nat.lt_of_lt_of_le hbelow hlimit)]
  omega

/-- Runs at most so many cycles, and gives their number too. The limit for the counter is the sum, or
the greatest number it can hold where the sum is greater. -/
def runLimited (n : UInt64) (m : Machine κ) : UInt64 × Machine κ :=
  let final := m.runUntil (UInt64.ofNat (min (m.cycles.toNat + n.toNat) maxCycles))
  (final.cycles - m.cycles, final)

/-- Takes steps until the machine has halted. A step that the counter cannot count is not taken, and
gives no machine. -/
def runToHalt? (m : Machine κ) : Option (Machine κ) :=
  if m.isHalted then some m
  else if m.cycles.toNat < maxCycles then runToHalt? m.step
  else none
termination_by maxCycles - m.cycles.toNat
decreasing_by
  rename_i hrun hroom
  rw [step_cycles_toNat (Bool.eq_false_iff.mpr hrun) hroom]
  omega

def run? (m : Machine κ) : Option (UInt64 × Machine κ) :=
  m.runToHalt?.map fun final => (final.cycles - m.cycles, final)

end Machine
end Micro68
