import Micro68.Machine

/-! What a programmer can see of a machine at one moment. -/
namespace Micro68

structure Snapshot where
  state : RunState
  cycles : UInt64
  pc : UInt16
  d : Vector UInt32 2
  a : Vector UInt16 2
  flags : Flags
  fault : Option Diagnostic
  deriving DecidableEq

def Machine.snapshot {κ : Type} (m : Machine κ) : Snapshot :=
  { state := m.state, cycles := m.cycles, pc := m.regs.pc, d := m.regs.d, a := m.regs.a
    flags := m.regs.flags, fault := m.lastFault }

def RunState.name : RunState → String
  | running => "Running"
  | halted => "Halted"

namespace Snapshot

/-- A data register: its pattern and its signed value. -/
def dataLine (n : Nat) (x : UInt32) : String :=
  "DR" ++ toString n ++ ":    $" ++ Hex.padded 8 x.toNat ++ " (" ++ toString x.toInt32.toInt ++ ")\n"

def addressLine (n : Nat) (x : UInt16) : String :=
  "AR" ++ toString n ++ ":    $" ++ Hex.padded 4 x.toNat ++ "\n"

/-- A snapshot in lines, without a line feed at the end. -/
def text (s : Snapshot) : String :=
  "State:  " ++ s.state.name ++ " after " ++ toString s.cycles.toNat ++ " cycles\n"
    ++ "PC:     $" ++ Hex.padded 4 s.pc.toNat ++ "\n"
    ++ String.join (s.d.toList.mapIdx dataLine) ++ String.join (s.a.toList.mapIdx addressLine)
    ++ "Status: " ++ s.flags.text
    ++ match s.fault with
      | some d => "\nFault:  " ++ d.text
      | none => ""

end Snapshot
end Micro68
