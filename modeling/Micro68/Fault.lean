import Micro68.Memory
import Micro68.Opcode

/-! Faults: what can go wrong in a cycle, and how it is reported. Every fault halts the machine. -/
namespace Micro68

inductive Fault where
  | outOfRange (error : RangeError)
  | invalidMode (code : UInt8)
  | invalidSize (code : UInt8)
  | invalidOperandCount (count : UInt8)
  | invalidInstruction (id : UInt8)
  | divisionByZero
  /-- The console gave no value, for the reason it states. -/
  | inputUnavailable (reason : String)
  deriving DecidableEq

def Fault.message : Fault → String
  | outOfRange e => e.message
  | invalidMode c => "invalid addressing mode " ++ toString c.toNat
  | invalidSize c => "invalid data size " ++ toString c.toNat
  | invalidOperandCount n => "invalid number of operands " ++ toString n.toNat
  | invalidInstruction n => "invalid instruction " ++ toString n.toNat
  | divisionByZero => "division by zero"
  | inputUnavailable reason => "no input value: " ++ reason

/-- What is reported when a cycle faults. -/
structure Diagnostic where
  fault : Fault
  /-- The operation, if the fault came after decoding. -/
  opcode : Option Opcode
  /-- Address of the opcode word. -/
  pc : UInt16
  deriving DecidableEq

def Diagnostic.text (d : Diagnostic) : String :=
  "*** ERROR: " ++ d.fault.message ++ " at PC = $" ++ Hex.padded 4 d.pc.toNat
    ++ match d.opcode with
      | some o => " for operation " ++ o.mnemonic
      | none => ""

end Micro68
