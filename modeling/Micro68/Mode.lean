/-! Addressing modes: how an operand field names a register or an address. -/
namespace Micro68

inductive Mode where
  /-- `Dn` -/
  | dataRegister
  /-- `An` -/
  | addressRegister
  /-- `$address`, taken from an extension word -/
  | absolute
  /-- `(An)` -/
  | indirect
  /-- `(An)+` -/
  | postIncrement
  /-- `-(An)` -/
  | preDecrement
  /-- A code without a meaning; using one is a fault. -/
  | reserved (code : UInt8)
  deriving DecidableEq

namespace Mode

/-- The mode of a field; of the three-bit codes 2 and 5 are reserved. -/
def ofCode (c : UInt8) : Mode :=
  if c = 0 then dataRegister
  else if c = 1 then addressRegister
  else if c = 3 then absolute
  else if c = 4 then indirect
  else if c = 6 then postIncrement
  else if c = 7 then preDecrement
  else reserved c

def code : Mode → UInt8
  | dataRegister => 0
  | addressRegister => 1
  | absolute => 3
  | indirect => 4
  | postIncrement => 6
  | preDecrement => 7
  | reserved c => c

@[simp] theorem code_ofCode (c : UInt8) : (ofCode c).code = c := by
  unfold ofCode
  repeat' split
  all_goals simp_all [code]

/-- Register-direct modes touch no memory. -/
def isRegister : Mode → Bool
  | dataRegister | addressRegister => true
  | _ => false

end Mode
end Micro68
