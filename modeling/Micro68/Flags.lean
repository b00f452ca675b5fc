/-! Status bits. Halt, once set, stays set until a reset. -/
namespace Micro68

/-- The status bits C, V, Z, N and H. -/
structure Flags where
  carry : Bool := false
  overflow : Bool := false
  zero : Bool := false
  negative : Bool := false
  halt : Bool := false
  deriving DecidableEq

namespace Flags

def setHalt (f : Flags) : Flags := { f with halt := true }

def setVC (f : Flags) (overflow carry : Bool) : Flags := { f with overflow, carry }

/-- The condition of a signed comparison: N and V agree. -/
def greaterOrEqual (f : Flags) : Bool := f.negative == f.overflow

def bitText (b : Bool) : String := if b then "TRUE" else "FALSE"

def text (f : Flags) : String :=
  "H:" ++ bitText f.halt ++ " N:" ++ bitText f.negative ++ " Z:" ++ bitText f.zero
    ++ " V:" ++ bitText f.overflow ++ " C:" ++ bitText f.carry

end Flags
end Micro68
