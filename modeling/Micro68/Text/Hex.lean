/-! Numbers in upper-case hexadecimal. -/
namespace Micro68.Hex

def digits (n : Nat) : List Char := (Nat.toDigits 16 n).map Char.toUpper

/-- A number, filled up with zeros to at least `width` digits. -/
def padded (width n : Nat) : String :=
  String.ofList (List.replicate (width - (digits n).length) '0' ++ digits n)

def plain (n : Nat) : String := padded 0 n

def value? (c : Char) : Option Nat :=
  if '0' ≤ c ∧ c ≤ '9' then some (c.toNat - '0'.toNat)
  else if 'a' ≤ c ∧ c ≤ 'f' then some (c.toNat - 'a'.toNat + 10)
  else if 'A' ≤ c ∧ c ≤ 'F' then some (c.toNat - 'A'.toNat + 10)
  else none

def isDigit (c : Char) : Bool := (value? c).isSome

def ofDigits (cs : List Char) : Nat :=
  cs.foldl (fun n c => 16 * n + (value? c).getD 0) 0

end Micro68.Hex
