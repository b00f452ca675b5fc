import Micro68.Text.Hex

/-! Numbers as people type them: an optional sign, then hexadecimal after `0x`, octal after a leading
zero, decimal otherwise, up to the first character that is no digit. Values saturate at 64 bits and
are then cut to 32, so that `0xFFFFFFFF` reads as -1. -/
namespace Micro68.Numeral

/-- Splits off a sign; the flag says that it is negative. -/
def splitSign : List Char → Bool × List Char
  | '-' :: cs => (true, cs)
  | '+' :: cs => (false, cs)
  | cs => (false, cs)

/-- The radix and where its digits start. `0x` counts only before a hexadecimal digit. -/
def splitRadix (cs : List Char) : Nat × List Char :=
  match cs with
  | '0' :: x :: c :: _ =>
    if (x = 'x' ∨ x = 'X') ∧ Hex.isDigit c then (16, cs.drop 2) else (8, cs)
  | '0' :: _ => (8, cs)
  | _ => (10, cs)

def digit? (radix : Nat) (c : Char) : Option Nat := (Hex.value? c).filter (· < radix)

def digits (radix : Nat) : List Char → List Nat
  | [] => []
  | c :: cs => match digit? radix c with
    | some d => d :: digits radix cs
    | none => []

/-- Magnitudes stop growing here. -/
def limit : Nat := 0x8000000000000000

/-- The number that digits write, capped at the limit after each digit. -/
def magnitude (radix : Nat) (ds : List Nat) : Nat :=
  ds.foldl (fun n d => min (n * radix + d) limit) 0

def signed (negative : Bool) (m : Nat) : Int :=
  max Int64.minValue.toInt (min (if negative then -m else m) Int64.maxValue.toInt)

/-- The number a text starts with, if it starts with one. -/
def read? (cs : List Char) : Option Int32 :=
  let (negative, body) := splitSign cs
  let (radix, rest) := splitRadix body
  match digits radix rest with
  | [] => none
  | ds => some (Int32.ofInt (signed negative (magnitude radix ds)))

end Micro68.Numeral
