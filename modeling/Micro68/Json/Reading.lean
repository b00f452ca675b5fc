import Micro68.Json

/-! Taking JSON values apart. A record is an object with its fields by name, of which unknown ones
do not count, or an array with all of them in order. A variant is its name alone, or an object whose
only field has that name; where a variant holds fields, they come by name. -/
namespace Micro68.Json

def int? (lo hi : Int) : Json → Option Int
  | num n => if lo ≤ n ∧ n ≤ hi then some n else none
  | _ => none

def bool? : Json → Option Bool
  | bool b => some b
  | _ => none

def str? : Json → Option String
  | str s => some s
  | _ => none

def uint8? (j : Json) : Option UInt8 := (j.int? 0 0xFF).map fun n => UInt8.ofNat n.toNat

def uint16? (j : Json) : Option UInt16 := (j.int? 0 0xFFFF).map fun n => UInt16.ofNat n.toNat

def uint64? (j : Json) : Option UInt64 := (j.int? 0 0xFFFFFFFFFFFFFFFF).map fun n => UInt64.ofNat n.toNat

/-- A signed 32-bit number, as a pattern. -/
def pattern32? (j : Json) : Option UInt32 :=
  (j.int? Int32.minValue.toInt Int32.maxValue.toInt).map fun n => (Int32.ofInt n).toUInt32

def ofPattern32 (x : UInt32) : Json := num x.toInt32.toInt

def pair? {α : Type} (item? : Json → Option α) : Json → Option (Vector α 2)
  | arr [x, y] => do return #v[← item? x, ← item? y]
  | _ => none

def ofPair {α : Type} (item : α → Json) (v : Vector α 2) : Json := arr [item v[0], item v[1]]

/-- The fields of an object, in the order of the names given; none where it lacks one. -/
def fields? (names : List String) : Json → Option (List (Option Json))
  | obj fields => some (names.map (List.lookup · fields))
  | _ => none

/-- The fields of a record, in the order of their names; none where an object lacks one. -/
def record? (names : List String) : Json → Option (List (Option Json))
  | arr items => if items.length = names.length then some (items.map some) else none
  | j => j.fields? names

def variant? : Json → Option (String × Option Json)
  | str name => some (name, none)
  | obj [(name, contents)] => some (name, some contents)
  | _ => none

def isUnit : Option Json → Bool
  | none | some null => true
  | _ => false

def optional? {α : Type} (item? : Json → Option α) : Json → Option (Option α)
  | null => some none
  | j => (item? j).map some

def ofOptional {α : Type} (item : α → Json) : Option α → Json
  | none => null
  | some x => item x

end Micro68.Json
