import Micro68.BigEndian
import Micro68.Text.Hex

/-! Byte-addressed memory. An operation changes memory in place, and where it fails it leaves behind what
it has changed by then; which is nothing, since an element is checked as a whole before any cell of it
changes. -/
namespace Micro68

section InPlace

variable {ε σ α : Type}

/-- What a computation leaves behind, whether it fails or not. -/
def stateAfter (x : EStateM ε σ α) (s : σ) : σ :=
  match x s with
  | .ok _ s' => s'
  | .error _ s' => s'

/-- What a computation comes to for a caller who does not look at what a failure leaves behind. -/
def outcome (x : EStateM ε σ α) (s : σ) : Except ε σ :=
  match x s with
  | .ok _ s' => .ok s'
  | .error e _ => .error e

end InPlace

structure RangeError where
  address : UInt64
  len : UInt64
  deriving DecidableEq

def RangeError.message (e : RangeError) : String :=
  "invalid address $" ++ Hex.padded 4 e.address.toNat ++ " for a " ++ toString e.len.toNat
    ++ "-byte access"

inductive Direction where
  | read
  | write
  deriving DecidableEq

namespace Memory

/-- Number of cells: addresses 0 to $1000. -/
def capacity : Nat := 0x1001

end Memory

/-- The cells, and how many bytes of them a loader has filled. -/
structure Memory where
  cells : Vector UInt8 Memory.capacity
  imageLen : Nat

namespace Memory

def empty : Memory := ⟨Vector.replicate capacity 0, 0⟩

/-- The cell at an address; past the end there are only zeros. -/
def cell (m : Memory) (a : Nat) : UInt8 := m.cells[a]?.getD 0

def setCell (m : Memory) (a : Nat) (b : UInt8) : Memory :=
  { m with cells := m.cells.setIfInBounds a b }

@[simp] theorem cell_empty (a : Nat) : empty.cell a = 0 := by
  by_cases h : a < capacity <;> simp [cell, empty, h]

@[simp] theorem cell_setCell (m : Memory) (a c : Nat) (b : UInt8) :
    (m.setCell a b).cell c = if a = c ∧ c < capacity then b else m.cell c := by
  simp only [cell, setCell, Vector.getElem?_setIfInBounds]
  by_cases h : a = c
  · subst h
    by_cases hc : a < capacity <;> simp [hc]
  · simp [h]

@[simp] theorem imageLen_setCell (m : Memory) (a : Nat) (b : UInt8) :
    (m.setCell a b).imageLen = m.imageLen := rfl

def slice (m : Memory) (a n : Nat) : List UInt8 := (List.range n).map fun k => m.cell (a + k)

@[simp] theorem slice_length (m : Memory) (a n : Nat) : (m.slice a n).length = n := by
  simp [slice]

def put (m : Memory) (a : Nat) : List UInt8 → Memory
  | [] => m
  | b :: bs => (m.setCell a b).put (a + 1) bs

@[simp] theorem imageLen_put (m : Memory) (a : Nat) (bs : List UInt8) :
    (m.put a bs).imageLen = m.imageLen := by
  induction bs generalizing m a with
  | nil => rfl
  | cons b bs ih => simp [put, ih]

/-- Cell by cell, `put` gives the bytes their places and keeps the rest. -/
theorem cell_put (m : Memory) (a c : Nat) (bs : List UInt8) (h : a + bs.length ≤ capacity) :
    (m.put a bs).cell c = if a ≤ c ∧ c < a + bs.length then bs.getD (c - a) 0 else m.cell c := by
  induction bs generalizing m a with
  | nil => rw [put, if_neg (by simp only [List.length_nil]; omega)]
  | cons b bs ih =>
    simp only [List.length_cons] at h ⊢
    rw [put, ih _ _ (by omega), cell_setCell]
    by_cases hc : c = a
    · subst hc
      rw [if_neg (by omega), if_pos (by omega), if_pos (by omega)]
      simp
    · by_cases hr : a + 1 ≤ c ∧ c < a + 1 + bs.length
      · rw [if_pos hr, if_pos (by omega)]
        obtain ⟨k, rfl⟩ : ∃ k, c = a + 1 + k := ⟨c - (a + 1), by omega⟩
        simp [show a + 1 + k - a = k + 1 by omega]
      · rw [if_neg hr, if_neg (by omega), if_neg (by omega)]

def inRange (s : Size) (a : UInt16) : Bool := a.toNat + s.bytes ≤ capacity

def rangeError (s : Size) (a : UInt16) : RangeError := ⟨a.toUInt64, UInt64.ofNat s.bytes⟩

def check (s : Size) (a : UInt16) : EStateM RangeError Memory Unit :=
  if inRange s a then pure () else throw (rangeError s a)

/-- Reads an element, zero-extended. -/
def read (m : Memory) (s : Size) (a : UInt16) : Except RangeError UInt32 :=
  if inRange s a then .ok (BigEndian.value (m.slice a.toNat s.bytes))
  else .error (rangeError s a)

def store (s : Size) (a : UInt16) (x : UInt32) : EStateM RangeError Memory Unit := do
  check s a
  modify (·.put a.toNat (BigEndian.bytes s x))

/-- Moves an element between memory and a data word, which only a read changes. -/
def move (dir : Direction) (s : Size) (a : UInt16) :
    EStateM RangeError (UInt32 × Memory) Unit := fun (data, m) =>
  match dir with
  | .read => match m.read s a with
    | .ok x => .ok () (x, m)
    | .error e => .error e (data, m)
  | .write => match store s a data m with
    | .ok _ m' => .ok () (data, m')
    | .error e m' => .error e (data, m')

def place (a : UInt16) (b : UInt8) : EStateM RangeError Memory Unit := do
  check .byte a
  modify fun m => { m.setCell a.toNat b with imageLen := max m.imageLen (a.toNat + 1) }

def clear (_ : Memory) : Memory := empty

/-- Deposits bytes one by one, and stops where one is refused. -/
def placeFrom (a : Nat) : List UInt8 → EStateM RangeError Memory Unit
  | [] => pure ()
  | b :: bs => do
    place (UInt16.ofNat a) b
    placeFrom (a + 1) bs

/-- Replaces the contents by a program image and gives its length, unless it does not fit. -/
def placeImage (image : List UInt8) : EStateM RangeError Memory Nat := do
  if image.length ≤ capacity then
    modify clear
    placeFrom 0 image
    return (← get).imageLen
  else throw ⟨UInt64.ofNat capacity, UInt64.ofNat (image.length - capacity)⟩

def write (m : Memory) (s : Size) (a : UInt16) (x : UInt32) : Except RangeError Memory :=
  outcome (store s a x) m

def access (m : Memory) (dir : Direction) (s : Size) (a : UInt16) (data : UInt32) :
    Except RangeError (UInt32 × Memory) :=
  outcome (move dir s a) (data, m)

def load (m : Memory) (a : UInt16) (b : UInt8) : Except RangeError Memory := outcome (place a b) m

theorem store_run (m : Memory) (s : Size) (a : UInt16) (x : UInt32) :
    store s a x m = if inRange s a then .ok () (m.put a.toNat (BigEndian.bytes s x))
      else .error (rangeError s a) m := by
  cases h : inRange s a <;> simp [store, check, h] <;> rfl

theorem place_run (m : Memory) (a : UInt16) (b : UInt8) :
    place a b m = if inRange .byte a then
        .ok () { m.setCell a.toNat b with imageLen := max m.imageLen (a.toNat + 1) }
      else .error (rangeError .byte a) m := by
  cases h : inRange .byte a <;> simp [place, check, h] <;> rfl

/-- Up to `count` cells from `start` on, each with its address. -/
def dump (m : Memory) (start count : UInt64) : List (Nat × UInt8) :=
  (List.range (min count.toNat (capacity - start.toNat))).map fun k =>
    (start.toNat + k, m.cell (start.toNat + k))

def occupied (m : Memory) : Nat := m.cells.toList.countP (· ≠ 0)

end Memory
end Micro68
