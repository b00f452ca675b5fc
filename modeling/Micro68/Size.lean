/-! Operand sizes: how many bytes one access moves, and which low bits of a 32-bit pattern count. -/
namespace Micro68

inductive Size where
  | byte
  | word
  | long
  deriving DecidableEq

namespace Size

/-- The two-bit size field of an opcode word. -/
def code : Size → UInt8
  | byte => 0
  | word => 1
  | long => 2

/-- The size of a field; code 3 has none. -/
def ofCode? (c : UInt8) : Option Size :=
  if c = 0 then some byte else if c = 1 then some word else if c = 2 then some long else none

@[simp] theorem ofCode?_code (s : Size) : ofCode? s.code = some s := by cases s <;> rfl

def bytes : Size → Nat
  | byte => 1
  | word => 2
  | long => 4

def bits (s : Size) : Nat := 8 * s.bytes

@[simp] theorem bits_byte : byte.bits = 8 := rfl
@[simp] theorem bits_word : word.bits = 16 := rfl
@[simp] theorem bits_long : long.bits = 32 := rfl

/-- The width in bytes as a distance between addresses. -/
def stride (s : Size) : UInt16 := UInt16.ofNat s.bytes

@[simp] theorem stride_toNat (s : Size) : s.stride.toNat = s.bytes := by cases s <;> rfl

def mask : Size → UInt32
  | byte => 0xFF
  | word => 0xFFFF
  | long => 0xFFFFFFFF

def low (s : Size) (x : UInt32) : UInt32 := x &&& s.mask

def msb (s : Size) (x : UInt32) : Bool := x.toBitVec.getLsbD (s.bits - 1)

/-- One letter, as listings write it. -/
def suffix : Size → String
  | byte => "B"
  | word => "W"
  | long => "L"

/-- The word, as console messages write it. -/
def name : Size → String
  | byte => "byte"
  | word => "word"
  | long => "long"

end Size
end Micro68
