import Micro68.Flags
import Micro68.Size

/-! Arithmetic, logic and shifts on 32-bit patterns, of which only the low bits of the size count.
Every operation gives its result with the status bits after it. Sums, differences and logical
results keep whatever lies above the size; shifts and rotations give masked results. -/
namespace Micro68

abbrev AluOp := Size → UInt32 → UInt32 → Flags → UInt32 × Flags

namespace Alu

/-- Sign bits of source, destination and result at one width. -/
structure Signs where
  src : Bool
  dst : Bool
  result : Bool

namespace Signs

def of (s : Size) (src dst result : UInt32) : Signs := ⟨s.msb src, s.msb dst, s.msb result⟩

/-- V of a sum: equal signs give the other one. -/
def addOverflow (g : Signs) : Bool :=
  (g.src && g.dst && !g.result) || (!g.src && !g.dst && g.result)

def addCarry (g : Signs) : Bool :=
  (g.src && g.dst) || (!g.result && g.dst) || (g.src && !g.result)

def subOverflow (g : Signs) : Bool :=
  (!g.src && g.dst && !g.result) || (g.src && !g.dst && g.result)

/-- C, the borrow, of a difference. -/
def subCarry (g : Signs) : Bool :=
  (g.src && !g.dst) || (g.result && !g.dst) || (g.src && g.result)

end Signs

def setZN (s : Size) (result : UInt32) (f : Flags) : Flags :=
  { f with zero := s.low result == 0, negative := s.msb result }

def finish (s : Size) (result : UInt32) (overflow carry : Bool) (f : Flags) : UInt32 × Flags :=
  (result, (setZN s result f).setVC overflow carry)

def add : AluOp := fun s src dst f =>
  let g := Signs.of s src dst (dst + src)
  finish s (dst + src) g.addOverflow g.addCarry f

def sub : AluOp := fun s src dst f =>
  let g := Signs.of s src dst (dst - src)
  finish s (dst - src) g.subOverflow g.subCarry f

def neg (s : Size) (dst : UInt32) (f : Flags) : UInt32 × Flags :=
  let g := Signs.of s 0 dst (0 - dst)
  finish s (0 - dst) (g.dst && g.result) (g.dst || g.result) f

/-- A given result, with V and C clear. -/
def logic (s : Size) (result : UInt32) (f : Flags) : UInt32 × Flags := finish s result false false f

def and : AluOp := fun s src dst => logic s (dst &&& src)

def or : AluOp := fun s src dst => logic s (dst ||| src)

def eor : AluOp := fun s src dst => logic s (dst ^^^ src)

/-- Bit `n` of a pattern; there is none from 32 on. -/
def bit (x : UInt32) (n : Nat) : Bool := x.toBitVec.getLsbD n

/-- Logical shift left by `count`; C is the last bit shifted out. -/
def lsl : AluOp := fun s count dst f =>
  let x := s.low dst
  let result := if 32 ≤ count then 0 else s.low (x <<< count)
  let carry := 0 < count.toNat && count.toNat ≤ s.bits && bit x (s.bits - count.toNat)
  finish s result false carry f

def lsr : AluOp := fun s count dst f =>
  let x := s.low dst
  let result := if 32 ≤ count then 0 else x >>> count
  finish s result false (0 < count.toNat && bit x (count.toNat - 1)) f

/-- Rotation left by `count` modulo the width; C is the last bit moved out. -/
def rol : AluOp := fun s count dst f =>
  let x := s.low dst
  let n := count.toNat % s.bits
  let result := if n = 0 then x else
    s.low (x <<< UInt32.ofNat n ||| x >>> UInt32.ofNat (s.bits - n))
  finish s result false (0 < n && bit x (s.bits - n)) f

def ror : AluOp := fun s count dst f =>
  let x := s.low dst
  let n := count.toNat % s.bits
  let result := if n = 0 then x else
    s.low (x >>> UInt32.ofNat n ||| x <<< UInt32.ofNat (s.bits - n))
  finish s result false (0 < n && bit x (n - 1)) f

def signExtendWord (x : UInt32) : Int32 := x.toUInt16.toInt16.toInt32

/-- Signed product of two low words. -/
def product (src dst : UInt32) : UInt32 := (signExtendWord src * signExtendWord dst).toUInt32

/-- Quotient and remainder. A negative divisor is made positive by negating both numbers, so the
remainder then has the sign of the negated dividend, unless the quotient is zero. -/
def divide (divisor dividend : Int32) : Int32 × Int32 :=
  if divisor < 0 then
    let q := -dividend / -divisor
    (q, if q = 0 then dividend % -divisor else -dividend % -divisor)
  else (dividend / divisor, dividend % divisor)

/-- Remainder in the high word, quotient in the low word; V says that the quotient needs more than
a word, and is then cut. -/
def packQuotient (quotient remainder : Int32) (f : Flags) : UInt32 × Flags :=
  let result := remainder.toUInt32 <<< 16 ||| (quotient.toUInt32 &&& 0xFFFF)
  finish .long result (quotient < -32768 || 32767 < quotient) false f

end Alu
end Micro68
