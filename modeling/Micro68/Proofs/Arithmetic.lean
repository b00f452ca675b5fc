import Mathlib.Algebra.Group.Nat.Defs
import Micro68.Alu

/-! The arithmetic unit at each size. The low bits of a result are what arithmetic on words of exactly
that size gives, whatever lies above them in the operands, and Z and N are those of that word. -/
namespace Micro68

namespace Size

variable (s : Size) (x y : UInt32)

theorem bits_le : s.bits ≤ 32 := by cases s <;> decide

theorem bits_pos : 0 < s.bits := by cases s <;> decide

def trunc (s : Size) (x : UInt32) : BitVec s.bits := x.toBitVec.setWidth s.bits

theorem getLsbD_trunc (k : Nat) :
    (s.trunc x).getLsbD k = (decide (k < s.bits) && x.toBitVec.getLsbD k) :=
  BitVec.getLsbD_setWidth ..

theorem toNat_mask : s.mask.toNat = 2 ^ s.bits - 1 := by cases s <;> rfl

theorem toNat_low : (s.low x).toNat = x.toNat % 2 ^ s.bits := by
  rw [low, UInt32.toNat_and, toNat_mask, Nat.and_two_pow_sub_one_eq_mod]

theorem toNat_trunc : (s.trunc x).toNat = x.toNat % 2 ^ s.bits := BitVec.toNat_setWidth ..

theorem getLsbD_low (k : Nat) :
    (s.low x).toBitVec.getLsbD k = (decide (k < s.bits) && x.toBitVec.getLsbD k) := by
  rw [← BitVec.testBit_toNat, ← BitVec.testBit_toNat, UInt32.toNat_toBitVec, UInt32.toNat_toBitVec,
    toNat_low, Nat.testBit_mod_two_pow]

@[simp] theorem trunc_low : s.trunc (s.low x) = s.trunc x := by
  apply BitVec.eq_of_toNat_eq
  rw [toNat_trunc, toNat_low, toNat_trunc, Nat.mod_mod]

theorem low_eq_zero_iff : s.low x = 0 ↔ s.trunc x = 0 := by
  rw [← UInt32.toNat_inj, ← BitVec.toNat_inj, toNat_low, toNat_trunc]
  rfl

theorem msb_eq : s.msb x = (s.trunc x).msb := by
  have hlast : s.bits - 1 < s.bits := Nat.sub_lt s.bits_pos Nat.one_pos
  rw [BitVec.msb_eq_getLsbD_last, getLsbD_trunc, msb, decide_eq_true hlast, Bool.true_and]

theorem trunc_add : s.trunc (x + y) = s.trunc x + s.trunc y :=
  BitVec.setWidth_add _ _ s.bits_le

theorem trunc_neg : s.trunc (-x) = -s.trunc x := BitVec.setWidth_neg_of_le s.bits_le

theorem trunc_sub : s.trunc (x - y) = s.trunc x - s.trunc y := by
  rw [UInt32.sub_eq_add_neg, trunc_add, trunc_neg, BitVec.sub_eq_add_neg]

theorem trunc_not : s.trunc (~~~x) = ~~~s.trunc x := BitVec.setWidth_not s.bits_le

theorem trunc_and : s.trunc (x &&& y) = s.trunc x &&& s.trunc y := BitVec.setWidth_and

theorem trunc_or : s.trunc (x ||| y) = s.trunc x ||| s.trunc y := BitVec.setWidth_or

theorem trunc_xor : s.trunc (x ^^^ y) = s.trunc x ^^^ s.trunc y := BitVec.setWidth_xor

@[simp] theorem trunc_zero : s.trunc 0 = 0 := by cases s <;> rfl

variable {x} {c : UInt32}

theorem trunc_shiftLeft (hc : c.toNat < 32) : s.trunc (x <<< c) = s.trunc x <<< c.toNat := by
  have hword : (x <<< c).toBitVec = x.toBitVec <<< c.toNat := by
    rw [UInt32.toBitVec_shiftLeft, BitVec.shiftLeft_eq', BitVec.toNat_umod]
    exact congrArg (x.toBitVec <<< ·) (Nat.mod_eq_of_lt hc)
  apply BitVec.eq_of_getLsbD_eq
  intro k hk
  have hk32 : k < 32 := Nat.lt_of_lt_of_le hk s.bits_le
  have hsub : k - c.toNat < s.bits := Nat.lt_of_le_of_lt (Nat.sub_le ..) hk
  rw [getLsbD_trunc, hword, BitVec.getLsbD_shiftLeft, BitVec.getLsbD_shiftLeft, getLsbD_trunc]
  simp only [hk, hk32, hsub, decide_true, Bool.true_and]

theorem trunc_shiftRight (hc : c.toNat < 32) :
    s.trunc (s.low x >>> c) = s.trunc x >>> c.toNat := by
  have hword : (s.low x >>> c).toBitVec = (s.low x).toBitVec >>> c.toNat := by
    rw [UInt32.toBitVec_shiftRight, BitVec.ushiftRight_eq', BitVec.toNat_umod]
    exact congrArg ((s.low x).toBitVec >>> ·) (Nat.mod_eq_of_lt hc)
  apply BitVec.eq_of_getLsbD_eq
  intro k hk
  rw [getLsbD_trunc, hword, BitVec.getLsbD_ushiftRight, BitVec.getLsbD_ushiftRight, getLsbD_low,
    getLsbD_trunc, decide_eq_true hk, Bool.true_and]

end Size

namespace Alu

/-- An operation's outcome has this result at the size, with its Z and N, and leaves H. -/
structure Yields (s : Size) (f : Flags) (r : UInt32 × Flags) (x : BitVec s.bits) : Prop where
  result : s.trunc r.1 = x
  zero : r.2.zero = decide (x = 0)
  negative : r.2.negative = x.msb
  halt : r.2.halt = f.halt

variable (s : Size) (src dst count : UInt32) (f : Flags)

theorem yields_finish {s : Size} {result : UInt32} {x : BitVec s.bits} (h : s.trunc result = x)
    (overflow carry : Bool) (f : Flags) : Yields s f (finish s result overflow carry f) x := by
  subst h
  exact ⟨rfl, decide_eq_decide.mpr (s.low_eq_zero_iff result), s.msb_eq result, rfl⟩

theorem add_yields : Yields s f (add s src dst f) (s.trunc dst + s.trunc src) :=
  yields_finish (s.trunc_add dst src) ..

theorem sub_yields : Yields s f (sub s src dst f) (s.trunc dst - s.trunc src) :=
  yields_finish (s.trunc_sub dst src) ..

theorem neg_yields : Yields s f (neg s dst f) (0 - s.trunc dst) :=
  yields_finish (by rw [s.trunc_sub, s.trunc_zero]) ..

theorem logic_yields (result : UInt32) : Yields s f (logic s result f) (s.trunc result) :=
  yields_finish rfl ..

theorem and_yields : Yields s f (and s src dst f) (s.trunc dst &&& s.trunc src) :=
  yields_finish (s.trunc_and dst src) ..

theorem or_yields : Yields s f (or s src dst f) (s.trunc dst ||| s.trunc src) :=
  yields_finish (s.trunc_or dst src) ..

theorem eor_yields : Yields s f (eor s src dst f) (s.trunc dst ^^^ s.trunc src) :=
  yields_finish (s.trunc_xor dst src) ..

theorem lsl_yields : Yields s f (lsl s count dst f) (s.trunc dst <<< count.toNat) := by
  refine yields_finish ?_ ..
  by_cases hc : 32 ≤ count
  · have hbits : s.bits ≤ count.toNat := Nat.le_trans s.bits_le (UInt32.le_iff_toNat_le.mp hc)
    rw [if_pos hc, s.trunc_zero]
    exact (BitVec.shiftLeft_eq_zero hbits).symm
  · have hlt : count.toNat < 32 := by simpa [UInt32.le_iff_toNat_le] using hc
    rw [if_neg hc, s.trunc_low, s.trunc_shiftLeft hlt, s.trunc_low]

theorem lsr_yields : Yields s f (lsr s count dst f) (s.trunc dst >>> count.toNat) := by
  refine yields_finish ?_ ..
  by_cases hc : 32 ≤ count
  · have hbits : s.bits ≤ count.toNat := Nat.le_trans s.bits_le (UInt32.le_iff_toNat_le.mp hc)
    rw [if_pos hc, s.trunc_zero]
    exact (BitVec.ushiftRight_eq_zero hbits).symm
  · have hlt : count.toNat < 32 := by simpa [UInt32.le_iff_toNat_le] using hc
    rw [if_neg hc, s.trunc_shiftRight hlt]

theorem toNat_ofNat_of_lt {s : Size} {n : Nat} (h : n < s.bits) : (UInt32.ofNat n).toNat = n :=
  UInt32.toNat_ofNat_of_lt' (Nat.lt_trans (Nat.lt_of_lt_of_le h s.bits_le) (by decide))

theorem rol_yields : Yields s f (rol s count dst f) ((s.trunc dst).rotateLeft count.toNat) := by
  refine yields_finish ?_ ..
  rw [BitVec.rotateLeft_def]
  have hn : count.toNat % s.bits < s.bits := Nat.mod_lt _ s.bits_pos
  by_cases h0 : count.toNat % s.bits = 0
  · rw [if_pos h0, h0, s.trunc_low, BitVec.shiftLeft_zero, Nat.sub_zero,
      BitVec.ushiftRight_eq_zero (Nat.le_refl _), BitVec.or_zero]
  · have hleft := toNat_ofNat_of_lt hn
    have hright := toNat_ofNat_of_lt (s := s) (n := s.bits - count.toNat % s.bits) (by omega)
    have hbits := s.bits_le
    rw [if_neg h0, s.trunc_low, s.trunc_or, s.trunc_shiftLeft (by omega), s.trunc_low,
      s.trunc_shiftRight (by omega), hleft, hright]

theorem ror_yields : Yields s f (ror s count dst f) ((s.trunc dst).rotateRight count.toNat) := by
  refine yields_finish ?_ ..
  rw [BitVec.rotateRight_def]
  have hn : count.toNat % s.bits < s.bits := Nat.mod_lt _ s.bits_pos
  by_cases h0 : count.toNat % s.bits = 0
  · rw [if_pos h0, h0, s.trunc_low, BitVec.ushiftRight_zero, Nat.sub_zero,
      BitVec.shiftLeft_eq_zero (Nat.le_refl _), BitVec.or_zero]
  · have hright := toNat_ofNat_of_lt hn
    have hleft := toNat_ofNat_of_lt (s := s) (n := s.bits - count.toNat % s.bits) (by omega)
    have hbits := s.bits_le
    rw [if_neg h0, s.trunc_low, s.trunc_or, s.trunc_shiftRight (by omega),
      s.trunc_shiftLeft (by omega), s.trunc_low, hleft, hright]

end Alu
end Micro68
