import Micro68.Proofs.Comparison

/-! Exact arithmetic. Sums, differences and negations are those of the integers, cut to the size. C and
V say that the exact result does not fit, of the operands without sign and of the signed operands; Z
and N describe what is left of it. What lies above the size in the operands does not matter. -/
namespace Micro68

namespace Alu

namespace Signs

variable {w : Nat} (x y : BitVec w)

def ofSum (src dst : BitVec w) : Signs := ⟨src.msb, dst.msb, (dst + src).msb⟩

theorem addCarry_ofSum : (ofSum x y).addCarry = decide (2 ^ w ≤ y.toNat + x.toNat) := by
  have hx := x.isLt
  have hy := y.isLt
  cases w with
  | zero => simp [BitVec.of_length_zero, ofSum, addCarry]
  | succ k =>
    simp only [ofSum, addCarry, BitVec.msb_eq_decide, BitVec.toNat_add, Nat.add_sub_cancel]
    rw [Nat.pow_succ] at *
    generalize 2 ^ k = half at *
    by_cases hlt : y.toNat + x.toNat < half * 2
    · rw [Nat.mod_eq_of_lt hlt]
      grind
    · -- the sum has wrapped around once
      rw [Nat.mod_eq_sub_mod (by omega), Nat.mod_eq_of_lt (by omega)]
      grind

theorem addOverflow_ofSum : (ofSum x y).addOverflow = y.saddOverflow x := by
  rw [BitVec.saddOverflow_eq]
  simp only [ofSum, addOverflow]
  cases x.msb <;> cases y.msb <;> cases (y + x).msb <;> rfl

theorem saddOverflow_eq_decide : y.saddOverflow x =
    decide (¬(-2 ^ (w - 1) ≤ y.toInt + x.toInt ∧ y.toInt + x.toInt < 2 ^ (w - 1))) := by
  unfold BitVec.saddOverflow
  grind

end Signs

variable {s : Size} {src src' dst dst' : UInt32} {f : Flags}

theorem signs_of_add (s : Size) (src dst : UInt32) :
    Signs.of s src dst (dst + src) = .ofSum (s.trunc src) (s.trunc dst) := by
  rw [Signs.of, Signs.ofSum, s.msb_eq, s.msb_eq, s.msb_eq, s.trunc_add]

theorem add_carry (s : Size) (src dst : UInt32) (f : Flags) : (add s src dst f).2.carry =
    decide (2 ^ s.bits ≤ (s.trunc dst).toNat + (s.trunc src).toNat) := by
  rw [← Signs.addCarry_ofSum, ← signs_of_add]
  rfl

theorem add_overflow (s : Size) (src dst : UInt32) (f : Flags) :
    (add s src dst f).2.overflow = (s.trunc dst).saddOverflow (s.trunc src) := by
  rw [← Signs.addOverflow_ofSum, ← signs_of_add]
  rfl

/-- A negation is a difference from zero: of the sign bits of a difference those of a zero drop out. -/
theorem neg_eq_sub (s : Size) (dst : UInt32) (f : Flags) : neg s dst f = sub s dst 0 f := by
  have hzero : s.msb 0 = false := by cases s <;> rfl
  simp only [neg, sub, Signs.of, Signs.subOverflow, Signs.subCarry, hzero]
  cases s.msb dst <;> cases s.msb (0 - dst) <;> rfl

/-- An outcome is right for an exact result of the operands as numbers without sign, and an exact result
of the operands as signed numbers; of `f` it keeps H. -/
structure Exact (s : Size) (f : Flags) (r : UInt32 × Flags) (unsigned signed : Int) : Prop where
  result : ((r.1.toNat % 2 ^ s.bits : Nat) : Int) = unsigned % 2 ^ s.bits
  overflow : r.2.overflow = true ↔ ¬(-2 ^ (s.bits - 1) ≤ signed ∧ signed < 2 ^ (s.bits - 1))
  zero : r.2.zero = true ↔ r.1.toNat % 2 ^ s.bits = 0
  negative : r.2.negative = r.1.toNat.testBit (s.bits - 1)
  halt : r.2.halt = f.halt

/-- The integers that a word is cut from, and V, decide. -/
theorem exact_of_yields {r : UInt32 × Flags} {x : BitVec s.bits} {unsigned signed : Int}
    (h : Yields s f r x) (hx : (x.toNat : Int) = unsigned % 2 ^ s.bits)
    (hv : r.2.overflow = true ↔ ¬(-2 ^ (s.bits - 1) ≤ signed ∧ signed < 2 ^ (s.bits - 1))) :
    Exact s f r unsigned signed := by
  have hlow : r.1.toNat % 2 ^ s.bits = x.toNat := by rw [← s.toNat_trunc, h.result]
  refine ⟨by rw [hlow, hx], hv, ?_, ?_, h.halt⟩
  · rw [h.zero, decide_eq_true_eq, hlow, ← BitVec.toNat_inj]
    rfl
  · rw [h.negative, ← h.result, ← s.msb_eq]
    rfl

theorem add_exact (s : Size) (src dst : UInt32) (f : Flags) : Exact s f (add s src dst f)
    ((s.trunc dst).toNat + (s.trunc src).toNat) ((s.trunc dst).toInt + (s.trunc src).toInt) := by
  refine exact_of_yields (add_yields s src dst f) ?_ ?_
  · rw [BitVec.toNat_add]
    push_cast
    rfl
  · rw [add_overflow, Signs.saddOverflow_eq_decide, decide_eq_true_eq]

theorem sub_exact (s : Size) (src dst : UInt32) (f : Flags) : Exact s f (sub s src dst f)
    ((s.trunc dst).toNat - (s.trunc src).toNat) ((s.trunc dst).toInt - (s.trunc src).toInt) := by
  refine exact_of_yields (sub_yields s src dst f) ?_ ?_
  · have hlt := (s.trunc src).isLt
    rw [BitVec.toNat_sub]
    push_cast [Nat.le_of_lt hlt]
    rw [show (2 ^ s.bits - ((s.trunc src).toNat : Int) + (s.trunc dst).toNat) =
      (s.trunc dst).toNat - (s.trunc src).toNat + 2 ^ s.bits by omega, Int.add_emod_right]
  · rw [sub_overflow, Signs.ssubOverflow_eq_decide, decide_eq_true_eq]

def SameLow (s : Size) (r r' : UInt32 × Flags) : Prop := s.trunc r'.1 = s.trunc r.1 ∧ r'.2 = r.2

theorem sameLow_finish {result result' : UInt32} (h : s.trunc result' = s.trunc result)
    (overflow carry : Bool) (f : Flags) :
    SameLow s (finish s result overflow carry f) (finish s result' overflow carry f) := by
  have hlow : s.low result' = s.low result := by
    rw [← UInt32.toNat_inj, s.toNat_low, s.toNat_low, ← s.toNat_trunc, ← s.toNat_trunc, h]
  refine ⟨h, ?_⟩
  simp only [finish, setZN, hlow, s.msb_eq, h]

theorem add_sameLow (hsrc : s.trunc src' = s.trunc src) (hdst : s.trunc dst' = s.trunc dst) :
    SameLow s (add s src dst f) (add s src' dst' f) := by
  unfold add
  rw [signs_of_add, signs_of_add, hsrc, hdst]
  exact sameLow_finish (by rw [s.trunc_add, s.trunc_add, hsrc, hdst]) ..

theorem sub_sameLow (hsrc : s.trunc src' = s.trunc src) (hdst : s.trunc dst' = s.trunc dst) :
    SameLow s (sub s src dst f) (sub s src' dst' f) := by
  unfold sub
  rw [signs_of_sub, signs_of_sub, hsrc, hdst]
  exact sameLow_finish (by rw [s.trunc_sub, s.trunc_sub, hsrc, hdst]) ..

/-- Sums and differences at every size are exact: the result is the one of the integers, cut to the
size, and the status bits say what has been cut off and what is left. A negation is the difference from
zero. Bits above the size change neither the status bits nor the result at the size. -/
theorem add_sub_neg_exact (s : Size) (src dst : UInt32) (f : Flags) :
    let x := s.trunc src
    let y := s.trunc dst
    (Exact s f (add s src dst f) (y.toNat + x.toNat) (y.toInt + x.toInt) ∧
      ((add s src dst f).2.carry = true ↔ 2 ^ s.bits ≤ y.toNat + x.toNat)) ∧
    (Exact s f (sub s src dst f) (y.toNat - x.toNat) (y.toInt - x.toInt) ∧
      ((sub s src dst f).2.carry = true ↔ y.toNat < x.toNat)) ∧
    (Exact s f (neg s dst f) (-y.toNat) (-y.toInt) ∧ neg s dst f = sub s dst 0 f) ∧
    ∀ src' dst', s.trunc src' = x → s.trunc dst' = y →
      SameLow s (add s src dst f) (add s src' dst' f) ∧
      SameLow s (sub s src dst f) (sub s src' dst' f) ∧
      SameLow s (neg s dst f) (neg s dst' f) := by
  intro x y
  have hneg := sub_exact s dst 0 f
  rw [s.trunc_zero] at hneg
  refine ⟨⟨add_exact s src dst f, ?_⟩, ⟨sub_exact s src dst f, ?_⟩, ⟨?_, neg_eq_sub s dst f⟩,
    fun src' dst' hsrc hdst => ⟨add_sameLow hsrc hdst, sub_sameLow hsrc hdst, ?_⟩⟩
  · rw [add_carry, decide_eq_true_eq]
  · rw [sub_carry, decide_eq_true_eq]
  · rw [neg_eq_sub]
    simpa [BitVec.toInt_zero] using hneg
  · rw [neg_eq_sub, neg_eq_sub]
    exact sub_sameLow hdst rfl

/-- Bytes 127 and 1 with other bits above them: their sum is out of the signed range and needs no carry,
and their difference is 126. -/
theorem add_sub_neg_exact_dirty :
    Size.byte.trunc 0xABCDEF01 = Size.byte.trunc 0x01 ∧
      Size.byte.trunc 0xFFFFFF7F = Size.byte.trunc 0x7F ∧
      (add .byte 0xABCDEF01 0xFFFFFF7F {}).2 = { overflow := true, negative := true } ∧
      Size.byte.trunc (sub .byte 0xABCDEF01 0xFFFFFF7F {}).1 = 126 := by
  have hsrc : Size.byte.trunc 0xABCDEF01 = Size.byte.trunc 0x01 := by decide
  have hdst : Size.byte.trunc 0xFFFFFF7F = Size.byte.trunc 0x7F := by decide
  obtain ⟨-, -, -, hlow⟩ := add_sub_neg_exact .byte 0x01 0x7F {}
  obtain ⟨hadd, hsub, -⟩ := hlow 0xABCDEF01 0xFFFFFF7F hsrc hdst
  refine ⟨hsrc, hdst, ?_, ?_⟩
  · rw [hadd.2]
    decide
  · rw [hsub.1]
    decide

end Alu
end Micro68
