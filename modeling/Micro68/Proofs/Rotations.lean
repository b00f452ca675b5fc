import Micro68.Proofs.Arithmetic

/-! Rotations. A rotation reads every bit of a word from a place so many further on, counted around the
corner, so that rotations of one word add up, and a rotation to the left is one to the right by what is
missing to the width. The carry is the bit that has come around the corner last. -/
namespace Micro68

theorem mod_eq_sub_of_le_of_lt {w k : Nat} (hle : w ≤ k) (hlt : k < 2 * w) : k % w = k - w := by
  rw [Nat.mod_eq_sub_mod hle, Nat.mod_eq_of_lt (by omega)]

section Words

variable {w : Nat} (x : BitVec w) (a b : Nat)

theorem getLsbD_rotateRight_around {k : Nat} (hk : k < w) :
    (x.rotateRight a).getLsbD k = x.getLsbD ((k + a) % w) := by
  have hlt : a % w < w := Nat.mod_lt _ (Nat.zero_lt_of_lt hk)
  rw [BitVec.getLsbD_rotateRight, ← Nat.add_mod_mod]
  by_cases hlow : k < w - a % w
  · have haround : (k + a % w) % w = a % w + k := by
      rw [Nat.add_comm]
      exact Nat.mod_eq_of_lt (by omega)
    rw [decide_eq_true hlow, cond_true, haround]
  · have haround : (k + a % w) % w = k - (w - a % w) := by
      rw [mod_eq_sub_of_le_of_lt (by omega) (by omega)]
      omega
    rw [decide_eq_false hlow, cond_false, decide_eq_true hk, Bool.true_and, haround]

theorem rotateLeft_eq_rotateRight : x.rotateLeft a = x.rotateRight (w - a % w) := by
  apply BitVec.eq_of_getLsbD_eq
  intro k hk
  have hlt : a % w < w := Nat.mod_lt _ (Nat.zero_lt_of_lt hk)
  rw [BitVec.getLsbD_rotateLeft, getLsbD_rotateRight_around _ _ hk]
  by_cases hlow : k < a % w
  · have haround : (k + (w - a % w)) % w = w - a % w + k := by
      rw [Nat.add_comm]
      exact Nat.mod_eq_of_lt (by omega)
    rw [decide_eq_true hlow, cond_true, haround]
  · have haround : (k + (w - a % w)) % w = k - a % w := by
      rw [mod_eq_sub_of_le_of_lt (by omega) (by omega)]
      omega
    rw [decide_eq_false hlow, cond_false, decide_eq_true hk, Bool.true_and, haround]

variable {a b} in
theorem rotateRight_congr (h : a % w = b % w) : x.rotateRight a = x.rotateRight b := by
  rw [← BitVec.rotateRight_mod_eq_rotateRight, h, BitVec.rotateRight_mod_eq_rotateRight]

theorem rotateRight_rotateRight : (x.rotateRight a).rotateRight b = x.rotateRight (a + b) := by
  apply BitVec.eq_of_getLsbD_eq
  intro k hk
  have hpos : 0 < w := Nat.zero_lt_of_lt hk
  rw [getLsbD_rotateRight_around _ b hk, getLsbD_rotateRight_around _ a (Nat.mod_lt _ hpos),
    getLsbD_rotateRight_around _ (a + b) hk, Nat.mod_add_mod, Nat.add_comm a b, Nat.add_assoc]

theorem rotateRight_around : x.rotateRight (w * a) = x := by
  apply BitVec.eq_of_getLsbD_eq
  intro k hk
  rw [getLsbD_rotateRight_around _ _ hk, Nat.add_mul_mod_self_left, Nat.mod_eq_of_lt hk]

theorem rotateRight_zero : x.rotateRight 0 = x := rotateRight_around x 0

theorem rotateLeft_zero : x.rotateLeft 0 = x := by
  rw [rotateLeft_eq_rotateRight, Nat.zero_mod, Nat.sub_zero]
  have hround := rotateRight_around x 1
  rwa [Nat.mul_one] at hround

theorem missing_add (hw : 0 < w) : w - a % w + a = w * (a / w + 1) := by
  have hlt : a % w < w := Nat.mod_lt _ hw
  have hdiv := Nat.div_add_mod a w
  rw [Nat.mul_add, Nat.mul_one]
  omega

theorem rotateRight_rotateLeft (hw : 0 < w) : (x.rotateLeft a).rotateRight a = x := by
  rw [rotateLeft_eq_rotateRight, rotateRight_rotateRight, missing_add a hw, rotateRight_around]

theorem rotateLeft_rotateRight (hw : 0 < w) : (x.rotateRight a).rotateLeft a = x := by
  rw [rotateLeft_eq_rotateRight, rotateRight_rotateRight, Nat.add_comm, missing_add a hw,
    rotateRight_around]

theorem rotateLeft_rotateLeft (hw : 0 < w) :
    (x.rotateLeft a).rotateLeft b = x.rotateLeft (a + b) := by
  -- a rotation to the right undoes both sides
  have hundo : ((x.rotateLeft a).rotateLeft b).rotateRight (b + a) = x := by
    rw [← rotateRight_rotateRight, rotateRight_rotateLeft _ b hw, rotateRight_rotateLeft _ a hw]
  rw [← rotateLeft_rotateRight ((x.rotateLeft a).rotateLeft b) (a + b) hw, Nat.add_comm a b, hundo]

end Words

def Size.extend (s : Size) (x : BitVec s.bits) : UInt32 := ⟨x.setWidth 32⟩

namespace Size

variable (s : Size)

theorem toNat_extend (x : BitVec s.bits) : (s.extend x).toNat = x.toNat := by
  have hlt : x.toNat < 2 ^ 32 := Nat.lt_of_lt_of_le x.isLt (Nat.pow_le_pow_right (by decide) s.bits_le)
  change (x.setWidth 32).toNat = _
  rw [BitVec.toNat_setWidth, Nat.mod_eq_of_lt hlt]

@[simp] theorem trunc_extend (x : BitVec s.bits) : s.trunc (s.extend x) = x := by
  apply BitVec.eq_of_toNat_eq
  rw [toNat_trunc, toNat_extend, Nat.mod_eq_of_lt x.isLt]

theorem extend_trunc (x : UInt32) : s.extend (s.trunc x) = s.low x := by
  rw [← UInt32.toNat_inj, toNat_extend, toNat_trunc, toNat_low]

@[simp] theorem low_low (x : UInt32) : s.low (s.low x) = s.low x := by
  rw [← extend_trunc, trunc_low, extend_trunc]

theorem low_zero : s.low 0 = 0 := by cases s <;> rfl

theorem bit_low (x : UInt32) (n : Nat) : Alu.bit (s.low x) n = (s.trunc x).getLsbD n := by
  rw [Alu.bit, getLsbD_low, getLsbD_trunc]

end Size

namespace Alu

variable (s : Size) (count dst : UInt32) (f : Flags)

variable {s f} in
theorem Yields.result_extend {r : UInt32 × Flags} {x : BitVec s.bits} (h : Yields s f r x)
    (hmasked : s.low r.1 = r.1) : r.1 = s.extend x := by
  rw [← hmasked, ← s.extend_trunc, h.result]

theorem rol_masked : s.low (rol s count dst f).1 = (rol s count dst f).1 := by
  unfold rol finish
  dsimp only
  split <;> rw [s.low_low]

theorem ror_masked : s.low (ror s count dst f).1 = (ror s count dst f).1 := by
  unfold ror finish
  dsimp only
  split <;> rw [s.low_low]

theorem rol_result : (rol s count dst f).1 = s.extend ((s.trunc dst).rotateLeft count.toNat) :=
  (rol_yields s dst count f).result_extend (rol_masked s count dst f)

theorem ror_result : (ror s count dst f).1 = s.extend ((s.trunc dst).rotateRight count.toNat) :=
  (ror_yields s dst count f).result_extend (ror_masked s count dst f)

theorem rol_carry : (rol s count dst f).2.carry =
    (decide (count.toNat % s.bits ≠ 0) && ((s.trunc dst).rotateLeft count.toNat).getLsbD 0) := by
  have hlt : count.toNat % s.bits < s.bits := Nat.mod_lt _ s.bits_pos
  change (decide (0 < count.toNat % s.bits) &&
    bit (s.low dst) (s.bits - count.toNat % s.bits)) = _
  rw [s.bit_low, rotateLeft_eq_rotateRight, getLsbD_rotateRight_around _ _ s.bits_pos, Nat.zero_add]
  by_cases h0 : count.toNat % s.bits = 0
  · rw [h0, decide_eq_false (Nat.lt_irrefl 0), decide_eq_false (not_not_intro rfl), Bool.false_and,
      Bool.false_and]
  · have hmissing : s.bits - count.toNat % s.bits < s.bits := by omega
    rw [decide_eq_true h0, decide_eq_true (Nat.pos_of_ne_zero h0), Nat.mod_eq_of_lt hmissing]

theorem ror_carry : (ror s count dst f).2.carry =
    (decide (count.toNat % s.bits ≠ 0) && ((s.trunc dst).rotateRight count.toNat).msb) := by
  have hlt : count.toNat % s.bits < s.bits := Nat.mod_lt _ s.bits_pos
  have hlast : s.bits - 1 < s.bits := Nat.sub_lt s.bits_pos Nat.one_pos
  change (decide (0 < count.toNat % s.bits) && bit (s.low dst) (count.toNat % s.bits - 1)) = _
  rw [s.bit_low, BitVec.msb_eq_getLsbD_last, getLsbD_rotateRight_around _ _ hlast,
    ← Nat.add_mod_mod]
  by_cases h0 : count.toNat % s.bits = 0
  · rw [h0, decide_eq_false (Nat.lt_irrefl 0), decide_eq_false (not_not_intro rfl), Bool.false_and,
      Bool.false_and]
  · have haround : (s.bits - 1 + count.toNat % s.bits) % s.bits = count.toNat % s.bits - 1 := by
      rw [mod_eq_sub_of_le_of_lt (by omega) (by omega)]
      omega
    rw [decide_eq_true h0, decide_eq_true (Nat.pos_of_ne_zero h0), haround]

/-- Counts that are added as patterns wrap around, by a multiple of every width. -/
theorem toNat_add_mod (s : Size) (a b : UInt32) :
    (a + b).toNat % s.bits = (a.toNat + b.toNat) % s.bits := by
  have hdvd : s.bits ∣ 2 ^ 32 := by cases s <;> decide
  rw [UInt32.toNat_add, Nat.mod_mod_of_dvd _ hdvd]

/-- Rotations at a size undo one another and add up, one to the left is one to the right by what is
missing to the width, and the carry is the bit that has come around the corner last. -/
theorem rotation_laws (s : Size) (a b x : UInt32) (f g : Flags) :
    (ror s a (rol s a x f).1 g).1 = s.low x ∧ (rol s a (ror s a x f).1 g).1 = s.low x ∧
    (rol s b (rol s a x f).1 g).1 = (rol s (a + b) x f).1 ∧
    (ror s b (ror s a x f).1 g).1 = (ror s (a + b) x f).1 ∧
    (rol s a x f).1 = (ror s (UInt32.ofNat (s.bits - a.toNat % s.bits)) x f).1 ∧
    (a.toNat % s.bits ≠ 0 →
      (rol s a x f).2.carry = (rol s a x f).1.toNat.testBit 0 ∧
      (ror s a x f).2.carry = (ror s a x f).1.toNat.testBit (s.bits - 1) ∧
      (ror s a x f).2.carry = (ror s a x f).2.negative) := by
  have hpos := s.bits_pos
  refine ⟨?_, ?_, ?_, ?_, ?_, fun ha => ⟨?_, ?_, ?_⟩⟩
  · rw [ror_result, rol_result, s.trunc_extend, rotateRight_rotateLeft _ _ hpos, s.extend_trunc]
  · rw [rol_result, ror_result, s.trunc_extend, rotateLeft_rotateRight _ _ hpos, s.extend_trunc]
  · rw [rol_result, rol_result, rol_result, s.trunc_extend, rotateLeft_rotateLeft _ _ _ hpos,
      ← BitVec.rotateLeft_mod_eq_rotateLeft (r := (a + b).toNat), toNat_add_mod,
      BitVec.rotateLeft_mod_eq_rotateLeft]
  · rw [ror_result, ror_result, ror_result, s.trunc_extend, rotateRight_rotateRight,
      rotateRight_congr _ (toNat_add_mod s a b)]
  · have hle : s.bits - a.toNat % s.bits ≤ 32 := Nat.le_trans (Nat.sub_le ..) s.bits_le
    have hcount : (UInt32.ofNat (s.bits - a.toNat % s.bits)).toNat = s.bits - a.toNat % s.bits :=
      UInt32.toNat_ofNat_of_lt' (Nat.lt_of_le_of_lt hle (by decide))
    rw [rol_result, ror_result, rotateLeft_eq_rotateRight, hcount]
  · rw [rol_carry, decide_eq_true ha, Bool.true_and, rol_result, s.toNat_extend,
      BitVec.testBit_toNat]
  · rw [ror_carry, decide_eq_true ha, Bool.true_and, ror_result, s.toNat_extend,
      BitVec.testBit_toNat, BitVec.msb_eq_getLsbD_last]
  · rw [ror_carry, decide_eq_true ha, Bool.true_and, (ror_yields s x a f).negative]

/-- A byte with other bits above it, rotated by 9 and by 2^32 - 1, which add up to a whole byte. -/
theorem rotation_laws_wrapped :
    let r := rol .byte 9 0xABCDEF81 {}
    (9 : UInt32).toNat % Size.byte.bits ≠ 0 ∧ r.2.carry = r.1.toNat.testBit 0 ∧
      (ror .byte 9 r.1 {}).1 = 0x81 ∧ (rol .byte 0xFFFFFFFF r.1 {}).1 = 0x81 := by
  have hcount : (9 : UInt32).toNat % Size.byte.bits ≠ 0 := by decide
  obtain ⟨hback, -, hsum, -, -, hcarry⟩ := rotation_laws .byte 9 0xFFFFFFFF 0xABCDEF81 {} {}
  exact ⟨hcount, (hcarry hcount).1, hback, hsum.trans (by decide)⟩

end Alu
end Micro68
