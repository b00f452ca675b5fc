import Mathlib.Logic.Function.Iterate
import Micro68.Proofs.Rotations

/-! Shifts and rotations one bit at a time. A step moves every bit of a word to the next place and one
bit out of the word, and lets a zero in at the other end, or the bit that moved out. The operations of
the arithmetic unit, which move all bits to their places at once, come to what as many steps come to;
the carry is the bit that moved out last, where a rotation counts only the steps past the last whole
turn. -/
namespace Micro68

/-- A word of some width, and the bit that moved out of it last. -/
structure Moved (w : Nat) where
  word : BitVec w
  out : Bool

namespace Moved

variable {w : Nat}

/-- One step: where it takes a word, and which bit moves out. -/
def step (move : BitVec w → BitVec w) (leaves : BitVec w → Bool) (m : Moved w) : Moved w :=
  ⟨move m.word, leaves m.word⟩

/-- One bit to the left; a zero enters. -/
def left : Moved w → Moved w := step (· <<< 1) BitVec.msb

def right : Moved w → Moved w := step (· >>> 1) (·.getLsbD 0)

/-- Every bit one place to the left, and the highest one to the lowest place. -/
def turnLeft (x : BitVec w) : BitVec w := x <<< 1 ||| (BitVec.ofBool x.msb).setWidth w

def turnRight (x : BitVec w) : BitVec w :=
  x >>> 1 ||| (BitVec.ofBool (x.getLsbD 0)).setWidth w <<< (w - 1)

/-- One bit to the left; the highest bit enters. -/
def aroundLeft : Moved w → Moved w := step turnLeft BitVec.msb

def aroundRight : Moved w → Moved w := step turnRight (·.getLsbD 0)

theorem iterate_step (move : BitVec w → BitVec w) (leaves : BitVec w → Bool)
    (follow : Nat → BitVec w) (hfollow : ∀ n, follow (n + 1) = move (follow n)) (n : Nat) :
    (step move leaves)^[n] ⟨follow 0, false⟩ =
      ⟨follow n, decide (0 < n) && leaves (follow (n - 1))⟩ := by
  induction n with
  | zero => rfl
  | succ n ih =>
    rw [Function.iterate_succ_apply', ih, step, hfollow, Nat.add_sub_cancel,
      decide_eq_true (Nat.succ_pos n), Bool.true_and]

variable (x : BitVec w) (n : Nat)

theorem iterate_left : left^[n] ⟨x, false⟩ =
    ⟨x <<< n, decide (0 < n) && (x <<< (n - 1)).msb⟩ := by
  have h := iterate_step (· <<< 1) BitVec.msb (x <<< ·) (fun n => BitVec.shiftLeft_add x n 1) n
  rwa [BitVec.shiftLeft_zero] at h

theorem iterate_right : right^[n] ⟨x, false⟩ =
    ⟨x >>> n, decide (0 < n) && (x >>> (n - 1)).getLsbD 0⟩ := by
  have h := iterate_step (· >>> 1) (·.getLsbD 0) (x >>> ·) (fun n => BitVec.shiftRight_add x n 1) n
  rwa [BitVec.ushiftRight_zero] at h

theorem rotateLeft_one (hw : 0 < w) : x.rotateLeft 1 = turnLeft x := by
  apply BitVec.eq_of_getLsbD_eq
  intro k hk
  have hmissing : (w - 1 % w) % w = (w - 1) % w := by
    rcases Nat.lt_or_eq_of_le hw with hlt | rfl
    · rw [Nat.mod_eq_of_lt hlt]
    · rfl
  rw [rotateLeft_eq_rotateRight, rotateRight_congr x hmissing, getLsbD_rotateRight_around _ _ hk,
    turnLeft, BitVec.getLsbD_or, BitVec.getLsbD_shiftLeft, BitVec.getLsbD_setWidth,
    BitVec.getLsbD_ofBool]
  cases k with
  | zero =>
    rw [Nat.zero_add, Nat.mod_eq_of_lt (Nat.sub_lt hw Nat.one_pos), BitVec.msb_eq_getLsbD_last]
    simp [hk]
  | succ k =>
    have haround : (k + 1 + (w - 1)) % w = k := by
      rw [show k + 1 + (w - 1) = k + w by omega, Nat.add_mod_right, Nat.mod_eq_of_lt (by omega)]
    rw [haround]
    simp [hk]

theorem rotateRight_one : x.rotateRight 1 = turnRight x := by
  apply BitVec.eq_of_getLsbD_eq
  intro k hk
  rw [getLsbD_rotateRight_around _ _ hk, turnRight, BitVec.getLsbD_or, BitVec.getLsbD_ushiftRight,
    BitVec.getLsbD_shiftLeft, BitVec.getLsbD_setWidth, BitVec.getLsbD_ofBool, Nat.add_comm 1 k]
  by_cases hlast : k + 1 < w
  · have hinside : k < w - 1 := by omega
    rw [Nat.mod_eq_of_lt hlast]
    simp [hinside]
  · obtain rfl : w = k + 1 := by omega
    rw [Nat.mod_self, BitVec.getLsbD_of_ge x (k + 1) (Nat.le_refl _)]
    simp

theorem getLsbD_turnLeft (hw : 0 < w) : (turnLeft x).getLsbD 0 = x.msb := by
  rw [turnLeft, BitVec.getLsbD_or, BitVec.getLsbD_shiftLeft, BitVec.getLsbD_setWidth,
    BitVec.getLsbD_ofBool]
  simp [hw]

theorem msb_turnRight (hw : 0 < w) : (turnRight x).msb = x.getLsbD 0 := by
  have hlast : w - 1 < w := Nat.sub_lt hw Nat.one_pos
  have haround : (w - 1 + 1) % w = 0 := by rw [Nat.sub_add_cancel hw, Nat.mod_self]
  rw [← rotateRight_one, BitVec.msb_eq_getLsbD_last, getLsbD_rotateRight_around _ _ hlast, haround]

theorem iterate_aroundLeft (hw : 0 < w) : aroundLeft^[n] ⟨x, false⟩ =
    ⟨x.rotateLeft n, decide (0 < n) && (x.rotateLeft n).getLsbD 0⟩ := by
  have hfollow (n : Nat) : x.rotateLeft (n + 1) = turnLeft (x.rotateLeft n) := by
    rw [← rotateLeft_one _ hw, rotateLeft_rotateLeft x n 1 hw]
  have h := iterate_step turnLeft BitVec.msb x.rotateLeft hfollow n
  rw [rotateLeft_zero] at h
  refine h.trans ?_
  -- the bit that left in the last step is the one that came in
  cases n with
  | zero => rfl
  | succ n => rw [hfollow, getLsbD_turnLeft _ hw, Nat.add_sub_cancel]

theorem iterate_aroundRight (hw : 0 < w) : aroundRight^[n] ⟨x, false⟩ =
    ⟨x.rotateRight n, decide (0 < n) && (x.rotateRight n).msb⟩ := by
  have hfollow (n : Nat) : x.rotateRight (n + 1) = turnRight (x.rotateRight n) := by
    rw [← rotateRight_one, rotateRight_rotateRight]
  have h := iterate_step turnRight (·.getLsbD 0) x.rotateRight hfollow n
  rw [rotateRight_zero] at h
  refine h.trans ?_
  cases n with
  | zero => rfl
  | succ n => rw [hfollow, msb_turnRight _ hw, Nat.add_sub_cancel]

end Moved

namespace Alu

/-- An outcome is this word of the size, filled up with zeros, with this bit in C: V is clear, Z and N
are the word's, and H stays. -/
structure Leaves (s : Size) (f : Flags) (r : UInt32 × Flags) (x : BitVec s.bits) (out : Bool) :
    Prop where
  result : r.1 = s.extend x
  carry : r.2.carry = out
  overflow : r.2.overflow = false
  zero : r.2.zero = decide (x = 0)
  negative : r.2.negative = x.msb
  halt : r.2.halt = f.halt

variable (s : Size) (count dst : UInt32) (f : Flags)

theorem lsl_masked : s.low (lsl s count dst f).1 = (lsl s count dst f).1 := by
  unfold lsl finish
  dsimp only
  split
  · exact s.low_zero
  · rw [s.low_low]

theorem lsr_masked : s.low (lsr s count dst f).1 = (lsr s count dst f).1 := by
  unfold lsr finish
  dsimp only
  split
  · exact s.low_zero
  · have hlow : (s.low dst).toNat < 2 ^ s.bits := by
      rw [s.toNat_low]
      exact Nat.mod_lt _ (Nat.two_pow_pos _)
    have hle : (s.low dst >>> count).toNat ≤ (s.low dst).toNat := by
      rw [UInt32.toNat_shiftRight, Nat.shiftRight_eq_div_pow]
      exact Nat.div_le_self ..
    rw [← UInt32.toNat_inj, s.toNat_low, Nat.mod_eq_of_lt (Nat.lt_of_le_of_lt hle hlow)]

variable {s f} in
theorem Yields.leaves {r : UInt32 × Flags} {x : BitVec s.bits} {out : Bool} (h : Yields s f r x)
    (hmasked : s.low r.1 = r.1) (hcarry : r.2.carry = out) (hoverflow : r.2.overflow = false) :
    Leaves s f r x out :=
  ⟨h.result_extend hmasked, hcarry, hoverflow, h.zero, h.negative, h.halt⟩

theorem lsl_carry : (lsl s count dst f).2.carry =
    (decide (0 < count.toNat) && (s.trunc dst <<< (count.toNat - 1)).msb) := by
  change (decide (0 < count.toNat) && decide (count.toNat ≤ s.bits) &&
    bit (s.low dst) (s.bits - count.toNat)) = _
  rw [s.bit_low, Bool.and_assoc]
  by_cases h0 : 0 < count.toNat
  · have hlast : s.bits - 1 < s.bits := Nat.sub_lt s.bits_pos Nat.one_pos
    -- once all bits of the word have left, zeros leave
    have hinside : count.toNat ≤ s.bits ↔ ¬ s.bits - 1 < count.toNat - 1 := by omega
    have hplace : s.bits - 1 - (count.toNat - 1) = s.bits - count.toNat := by omega
    rw [BitVec.msb_eq_getLsbD_last, BitVec.getLsbD_shiftLeft, decide_eq_true hlast, Bool.true_and,
      hplace, decide_eq_decide.mpr hinside, decide_not]
  · rw [decide_eq_false h0, Bool.false_and, Bool.false_and]

theorem lsr_carry : (lsr s count dst f).2.carry =
    (decide (0 < count.toNat) && (s.trunc dst >>> (count.toNat - 1)).getLsbD 0) := by
  change (decide (0 < count.toNat) && bit (s.low dst) (count.toNat - 1)) = _
  rw [s.bit_low, BitVec.getLsbD_ushiftRight, Nat.add_zero]

/-- What is done to a masked pattern is done to every pattern with the same low bits. -/
theorem masked_congr {op : AluOp} (hop : op ∈ [lsl, lsr, rol, ror]) :
    op s count dst f = op s count (s.low dst) f := by
  simp only [List.mem_cons, List.not_mem_nil, or_false] at hop
  rcases hop with rfl | rfl | rfl | rfl
  · rw [lsl, lsl, s.low_low]
  · rw [lsr, lsr, s.low_low]
  · rw [rol, rol, s.low_low]
  · rw [ror, ror, s.low_low]

/-- What four operations come to step by step: to shift is to let a zero in as often as the count says,
to rotate is to let in what leaves. No bit above the size takes part. -/
theorem shifts_iterate (s : Size) (count dst : UInt32) (f : Flags) :
    let n := count.toNat
    let start : Moved s.bits := ⟨s.trunc dst, false⟩
    Leaves s f (lsl s count dst f) (Moved.left^[n] start).word (Moved.left^[n] start).out ∧
    Leaves s f (lsr s count dst f) (Moved.right^[n] start).word (Moved.right^[n] start).out ∧
    Leaves s f (rol s count dst f) (Moved.aroundLeft^[n] start).word
      (Moved.aroundLeft^[n % s.bits] start).out ∧
    Leaves s f (ror s count dst f) (Moved.aroundRight^[n] start).word
      (Moved.aroundRight^[n % s.bits] start).out ∧
    ∀ op ∈ [lsl, lsr, rol, ror], ∀ dst', s.trunc dst' = s.trunc dst →
      op s count dst' f = op s count dst f := by
  intro n start
  have hpos := s.bits_pos
  refine ⟨?_, ?_, ?_, ?_, fun op hop dst' hsame => ?_⟩
  · rw [Moved.iterate_left]
    exact (lsl_yields s dst count f).leaves (lsl_masked ..) (lsl_carry ..) rfl
  · rw [Moved.iterate_right]
    exact (lsr_yields s dst count f).leaves (lsr_masked ..) (lsr_carry ..) rfl
  · have hout : (rol s count dst f).2.carry =
        (decide (0 < n % s.bits) && ((s.trunc dst).rotateLeft (n % s.bits)).getLsbD 0) := by
      rw [rol_carry, BitVec.rotateLeft_mod_eq_rotateLeft, decide_eq_decide.mpr Nat.pos_iff_ne_zero]
    rw [Moved.iterate_aroundLeft _ _ hpos, Moved.iterate_aroundLeft _ _ hpos]
    exact (rol_yields s dst count f).leaves (rol_masked ..) hout rfl
  · have hout : (ror s count dst f).2.carry =
        (decide (0 < n % s.bits) && ((s.trunc dst).rotateRight (n % s.bits)).msb) := by
      rw [ror_carry, BitVec.rotateRight_mod_eq_rotateRight,
        decide_eq_decide.mpr Nat.pos_iff_ne_zero]
    rw [Moved.iterate_aroundRight _ _ hpos, Moved.iterate_aroundRight _ _ hpos]
    exact (ror_yields s dst count f).leaves (ror_masked ..) hout rfl
  · rw [masked_congr s count dst' f hop, masked_congr s count dst f hop, ← s.extend_trunc, hsame,
      s.extend_trunc]

/-- A byte under other bits: 9 steps leave nothing of it when shifted, and turn it by one place. -/
theorem shifts_iterate_dirty :
    Size.byte.trunc 0x12345601 = Size.byte.trunc 1 ∧
      lsl .byte 9 0x12345601 {} = lsl .byte 9 1 {} ∧ (lsl .byte 9 1 {}).1 = 0 ∧
      rol .byte 9 0x12345601 {} = rol .byte 9 1 {} ∧ (rol .byte 9 1 {}).1 = 2 := by
  have hlow : Size.byte.trunc 0x12345601 = Size.byte.trunc 1 := by decide
  obtain ⟨hshift, -, hturn, -, hsame⟩ := shifts_iterate .byte 9 1 {}
  exact ⟨hlow, hsame lsl (by simp) _ hlow, hshift.result.trans (by decide),
    hsame rol (by simp) _ hlow, hturn.result.trans (by decide)⟩

end Alu
end Micro68
