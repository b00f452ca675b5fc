import Micro68.Proofs.FaultCauses

/-! Division. A long is divided by a word into a quotient and a remainder of a word each. The machine
makes a negative divisor positive by negating both numbers, in 32 bits, where the least dividend has no
negation: its quotient comes out with the wrong sign, but is so large that V is set, as it is for the
exact one. Nothing else can go wrong, since the divisor of every division inside is positive. -/
namespace Micro68

@[simp] theorem Size.low_long (x : UInt32) : Size.long.low x = x := by
  rw [← UInt32.toNat_inj, Size.toNat_low]
  exact Nat.mod_eq_of_lt x.toNat_lt

namespace Alu

def signed? (n : Int) : Option Int32 :=
  if Int32.minValue.toInt ≤ n ∧ n ≤ Int32.maxValue.toInt then some (Int32.ofInt n) else none

/-- The quotient of a division that neither overflows nor divides by zero. -/
def quotient? (x y : Int32) : Option Int32 :=
  if y.toInt = 0 then none else signed? (x.toInt.tdiv y.toInt)

def remainder? (x y : Int32) : Option Int32 := do
  let _ ← quotient? x y
  signed? (x.toInt.tmod y.toInt)

/-- `divide`, of which every step must be exact but the negation of the dividend, which wraps around. -/
def divide? (divisor dividend : Int32) : Option (Int32 × Int32) :=
  if divisor < 0 then do
    let positive ← signed? (-divisor.toInt)
    let q ← quotient? (-dividend) positive
    return (q, ← remainder? (if q = 0 then dividend else -dividend) positive)
  else return (← quotient? dividend divisor, ← remainder? dividend divisor)

def FitsWord (n : Int) : Prop := -32768 ≤ n ∧ n ≤ 32767

instance (n : Int) : Decidable (FitsWord n) := inferInstanceAs (Decidable (_ ∧ _))

/-- What is left of a division: less than the divisor, with the sign of the dividend, or the other sign
if both numbers were negated, which shows where the quotient is not zero. -/
structure IsRemainder (dividend divisor quotient remainder : Int) : Prop where
  small : remainder.natAbs < divisor.natAbs
  ahead : 0 < divisor ∨ quotient = 0 →
    dividend = quotient * divisor + remainder ∧ (remainder = 0 ∨ remainder.sign = dividend.sign)
  turned : divisor < 0 → quotient ≠ 0 →
    dividend = quotient * divisor - remainder ∧ (remainder = 0 ∨ remainder.sign = -dividend.sign)

/-- An outcome is right for a division of integers: V says that the quotient does not fit into a word,
and if it does, it is the low word, and the remainder is the high word. -/
structure Divides (dividend divisor : Int) (f : Flags) (r : UInt32 × Flags) : Prop where
  overflow : r.2.overflow = true ↔ ¬FitsWord (dividend.tdiv divisor)
  carry : r.2.carry = false
  quotient : r.2.overflow = false → (Size.word.trunc r.1).toInt = dividend.tdiv divisor
  remainder : r.2.overflow = false →
    IsRemainder dividend divisor (dividend.tdiv divisor) (Size.word.trunc (r.1 >>> 16)).toInt
  zero : r.2.zero = true ↔ r.1 = 0
  negative : r.2.negative = r.1.toNat.testBit 31
  halt : r.2.halt = f.halt

theorem isRemainder_tmod (dividend : Int) {divisor : Int} (hzero : divisor ≠ 0) :
    IsRemainder dividend divisor (dividend.tdiv divisor)
      (if 0 < divisor ∨ dividend.tdiv divisor = 0 then dividend.tmod divisor
        else -dividend.tmod divisor) := by
  have hsmall : (dividend.tmod divisor).natAbs < divisor.natAbs := by
    rw [Int.natAbs_tmod]
    exact Nat.mod_lt _ (Int.natAbs_pos.mpr hzero)
  have hsum := Int.tdiv_mul_add_tmod dividend divisor
  have hsign : dividend.tmod divisor = 0 ∨ (dividend.tmod divisor).sign = dividend.sign := by
    rw [Int.sign_tmod]
    split
    · exact .inl (Int.tmod_eq_zero_of_dvd ‹_›)
    · exact .inr rfl
  split
  · rename_i h
    exact ⟨hsmall, fun _ => ⟨by omega, hsign⟩, fun hneg hq => absurd h (by omega)⟩
  · rename_i h
    refine ⟨by rwa [Int.natAbs_neg], fun h' => absurd h' h, fun _ _ => ⟨by omega, ?_⟩⟩
    rw [Int.neg_eq_zero, Int.sign_neg, Int.neg_inj]
    exact hsign

theorem fitsWord_toInt (x : BitVec Size.word.bits) : FitsWord x.toInt := by
  have hle : -2 ^ 15 ≤ x.toInt := BitVec.le_toInt x
  have hlt : x.toInt < 2 ^ 15 := BitVec.toInt_lt
  exact ⟨hle, by omega⟩

theorem toInt_ofInt_word (x : BitVec Size.word.bits) : (Int32.ofInt x.toInt).toInt = x.toInt := by
  obtain ⟨hle, hlt⟩ := fitsWord_toInt x
  exact Int32.toInt_ofInt_of_le (by omega) (by omega)

theorem toInt_signExtendWord (x : UInt32) : (signExtendWord x).toInt = (Size.word.trunc x).toInt :=
  Int16.toInt_toInt32 _

@[simp] theorem signed?_toInt (x : Int32) : signed? x.toInt = some x := by
  rw [signed?, if_pos ⟨x.minValue_le_toInt, x.toInt_le⟩, Int32.ofInt_toInt]

section Positive

variable {x y : Int32}

theorem toInt_div_of_pos (hy : 0 < y.toInt) : (x / y).toInt = x.toInt.tdiv y.toInt := by
  refine Int32.toInt_div_of_ne_right x y ?_
  rintro rfl
  exact absurd hy (by decide)

theorem quotient?_of_pos (hy : 0 < y.toInt) : quotient? x y = some (x / y) := by
  rw [quotient?, if_neg (by omega), ← toInt_div_of_pos hy, signed?_toInt]

theorem remainder?_of_pos (hy : 0 < y.toInt) : remainder? x y = some (x % y) := by
  rw [remainder?, quotient?_of_pos hy, ← Int32.toInt_mod]
  exact signed?_toInt _

end Positive

section Word

variable {divisor : Int32} (dividend : Int32)

theorem toInt_neg_of_word (hword : FitsWord divisor.toInt) (hneg : divisor.toInt < 0) :
    (-divisor).toInt = -divisor.toInt := by
  have hleast := hword.1
  rw [Int32.toInt_neg, Int.bmod_eq_of_le (by omega) (by omega)]

variable {dividend} in
theorem toInt_neg_of_ne (h : dividend ≠ Int32.minValue) : (-dividend).toInt = -dividend.toInt := by
  have hle := dividend.le_toInt
  have hlt := dividend.toInt_lt
  have hne : dividend.toInt ≠ -2 ^ 31 := fun he => h (Int32.toInt_inj.mp he)
  rw [Int32.toInt_neg, Int.bmod_eq_of_le (by omega) (by omega)]

/-- No division by a word other than zero goes wrong inside. -/
theorem divide?_eq (hword : FitsWord divisor.toInt) (hzero : divisor.toInt ≠ 0) :
    divide? divisor dividend = some (divide divisor dividend) := by
  by_cases hneg : divisor < 0
  · have hsign : divisor.toInt < 0 := Int32.lt_iff_toInt_lt.mp hneg
    have hflip := toInt_neg_of_word hword hsign
    have hpos : 0 < (-divisor).toInt := by omega
    rw [divide?, if_pos hneg, ← hflip, signed?_toInt, divide, if_pos hneg]
    simp only [Option.bind_eq_bind, Option.bind_some, quotient?_of_pos hpos, remainder?_of_pos hpos]
    split <;> rfl
  · have hsign : ¬divisor.toInt < 0 := fun h => hneg (Int32.lt_iff_toInt_lt.mpr h)
    have hpos : 0 < divisor.toInt := by omega
    rw [divide?, if_neg hneg, divide, if_neg hneg, quotient?_of_pos hpos, remainder?_of_pos hpos]
    rfl

variable {dividend} in
theorem divide_negative (hword : FitsWord divisor.toInt) (hneg : divisor.toInt < 0)
    (hleast : dividend ≠ Int32.minValue) :
    (divide divisor dividend).1.toInt = dividend.toInt.tdiv divisor.toInt ∧
    (divide divisor dividend).2.toInt = if dividend.toInt.tdiv divisor.toInt = 0
      then dividend.toInt.tmod divisor.toInt else -dividend.toInt.tmod divisor.toInt := by
  have hflip := toInt_neg_of_word hword hneg
  have hpos : 0 < (-divisor).toInt := by omega
  have hq : (-dividend / -divisor).toInt = dividend.toInt.tdiv divisor.toInt := by
    rw [toInt_div_of_pos hpos, hflip, toInt_neg_of_ne hleast, Int.neg_tdiv_neg]
  have hzero : -dividend / -divisor = 0 ↔ dividend.toInt.tdiv divisor.toInt = 0 := by
    rw [← hq, ← Int32.toInt_inj]
    rfl
  rw [divide, if_pos (Int32.lt_iff_toInt_lt.mpr hneg)]
  refine ⟨hq, ?_⟩
  simp only [hzero]
  split
  · rw [Int32.toInt_mod, hflip, Int.tmod_neg]
  · rw [Int32.toInt_mod, hflip, toInt_neg_of_ne hleast, Int.tmod_neg, Int.neg_tmod]

theorem divide_positive (hpos : 0 < divisor.toInt) :
    (divide divisor dividend).1.toInt = dividend.toInt.tdiv divisor.toInt ∧
    (divide divisor dividend).2.toInt = dividend.toInt.tmod divisor.toInt := by
  have hsign : ¬divisor < 0 := by
    rw [Int32.lt_iff_toInt_lt]
    exact Int.not_lt.mpr (Int.le_of_lt hpos)
  rw [divide, if_neg hsign]
  exact ⟨toInt_div_of_pos hpos, Int32.toInt_mod ..⟩

/-- The least dividend by a negative word: the quotient has the wrong sign, and no room either way. -/
theorem divide_least (hword : FitsWord divisor.toInt) (hneg : divisor.toInt < 0) :
    ¬FitsWord (divide divisor Int32.minValue).1.toInt ∧
    ¬FitsWord (Int32.minValue.toInt.tdiv divisor.toInt) := by
  have hflip := toInt_neg_of_word hword hneg
  have hpos : 0 < (-divisor).toInt := by omega
  have hleast := hword.1
  have hlarge : 65536 ≤ (2 ^ 31 : Int).tdiv (-divisor.toInt) := by
    rw [Int.tdiv_eq_ediv_of_nonneg (by decide), Int.le_ediv_iff_mul_le (by omega)]
    omega
  have hq : (divide divisor Int32.minValue).1.toInt = -(2 ^ 31 : Int).tdiv (-divisor.toInt) := by
    rw [divide, if_pos (Int32.lt_iff_toInt_lt.mpr hneg)]
    dsimp only
    rw [toInt_div_of_pos hpos, hflip, ← Int.neg_tdiv]
    rfl
  have hexact : Int32.minValue.toInt.tdiv divisor.toInt = (2 ^ 31 : Int).tdiv (-divisor.toInt) := by
    rw [Int.tdiv_neg, ← Int.neg_tdiv]
    rfl
  rw [hq, hexact]
  unfold FitsWord
  omega

/-- A quotient fits where the exact one does, and is then exact, and the remainder belongs to it. -/
theorem divide_fits (hword : FitsWord divisor.toInt) (hzero : divisor.toInt ≠ 0) :
    (FitsWord (divide divisor dividend).1.toInt ↔
      FitsWord (dividend.toInt.tdiv divisor.toInt)) ∧
    (FitsWord (dividend.toInt.tdiv divisor.toInt) →
      (divide divisor dividend).1.toInt = dividend.toInt.tdiv divisor.toInt ∧
      IsRemainder dividend.toInt divisor.toInt (dividend.toInt.tdiv divisor.toInt)
        (divide divisor dividend).2.toInt) := by
  have hrem := isRemainder_tmod dividend.toInt hzero
  by_cases hneg : divisor.toInt < 0
  · -- the least dividend is its own negation, so only the size of its quotient is known
    by_cases hleast : dividend = Int32.minValue
    · subst hleast
      obtain ⟨hout, hexact⟩ := divide_least hword hneg
      exact ⟨iff_of_false hout hexact, fun h => absurd h hexact⟩
    · obtain ⟨hq, hr⟩ := divide_negative hword hneg hleast
      rw [hq]
      refine ⟨Iff.rfl, fun _ => ⟨rfl, ?_⟩⟩
      rw [hr]
      simpa only [Int.not_lt.mpr (Int.le_of_lt hneg), false_or] using hrem
  · obtain ⟨hq, hr⟩ := divide_positive dividend (show 0 < divisor.toInt by omega)
    rw [hq]
    refine ⟨Iff.rfl, fun _ => ⟨rfl, ?_⟩⟩
    rw [hr]
    rwa [if_pos (.inl (by omega))] at hrem

end Word

section Pack

variable (quotient remainder : Int32) (f : Flags)

theorem trunc_packQuotient : Size.word.trunc (packQuotient quotient remainder f).1 =
    Size.word.trunc quotient.toUInt32 := by
  change Size.word.trunc (remainder.toUInt32 <<< 16 ||| Size.word.low quotient.toUInt32) = _
  rw [Size.trunc_or, Size.trunc_low, Size.trunc_shiftLeft _ (by decide),
    BitVec.shiftLeft_eq_zero (by decide), BitVec.zero_or]

theorem trunc_packQuotient_high : Size.word.trunc ((packQuotient quotient remainder f).1 >>> 16) =
    Size.word.trunc remainder.toUInt32 := by
  have hword : ((packQuotient quotient remainder f).1 >>> 16).toBitVec =
      (remainder.toBitVec <<< 16 ||| (Size.word.low quotient.toUInt32).toBitVec) >>> 16 := rfl
  apply BitVec.eq_of_getLsbD_eq
  intro k hk
  have hk32 : 16 + k < 32 := by
    change k < 16 at hk
    omega
  have hk16 : ¬16 + k < 16 := by omega
  rw [Size.getLsbD_trunc, Size.getLsbD_trunc, hword, BitVec.getLsbD_ushiftRight, BitVec.getLsbD_or,
    BitVec.getLsbD_shiftLeft, Size.getLsbD_low]
  simp [hk32, hk16]

theorem toInt_trunc_word (x : Int32) :
    (Size.word.trunc x.toUInt32).toInt = x.toInt.bmod (2 ^ 16) := by
  change (x.toBitVec.setWidth 16).toInt = _
  rw [BitVec.toInt_setWidth, ← Int.bmod_bmod_of_dvd (show 2 ^ 16 ∣ 2 ^ 32 by decide),
    ← BitVec.toInt_eq_toNat_bmod, Int32.toInt_toBitVec]

theorem toInt_trunc_of_fits {x : Int32} (h : FitsWord x.toInt) :
    (Size.word.trunc x.toUInt32).toInt = x.toInt := by
  unfold FitsWord at h
  rw [toInt_trunc_word]
  exact Int.bmod_eq_of_le (by omega) (by omega)

theorem packQuotient_overflow :
    (packQuotient quotient remainder f).2.overflow = true ↔ ¬FitsWord quotient.toInt := by
  change (decide (quotient < -32768) || decide (32767 < quotient)) = true ↔ _
  rw [Bool.or_eq_true, decide_eq_true_eq, decide_eq_true_eq, Int32.lt_iff_toInt_lt,
    Int32.lt_iff_toInt_lt, FitsWord]
  change quotient.toInt < -32768 ∨ 32767 < quotient.toInt ↔ _
  omega

end Pack

theorem packQuotient_divides {divisor : Int32} (dividend : Int32) (hword : FitsWord divisor.toInt)
    (hzero : divisor.toInt ≠ 0) (f : Flags) : Divides dividend.toInt divisor.toInt f
      (packQuotient (divide divisor dividend).1 (divide divisor dividend).2 f) := by
  obtain ⟨hfits, hexact⟩ := divide_fits dividend hword hzero
  have hv := packQuotient_overflow (divide divisor dividend).1 (divide divisor dividend).2 f
  have hclear : (packQuotient (divide divisor dividend).1 (divide divisor dividend).2 f).2.overflow =
      false → FitsWord (dividend.toInt.tdiv divisor.toInt) := by
    intro hclear
    rw [hclear, hfits] at hv
    by_contra hout
    exact absurd (hv.mpr hout) (by decide)
  refine ⟨by rw [hv, hfits], rfl, fun h => ?_, fun h => ?_, ?_, rfl, rfl⟩
  · rw [trunc_packQuotient, toInt_trunc_of_fits (hfits.mpr (hclear h)), (hexact (hclear h)).1]
  · have hrem := (hexact (hclear h)).2
    have hsmall : FitsWord (divide divisor dividend).2.toInt := by
      have hlt := hrem.small
      unfold FitsWord at hword ⊢
      omega
    rwa [trunc_packQuotient_high, toInt_trunc_of_fits hsmall]
  · change (Size.long.low _ == 0) = true ↔ _
    rw [beq_iff_eq, Size.low_long]
    rfl

end Alu

namespace Microprogram

variable {κ : Type} {s : Datapath κ} {i : Instruction} {dst : Operand} {l : Location}

theorem divide_dataRegister (hs : s.adjusted = {}) (hsize : i.size = .long)
    (hdst : i.operand? .second = some dst) (hmode : dst.mode = .dataRegister)
    (hl : i.reach .first .word s.regs.a = .ok l) :
    divide i s =
      let divisor := Int32.ofInt (s.element .word l).toInt
      if divisor = 0 then .error .divisionByZero (s.settle i .first .word) else
        let q := Alu.divide divisor (s.regs.d.get dst.index).toInt32
        let r := Alu.packQuotient q.1 q.2 s.regs.flags
        .ok () (((s.settle i .first .word).setFlags r.2).poke .long r.1 (.data dst.index)) := by
  have hreg : dst.mode.isRegister = true := by rw [hmode]; rfl
  have hplace : dst.register = .data dst.index := if_pos hmode
  have hdivisor : Alu.signExtendWord ((s.settle i .first .word).peek .word l) =
      Int32.ofInt (s.element .word l).toInt := by
    rw [← Datapath.element_settle hl, ← Datapath.trunc_peek, ← Alu.toInt_signExtendWord,
      Int32.ofInt_toInt]
  have hdividend : (s.settle i .first .word).peek .long (.data dst.index) =
      s.regs.d.get dst.index := by
    rw [Datapath.peek, Size.low_long, Datapath.settle_d]
  rw [divide_run hs, if_pos hsize, hl, Instruction.reach_register hdst hreg, hplace]
  simp only [Datapath.settleBoth, Datapath.settle_register hdst hreg, hdivisor, hdividend]

end Microprogram

namespace Datapath

variable {κ : Type}

theorem poke_long_data (s : Datapath κ) (x : UInt32) (n : Fin 2) :
    (s.poke .long x (.data n)).regs.d = s.regs.d.set n x n.isLt := by
  have hnone : ∀ y : UInt32, y &&& ~~~Size.long.mask = 0 := by
    intro y
    change y &&& 0 = 0
    exact UInt32.and_zero
  rw [poke, Registers.setD, hnone, Size.low_long, UInt32.zero_or]

variable [Console κ] {s : Datapath κ} {i : Instruction} {dst : Operand} {l : Location}

theorem cycle_division (hrun : s.regs.flags.halt = false) (hi : s.cycle.instruction = some i)
    (hfetch : s.fetchFault? = none) (ho : i.opcode = .divs) (hsize : i.size = .long)
    (hdst : i.operand? .second = some dst) (hmode : dst.mode = .dataRegister)
    (hl : i.reach .first .word s.regs.a = .ok l) :
    let divisor := Int32.ofInt (s.element .word l).toInt
    let q := Alu.divide divisor (s.regs.d.get dst.index).toInt32
    let r := Alu.packQuotient q.1 q.2 s.regs.flags
    (divisor = 0 → s.cycle.fault = some .divisionByZero ∧ s.cycle.state.regs.d = s.regs.d ∧
      s.cycle.state.regs.flags = s.regs.flags) ∧
    (divisor ≠ 0 → s.cycle.fault = none ∧ s.cycle.state.regs.d = s.regs.d.set dst.index r.1 ∧
      s.cycle.state.regs.flags = r.2) := by
  intro divisor q r
  obtain ⟨pc, hend⟩ := cycle_executes hrun hi hfetch
  have he : i.execute (s.begin.jump pc) = Microprogram.divide i (s.begin.jump pc) := by
    rw [Instruction.execute, ho]
  have helement : (s.begin.jump pc).element .word l = s.element .word l :=
    element_congr rfl rfl rfl .word l
  have hfirst : i.reach .first .word (s.begin.jump pc).regs.a = .ok l := hl
  rw [Microprogram.divide_dataRegister rfl hsize hdst hmode hfirst, helement, jump_d, jump_flags,
    begin_regs] at he
  refine ⟨fun hzero => ?_, fun hzero => ?_⟩
  · rw [if_pos hzero] at he
    rcases hend with ⟨hok, -⟩ | ⟨f, herror, hf⟩
    · cases hok.symm.trans he
    · obtain ⟨rfl, hstate⟩ := EStateM.Result.error.inj (herror.symm.trans he)
      rw [hstate, settle_d, settle_flags]
      exact ⟨hf, rfl, rfl⟩
  · rw [if_neg hzero] at he
    rcases hend with ⟨hok, hf⟩ | ⟨f, herror, -⟩
    · obtain ⟨-, hstate⟩ := EStateM.Result.ok.inj (hok.symm.trans he)
      refine ⟨hf, ?_, ?_⟩
      · rw [hstate, poke_long_data, setFlags_d, settle_d]
        rfl
      · rw [hstate, poke_flags, setFlags_flags]
    · cases herror.symm.trans he

end Datapath

namespace Machine

variable {κ : Type} [Console κ] {m : Machine κ} {i : Instruction} {dst : Operand} {l : Location}

/-- Division of a data register as a whole. It faults exactly if the divisor is zero, and then keeps the
data registers and all status bits but H; otherwise every division inside is exact, and quotient and
remainder are those of the integers, with V where the quotient needs more than a word. -/
theorem step_division (hrun : m.isHalted = false) (hi : m.step.lastInstruction = some i)
    (hfetch : m.toDatapath.fetchFault? = none) (ho : i.opcode = .divs) (hsize : i.size = .long)
    (hdst : i.operand? .second = some dst) (hmode : dst.mode = .dataRegister)
    (hl : i.reach .first .word m.regs.a = .ok l) :
    let divisor := (m.toDatapath.element .word l).toInt
    let dividend := (m.regs.d.get dst.index).toInt32.toInt
    (m.toDatapath.cycle.fault = if divisor = 0 then some .divisionByZero else none) ∧
    (divisor = 0 → m.step.lastFault = some ⟨.divisionByZero, some .divs, m.regs.pc⟩ ∧
      m.step.regs.d = m.regs.d ∧ m.step.regs.flags = m.regs.flags.setHalt) ∧
    (divisor ≠ 0 → ∃ q r x, Alu.divide? (.ofInt divisor) (.ofInt dividend) = some (q, r) ∧
      Alu.packQuotient q r m.regs.flags = (x, m.step.regs.flags) ∧
      m.step.regs.d = m.regs.d.set dst.index x ∧
      Alu.Divides dividend divisor m.regs.flags (x, m.step.regs.flags)) := by
  intro divisor dividend
  have hc : m.toDatapath.cycle.instruction = some i := by rw [← step_lastInstruction hrun, hi]
  have hvalue : (Int32.ofInt divisor).toInt = divisor := Alu.toInt_ofInt_word _
  have hword : Alu.FitsWord (Int32.ofInt divisor).toInt := by
    rw [hvalue]
    exact Alu.fitsWord_toInt _
  have hzero : Int32.ofInt divisor = 0 ↔ divisor = 0 := by
    rw [← Int32.toInt_inj, hvalue]
    rfl
  obtain ⟨hfault, hdivide⟩ := Datapath.cycle_division hrun hc hfetch ho hsize hdst hmode hl
  by_cases h : divisor = 0
  · obtain ⟨hf, hd, hflags⟩ := hfault (hzero.mpr h)
    refine ⟨by rw [hf, if_pos h], fun _ => ?_, fun h' => absurd h h'⟩
    rw [step_of_fault hrun hf, hc]
    exact ⟨by rw [← ho]; rfl, hd, by rw [← hflags]; rfl⟩
  · obtain ⟨hf, hd, hflags⟩ := hdivide fun h' => h (hzero.mp h')
    refine ⟨by rw [hf, if_neg h], fun h' => absurd h' h, fun _ => ?_⟩
    have hne : (Int32.ofInt divisor).toInt ≠ 0 := by rwa [hvalue]
    have hdivides := Alu.packQuotient_divides (m.regs.d.get dst.index).toInt32 hword hne
      m.regs.flags
    rw [hvalue] at hdivides
    rw [step_of_ok hrun hf, hflags]
    refine ⟨_, _, _, ?_, rfl, hd, hdivides⟩
    rw [Int32.ofInt_toInt]
    exact Alu.divide?_eq _ hword hne

/-- `DIVS.L D0,D1` with -2 and 7 stores -3 and the remainder -1, which has the sign of -7. -/
theorem step_division_turned :
    let m := holding [0x2D, 0x01] { d := #v[0xFFFE, 7] }
    m.isHalted = false ∧ m.toDatapath.fetchFault? = none ∧ m.toDatapath.cycle.fault = none ∧
      m.step.regs.d = #v[0xFFFE, 0xFFFFFFFD] ∧ m.step.regs.flags = { negative := true } := by
  intro m
  have hrun : m.isHalted = false := by decide
  have hfetch : m.toDatapath.fetchFault? = none := by decide +kernel
  have hi : m.step.lastInstruction = some (.full .divs .long {} { reg := 1 }) := by decide +kernel
  have hdivisor : (m.toDatapath.element .word (.data 0)).toInt = -2 := by decide +kernel
  obtain ⟨hfault, -, hstep⟩ := step_division hrun hi hfetch rfl rfl rfl rfl (l := .data 0) rfl
  rw [hdivisor] at hfault hstep
  obtain ⟨q, r, x, hdivide, hpack, hd, -⟩ := hstep (by decide)
  have hq : Alu.divide? (.ofInt (-2)) (.ofInt 7) = some (-3, -1) := by decide +kernel
  obtain ⟨rfl, rfl⟩ := Prod.mk.inj (Option.some.inj (hq.symm.trans hdivide))
  obtain ⟨rfl, hflags⟩ := Prod.mk.inj hpack
  refine ⟨hrun, hfetch, hfault, hd.trans (by decide +kernel), ?_⟩
  rw [← hflags]
  decide +kernel

end Machine
end Micro68
