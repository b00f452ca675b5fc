import Mathlib.Algebra.Group.Int.Defs
import Micro68.Proofs.Branches
import Micro68.Proofs.Halting
import Micro68.Proofs.Results

/-! Comparison. The status bits of a difference tell how its operands are ordered, as numbers without
sign by C and as signed numbers by N and V together, even where the difference overflows; so a branch
behind a comparison is taken according to the order of the operands that were compared. -/
namespace Micro68

namespace Alu

namespace Signs

variable {w : Nat} (x y : BitVec w)

def ofDifference (src dst : BitVec w) : Signs := ⟨src.msb, dst.msb, (dst - src).msb⟩

/-- The borrow says that the number without sign that is taken away is the greater one. -/
theorem subCarry_ofDifference : (ofDifference x y).subCarry = decide (y.toNat < x.toNat) := by
  have hx := x.isLt
  have hy := y.isLt
  cases w with
  | zero => simp [BitVec.of_length_zero, ofDifference, subCarry]
  | succ k =>
    simp only [ofDifference, subCarry, BitVec.msb_eq_decide, BitVec.toNat_sub, Nat.add_sub_cancel]
    rw [Nat.pow_succ] at *
    generalize 2 ^ k = half at *
    by_cases hlt : y.toNat < x.toNat
    · -- the difference has wrapped around once
      rw [Nat.mod_eq_of_lt (by omega)]
      grind
    · rw [show half * 2 - x.toNat + y.toNat = y.toNat - x.toNat + half * 2 by omega,
        Nat.add_mod_right, Nat.mod_eq_of_lt (by omega)]
      grind

theorem subOverflow_ofDifference : (ofDifference x y).subOverflow = y.ssubOverflow x := by
  rw [BitVec.ssubOverflow_eq]
  simp only [ofDifference, subOverflow]
  cases x.msb <;> cases y.msb <;> cases (y - x).msb <;> rfl

/-- N differs from V where the signed number that is taken away is the greater one. -/
theorem msb_beq_ssubOverflow : ((y - x).msb == y.ssubOverflow x) = decide (x.toInt ≤ y.toInt) := by
  cases hv : y.ssubOverflow x with
  | false =>
    have hdiff : (y - x).toInt = y.toInt - x.toInt :=
      BitVec.toInt_sub_of_not_ssubOverflow (by simp [hv])
    rw [BitVec.msb_eq_toInt, hdiff]
    grind
  | true =>
    -- only operands of different signs overflow, and then the signs alone order them
    rw [BitVec.ssubOverflow_eq, BitVec.msb_eq_toInt (x := x), BitVec.msb_eq_toInt (x := y)] at hv
    grind

theorem ssubOverflow_eq_decide : y.ssubOverflow x =
    decide (¬(-2 ^ (w - 1) ≤ y.toInt - x.toInt ∧ y.toInt - x.toInt < 2 ^ (w - 1))) := by
  unfold BitVec.ssubOverflow
  grind

end Signs
end Alu

/-- Is the condition of a branch true of a source and a destination? -/
def Opcode.holds {w : Nat} (o : Opcode) (src dst : BitVec w) : Bool :=
  match o with
  | beq => dst = src
  | bcs => dst.toNat < src.toNat
  | bge => src.toInt ≤ dst.toInt
  | ble => dst.toInt < src.toInt
  | bvs => ¬(-2 ^ (w - 1) ≤ dst.toInt - src.toInt ∧ dst.toInt - src.toInt < 2 ^ (w - 1))
  | _ => true

theorem Alu.signs_of_sub (s : Size) (src dst : UInt32) :
    Signs.of s src dst (dst - src) = .ofDifference (s.trunc src) (s.trunc dst) := by
  rw [Signs.of, Signs.ofDifference, s.msb_eq, s.msb_eq, s.msb_eq, s.trunc_sub]

theorem Alu.sub_carry (s : Size) (src dst : UInt32) (f : Flags) :
    (sub s src dst f).2.carry = decide ((s.trunc dst).toNat < (s.trunc src).toNat) := by
  rw [← Signs.subCarry_ofDifference, ← signs_of_sub]
  rfl

theorem Alu.sub_overflow (s : Size) (src dst : UInt32) (f : Flags) :
    (sub s src dst f).2.overflow = (s.trunc dst).ssubOverflow (s.trunc src) := by
  rw [← Signs.subOverflow_ofDifference, ← signs_of_sub]
  rfl

/-- The status bits of a difference say of its operands what the conditions of the branches ask,
whatever is above the size. -/
theorem Alu.taken_sub (o : Opcode) (s : Size) (src dst : UInt32) (f : Flags) :
    Microprogram.taken o (sub s src dst f).2 = o.holds (s.trunc src) (s.trunc dst) := by
  have hy := sub_yields s src dst f
  have hz : (sub s src dst f).2.zero = decide (s.trunc dst = s.trunc src) := by
    rw [hy.zero]
    exact decide_eq_decide.mpr (by simp [BitVec.sub_eq_iff_eq_add])
  have hv := sub_overflow s src dst f
  have hge : (sub s src dst f).2.greaterOrEqual =
      decide ((s.trunc src).toInt ≤ (s.trunc dst).toInt) := by
    rw [Flags.greaterOrEqual, hy.negative, hv, Signs.msb_beq_ssubOverflow]
  unfold Microprogram.taken Opcode.holds
  cases o
  case beq => exact hz
  case bcs => exact sub_carry s src dst f
  case bvs => exact hv.trans (Signs.ssubOverflow_eq_decide ..)
  case bge => exact hge
  case ble => simp [hge, ← decide_not]
  all_goals rfl

/-- The two operands of an instruction, as it finds them: the first one is read first, so that the
second one finds the address registers moved. -/
def Instruction.Reads {κ : Type} (i : Instruction) (s : Datapath κ)
    (src dst : BitVec i.size.bits) : Prop :=
  ∃ l₁ l₂, i.reach .first i.size s.regs.a = .ok l₁ ∧
    i.reach .second i.size (i.advance .first i.size s.regs.a) = .ok l₂ ∧
    src = s.element i.size l₁ ∧
    dst = (s.withPointers (i.advance .first i.size s.regs.a)).element i.size l₂

namespace Microprogram

variable {κ : Type} {s t : Datapath κ} {i : Instruction}

theorem compare_taken (hs : s.adjusted = {}) (h : compare Alu.sub i s = .ok () t) :
    ∃ src dst, i.Reads s src dst ∧ ∀ o, taken o t.regs.flags = o.holds src dst := by
  obtain ⟨l₁, l₂, x, flags, h₁, h₂, hsub, rfl⟩ := compare_ok hs h
  refine ⟨_, _, ⟨l₁, l₂, h₁, ?_, rfl, rfl⟩, fun o => ?_⟩
  · rw [← Datapath.settle_pointers]
    exact h₂
  · rw [← Datapath.trunc_peek_settle h₁, ← Datapath.trunc_peek_second h₂, ← Alu.taken_sub, hsub]
    rfl

end Microprogram

namespace Machine

variable {κ : Type} [Console κ] {m : Machine κ} {i : Instruction}

/-- A branch that follows a comparison decides by the order of the operands that were compared. It
goes to the address in its extension word, or else behind its words, and changes nothing else. -/
theorem branch_after_compare (hrun : m.isHalted = false) (hok : m.toDatapath.cycle.fault = none)
    (hi : m.step.lastInstruction = some i) (hcmp : i.opcode = .cmp) :
    m.step.isHalted = false ∧ ∃ src dst, i.Reads m.toDatapath src dst ∧
      ∀ b, m.step.toDatapath.opcodePhase = .ok b → m.step.toDatapath.fetchFault? = none →
        b.opcode.isBranch = true → b.size = .word → b.isAbsolute .first = true →
        m.step.toDatapath.cycle.fault = none ∧ m.step.takesBranch = b.opcode.holds src dst ∧
        (∃ target, m.step.mem.read .word (m.step.regs.pc + 2) = .ok target ∧
          m.step.step.regs.pc = if b.opcode.holds src dst then target.toUInt16
            else m.step.regs.pc + 2 + UInt16.ofNat (2 * b.extensionWords)) ∧
        m.step.step.regs.flags = m.step.regs.flags ∧ m.step.step.regs.d = m.step.regs.d ∧
        m.step.step.regs.a = m.step.regs.a ∧ m.step.step.mem = m.step.mem := by
  obtain ⟨-, j, pc, -, -, hj, he⟩ := step_executed hrun hok
  obtain rfl : j = i := Option.some.inj (hj.symm.trans hi)
  have hnext : m.step.isHalted = false := by
    rw [← Bool.not_eq_true, step_isHalted hrun]
    rintro (⟨k, -, hhlt, hk, -⟩ | hne)
    · cases hj.symm.trans hk
      cases hcmp.symm.trans hhlt
    · exact hne hok
  simp only [Instruction.execute, hcmp] at he
  obtain ⟨src, dst, hreads, htaken⟩ := Microprogram.compare_taken (by rfl) he
  refine ⟨hnext, src, dst, hreads, fun b hb hfetch hbranch hsize habs => ?_⟩
  obtain ⟨hfault, htakes, target, htarget, hstep⟩ := step_branch hnext hb hfetch hbranch hsize habs
  rw [htaken] at htakes hstep
  refine ⟨hfault, htakes, ⟨target, htarget, ?_⟩, ?_, ?_, ?_, ?_⟩ <;> rw [hstep] <;> rfl

/-- `CMP.W D0,D1` with 1 and -32768, of which the difference overflows, lets `BLE $0040` branch. What
is above the word in D0 does not count. -/
theorem branch_after_compare_overflow :
    let m := holding [0x83, 0x01, 0xBA, 0x60, 0x00, 0x40] { d := #v[0xFFFF0001, 0x8000] }
    m.isHalted = false ∧ m.toDatapath.cycle.fault = none ∧ m.step.takesBranch = true ∧
      m.step.step.regs.pc = 0x40 := by
  intro m
  have hrun : m.isHalted = false := by decide
  have hok : m.toDatapath.cycle.fault = none := by decide +kernel
  have hi : m.step.lastInstruction = some (.full .cmp .word {} { reg := 1 }) := by decide +kernel
  have hb : m.step.toDatapath.opcodePhase = .ok (.unary .ble .word { mode := .absolute }) :=
    Datapath.opcodePhase_eq_ok.mpr (by decide +kernel)
  obtain ⟨-, src, dst, ⟨l₁, l₂, h₁, h₂, hsrc, hdst⟩, h⟩ := branch_after_compare hrun hok hi rfl
  obtain ⟨-, htakes, ⟨target, htarget, hpc⟩, -⟩ := h _ hb (by decide +kernel) rfl rfl rfl
  have hone : src = 1 := by
    cases h₁
    exact hsrc.trans (by decide +kernel)
  have hleast : dst = 0x8000 := by
    cases h₂
    exact hdst.trans (by decide +kernel)
  have hx : m.step.mem.read .word (m.step.regs.pc + 2) = .ok 0x40 :=
    (if_pos (by decide +kernel)).trans (congrArg Except.ok (by decide +kernel))
  have hholds : Opcode.holds .ble src dst = true := by
    rw [hone, hleast]
    decide
  cases hx.symm.trans htarget
  rw [hpc]
  exact ⟨hrun, hok, htakes.trans hholds, if_pos hholds⟩

end Machine
end Micro68
