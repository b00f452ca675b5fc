import Mathlib.Algebra.Group.Nat.Defs
import Micro68.Instruction.Encoding

/-! Decoding: which words are opcode words. -/
namespace Micro68

namespace Instruction

theorem toNat_bitField (word : UInt16) (first last : Nat) (h : last + 1 - first ≤ 16) :
    (bitField word first last).toNat = word.toNat / 2 ^ first % 2 ^ (last + 1 - first) := by
  rw [bitField, Nat.shiftRight_eq_div_pow, Nat.one_shiftLeft]
  exact UInt16.toNat_ofNat_of_lt' (Nat.lt_of_lt_of_le (Nat.mod_lt _ (Nat.two_pow_pos _))
    (Nat.pow_le_pow_right (by decide) h))

theorem toNat_bitField_toUInt8 (word : UInt16) (first last : Nat) (h : last + 1 - first ≤ 8) :
    (bitField word first last).toUInt8.toNat = word.toNat / 2 ^ first % 2 ^ (last + 1 - first) := by
  have hlt : word.toNat / 2 ^ first % 2 ^ (last + 1 - first) < 2 ^ 8 :=
    Nat.lt_of_lt_of_le (Nat.mod_lt _ (Nat.two_pow_pos _)) (Nat.pow_le_pow_right (by decide) h)
  rw [UInt16.toNat_toUInt8, toNat_bitField word first last (by omega), Nat.mod_eq_of_lt hlt]

/-- The field of the operand count is one bit, so the check of the count never fails. -/
theorem checkOperandCount_bitField (word : UInt16) :
    checkOperandCount ((bitField word 8 8).toUInt8 + 1) = .ok () := by
  have hbit : (bitField word 8 8).toUInt8.toNat < 2 := by
    rw [toNat_bitField_toUInt8 word 8 8 (by decide)]
    exact Nat.mod_lt _ (by decide)
  have hcount : ((bitField word 8 8).toUInt8 + 1).toNat = (bitField word 8 8).toUInt8.toNat + 1 := by
    rw [UInt8.toNat_add]
    change (_ + 1) % 256 = _
    omega
  rw [checkOperandCount, if_pos]
  rw [UInt8.le_iff_toNat_le, UInt8.le_iff_toNat_le, hcount]
  change 1 ≤ _ ∧ _ ≤ 2
  omega

/-- What is left of decoding without that check. -/
theorem decode_eq (word : UInt16) : decode word = do
    let opcode ← Opcode.ofId (bitField word 11 15).toUInt8
    let size ← decodeSize opcode (bitField word 9 10).toUInt8
    return { opcode, size, operandCount := (bitField word 8 8).toUInt8 + 1
             operands := .ofField opcode (bitField word 0 7) } := by
  simp only [decode, checkOperandCount_bitField]
  rfl

theorem decode_eq_ok {w : UInt16} {i : Instruction} : decode w = .ok i ↔
    Opcode.ofId (bitField w 11 15).toUInt8 = .ok i.opcode ∧
    decodeSize i.opcode (bitField w 9 10).toUInt8 = .ok i.size ∧
    i.operandCount = (bitField w 8 8).toUInt8 + 1 ∧
    i.operands = .ofField i.opcode (bitField w 0 7) := by
  rw [decode_eq]
  cases ho : Opcode.ofId (bitField w 11 15).toUInt8 with
  | error f => simp [bind, Except.bind]
  | ok o =>
    cases hs : decodeSize o (bitField w 9 10).toUInt8 with
    | error f =>
      simp only [bind, Except.bind, hs, Except.ok.injEq, reduceCtorEq, false_iff]
      rintro ⟨rfl, h, -⟩
      rw [hs] at h
      cases h
    | ok s =>
      simp only [bind, Except.bind, hs, pure, Except.pure, Except.ok.injEq]
      constructor
      · rintro rfl
        exact ⟨rfl, hs, rfl, rfl⟩
      · rintro ⟨rfl, h, hc, hops⟩
        rw [hs] at h
        cases h
        rw [← hc, ← hops]

theorem ofId_bitField (word : UInt16) : ∃ o, Opcode.ofId (bitField word 11 15).toUInt8 = .ok o := by
  have hid : (bitField word 11 15).toUInt8.toNat < Opcode.all.length := by
    rw [toNat_bitField_toUInt8 word 11 15 (by decide)]
    exact Nat.mod_lt _ (by decide)
  refine ⟨Opcode.all[(bitField word 11 15).toUInt8.toNat], ?_⟩
  rw [Opcode.ofId, Opcode.ofId?, List.getElem?_eq_getElem hid]

theorem size_ofCode_error {c : UInt8} {f : Fault} (hc : c.toNat < 4)
    (h : Size.ofCode c = .error f) : f = .invalidSize 3 := by
  have hcode : c = 0 ∨ c = 1 ∨ c = 2 ∨ c = 3 := by
    simp only [← UInt8.toNat_inj]
    change c.toNat = 0 ∨ c.toNat = 1 ∨ c.toNat = 2 ∨ c.toNat = 3
    omega
  rcases hcode with rfl | rfl | rfl | rfl <;> cases h
  rfl

/-- The only words without an instruction are those with size code 3. -/
theorem decode_error {word : UInt16} {f : Fault} (h : decode word = .error f) :
    f = .invalidSize 3 := by
  obtain ⟨o, ho⟩ := ofId_bitField word
  have hc : (bitField word 9 10).toUInt8.toNat < 4 := by
    rw [toNat_bitField_toUInt8 word 9 10 (by decide)]
    exact Nat.mod_lt _ (by decide)
  cases hs : decodeSize o (bitField word 9 10).toUInt8 with
  | ok size =>
    simp only [decode_eq, ho, hs, bind, Except.bind] at h
    cases h
  | error g =>
    simp only [decode_eq, ho, hs, bind, Except.bind] at h
    cases h
    unfold decodeSize at hs
    split at hs
    · exact size_ofCode_error hc hs
    · cases hs

end Instruction
end Micro68
