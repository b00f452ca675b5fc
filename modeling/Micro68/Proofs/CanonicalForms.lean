import Mathlib.Data.Nat.Bitwise
import Micro68.Proofs.Decoding

/-! Canonical instructions: those that opcode words stand for. Encoding one and decoding the word
gives it back, and no other instruction comes back; a word comes back too, but for the bits that
operations without operands ignore. -/
namespace Micro68

namespace Mode

theorem ofCode_code {m : Mode} (h : ∀ c, m = .reserved c → c = 2 ∨ c = 5) :
    m.code.toNat < 8 ∧ ofCode m.code = m := by
  cases m with
  | reserved c => rcases h c rfl with rfl | rfl <;> exact ⟨by decide, rfl⟩
  | _ => exact ⟨by decide, rfl⟩

theorem reserved_of_ofCode {c d : UInt8} (hc : c.toNat < 8) (h : ofCode c = .reserved d) :
    d = 2 ∨ d = 5 := by
  obtain rfl : c = d := by
    rw [← code_ofCode c, h, code]
  have hall : ∀ k : Fin 8, ofCode (UInt8.ofNat k) = .reserved (UInt8.ofNat k) →
      UInt8.ofNat k = 2 ∨ UInt8.ofNat k = 5 := by decide
  have hk := hall ⟨c.toNat, hc⟩
  rw [UInt8.ofNat_toNat] at hk
  exact hk h

end Mode

namespace Opcode

theorem id_ofId {n : UInt8} {o : Opcode} (h : Opcode.ofId n = .ok o) : o.id = n := by
  unfold Opcode.ofId Opcode.ofId? at h
  split at h
  · rename_i o' ho
    cases h
    obtain ⟨hn, rfl⟩ := List.getElem?_eq_some_iff.mp ho
    have hall : ∀ k : Fin 32, all[k].id = UInt8.ofNat k := by decide
    have hk := hall ⟨n.toNat, hn⟩
    rw [UInt8.ofNat_toNat] at hk
    exact hk
  · cases h

@[simp] theorem ofId_id (o : Opcode) : Opcode.ofId o.id = .ok o := by
  rw [Opcode.ofId, ofId?_id]

theorem hasOperands_of_quick {o : Opcode} (h : o.format = .quick) : o.hasOperands = true := by
  cases o <;> first | rfl | cases h

end Opcode

namespace Size

theorem code_lt (s : Size) : s.code.toNat < 3 := by cases s <;> decide

@[simp] theorem ofCode_code (s : Size) : Size.ofCode s.code = .ok s := by
  rw [Size.ofCode, ofCode?_code]

theorem code_ofCode {c : UInt8} {s : Size} (h : Size.ofCode c = .ok s) : s.code = c := by
  unfold Size.ofCode Size.ofCode? at h
  grind [Size.code]

theorem code_getD (c : UInt8) (hc : c.toNat < 4) :
    ((ofCode? c).getD .byte).code.toNat = if c.toNat = 3 then 0 else c.toNat := by
  have hall : ∀ k : Fin 4, ((ofCode? (UInt8.ofNat k)).getD .byte).code.toNat =
      if k.val = 3 then 0 else k.val := by decide
  have hk := hall ⟨c.toNat, hc⟩
  rw [UInt8.ofNat_toNat] at hk
  exact hk

end Size

namespace Operand

/-- The operand lies within its mode/register field. -/
structure Canonical (op : Operand) : Prop where
  reg : op.reg < 2
  address : op.address = 0
  reserved : ∀ c, op.mode = .reserved c → c = 2 ∨ c = 5

@[simp] theorem toNat_reg_ofField (x : UInt16) : (ofField x).reg.toNat = x.toNat % 2 := by
  have hreg := Instruction.toNat_bitField x 0 0 (by decide)
  rw [pow_zero, Nat.div_one] at hreg
  exact hreg

@[simp] theorem toNat_code_ofField (x : UInt16) :
    (ofField x).mode.code.toNat = x.toNat / 2 % 8 := by
  rw [ofField, Mode.code_ofCode]
  exact Instruction.toNat_bitField_toUInt8 x 1 3 (by decide)

theorem canonical_ofField (x : UInt16) : (ofField x).Canonical where
  reg := by
    rw [UInt64.lt_iff_toNat_lt, toNat_reg_ofField]
    exact Nat.mod_lt _ (by decide)
  address := rfl
  reserved c hc := by
    refine Mode.reserved_of_ofCode ?_ hc
    rw [Instruction.toNat_bitField_toUInt8 x 1 3 (by decide)]
    exact Nat.mod_lt _ (by decide)

theorem canonical_default : Canonical {} := ⟨by decide, rfl, fun _ => nofun⟩

@[simp] theorem field_ofField (x : UInt16) : (ofField x).field = x.toNat % 16 := by
  rw [field, toNat_code_ofField, toNat_reg_ofField]
  omega

theorem ofField_field {op : Operand} (h : op.Canonical) {x : UInt16} (hx : x.toNat = op.field) :
    ofField x = op := by
  obtain ⟨hcode, hof⟩ := Mode.ofCode_code h.reserved
  have hreg : op.reg.toNat < 2 := UInt64.lt_iff_toNat_lt.mp h.reg
  rw [field] at hx
  have hm : (ofField x).mode.code = op.mode.code := by
    apply UInt8.toNat_inj.mp
    rw [toNat_code_ofField, hx]
    omega
  have hr : (ofField x).reg = op.reg := by
    apply UInt64.toNat_inj.mp
    rw [toNat_reg_ofField, hx]
    omega
  have hmode : (ofField x).mode = op.mode := by
    rw [← hof, ← hm, ofField, Mode.code_ofCode]
  have haddress : (ofField x).address = op.address := h.address.symm
  calc ofField x = ⟨(ofField x).mode, (ofField x).reg, (ofField x).address⟩ := rfl
    _ = op := by rw [hmode, hr, haddress]

end Operand

namespace Operands

theorem ofField_cases (o : Opcode) (x : UInt16) :
    (o.format = .quick ∧
      ofField o x = .quick (bitField x 4 7).toUInt8 (.ofField (bitField x 0 3))) ∨
    (o.format = .full ∧ o.hasOperands = true ∧
      ofField o x = .full (.ofField (bitField x 4 7)) (.ofField (bitField x 0 3))) ∨
    (o.format = .full ∧ o.hasOperands = false ∧ ofField o x = .full {} {}) := by
  unfold ofField
  cases o.format <;> cases o.hasOperands <;> simp

@[simp] theorem field_ofField (o : Opcode) (x : UInt16) :
    (ofField o x).field = if o.hasOperands then x.toNat % 256 else 0 := by
  have hhigh := Instruction.toNat_bitField x 4 7 (by decide)
  have hlow := Instruction.toNat_bitField x 0 3 (by decide)
  have hdata := Instruction.toNat_bitField_toUInt8 x 4 7 (by decide)
  rcases ofField_cases o x with ⟨hf, he⟩ | ⟨-, ho, he⟩ | ⟨-, ho, he⟩ <;> rw [he, field]
  · rw [Operand.field_ofField, hdata, hlow, if_pos (Opcode.hasOperands_of_quick hf)]
    omega
  · rw [Operand.field_ofField, Operand.field_ofField, hhigh, hlow, if_pos ho]
    omega
  · simp [ho, Operand.field, Mode.code]

end Operands

namespace Instruction

structure Canonical (i : Instruction) : Prop where
  count : i.operandCount = 1 ∨ i.operandCount = 2
  shape : (∃ data dst, i.operands = .quick data dst) ↔ i.opcode.format = .quick
  data : i.data < 16
  operand : ∀ slot op, i.operand? slot = some op → op.Canonical
  unused : i.opcode.hasOperands = false → i.operands = .full {} {}

theorem count_of_decode {w : UInt16} {i : Instruction} (h : decode w = .ok i) :
    i.operandCount.toNat = w.toNat / 256 % 2 + 1 := by
  obtain ⟨-, -, hc, -⟩ := decode_eq_ok.mp h
  have hbit := toNat_bitField_toUInt8 w 8 8 (by decide)
  rw [hc, UInt8.toNat_add, hbit]
  change (w.toNat / 256 % 2 + 1) % 256 = _
  omega

namespace Canonical

theorem of_full {i : Instruction} {src dst : Operand} (hops : i.operands = .full src dst)
    (hf : i.opcode.format = .full) (hcount : i.operandCount = 1 ∨ i.operandCount = 2)
    (hsrc : src.Canonical) (hdst : dst.Canonical)
    (hunused : i.opcode.hasOperands = false → i.operands = .full {} {}) : i.Canonical where
  count := hcount
  shape := by simp [hops, hf]
  data := by
    rw [Instruction.data, hops]
    exact (by decide : (0 : UInt8) < 16)
  operand slot op hop := by
    cases slot <;> simp only [operand?, hops] at hop <;> cases hop
    · exact hsrc
    · exact hdst
  unused := hunused

theorem of_quick {i : Instruction} {data : UInt8} {dst : Operand}
    (hops : i.operands = .quick data dst) (hf : i.opcode.format = .quick)
    (hcount : i.operandCount = 1 ∨ i.operandCount = 2) (hdata : data < 16)
    (hdst : dst.Canonical) : i.Canonical where
  count := hcount
  shape := by simp [hops, hf]
  data := by
    rw [Instruction.data, hops]
    exact hdata
  operand slot op hop := by
    cases slot <;> simp only [operand?, hops] at hop <;> cases hop
    exact hdst
  unused hn := by simp [Opcode.hasOperands_of_quick hf] at hn

theorem exists_full {i : Instruction} (h : i.Canonical) (hf : i.opcode.format = .full) :
    ∃ src dst, i.operands = .full src dst := by
  cases hops : i.operands with
  | full src dst => exact ⟨src, dst, rfl⟩
  | quick data dst =>
    have hq := h.shape.mp ⟨data, dst, hops⟩
    rw [hf] at hq
    cases hq

end Canonical

theorem canonical_of_decode {w : UInt16} {i : Instruction} (h : decode w = .ok i) :
    i.Canonical := by
  obtain ⟨-, -, -, hops⟩ := decode_eq_ok.mp h
  have hcount : i.operandCount = 1 ∨ i.operandCount = 2 := by
    simp only [← UInt8.toNat_inj, count_of_decode h]
    change _ = 1 ∨ _ = 2
    omega
  rcases Operands.ofField_cases i.opcode (bitField w 0 7) with ⟨hf, he⟩ | ⟨hf, ho, he⟩ |
    ⟨hf, -, he⟩ <;> rw [he] at hops
  · refine .of_quick hops hf hcount ?_ (Operand.canonical_ofField _)
    rw [UInt8.lt_iff_toNat_lt, toNat_bitField_toUInt8 _ 4 7 (by decide)]
    exact Nat.mod_lt _ (by decide)
  · exact .of_full hops hf hcount (Operand.canonical_ofField _) (Operand.canonical_ofField _)
      fun hn => by simp [ho] at hn
  · exact .of_full hops hf hcount Operand.canonical_default Operand.canonical_default fun _ => hops

theorem toNat_encode (i : Instruction) : (encode i).toNat = i.opcode.id.toNat * 2048 +
    i.size.code.toNat * 512 + (i.operandCount.toNat - 1) % 2 * 256 + i.operands.field := by
  have hid := i.opcode.id_lt
  have hsize := i.size.code_lt
  have hfield := i.operands.field_lt
  rw [encode]
  exact UInt16.toNat_ofNat_of_lt' (show _ < 2 ^ 16 by omega)

/-- The fields of an instruction stand in its word side by side. -/
theorem encode_fields (i : Instruction) :
    (bitField (encode i) 11 15).toUInt8 = i.opcode.id ∧
    (bitField (encode i) 9 10).toUInt8 = i.size.code ∧
    (bitField (encode i) 8 8).toUInt8.toNat = (i.operandCount.toNat - 1) % 2 ∧
    (bitField (encode i) 0 7).toNat = i.operands.field := by
  have hid := i.opcode.id_lt
  have hsize := i.size.code_lt
  have hfield := i.operands.field_lt
  rw [← UInt8.toNat_inj, ← UInt8.toNat_inj, toNat_bitField_toUInt8 _ 11 15 (by decide),
    toNat_bitField_toUInt8 _ 9 10 (by decide), toNat_bitField_toUInt8 _ 8 8 (by decide),
    toNat_bitField _ 0 7 (by decide), toNat_encode]
  omega

theorem decodeSize_code (o : Opcode) (s : Size) : decodeSize o s.code = .ok s := by
  unfold decodeSize
  split <;> simp

theorem decode_encode (i : Instruction) : decode (encode i) = .ok
    { opcode := i.opcode, size := i.size
      operandCount := (bitField (encode i) 8 8).toUInt8 + 1
      operands := .ofField i.opcode (bitField (encode i) 0 7) } := by
  obtain ⟨hid, hsize, -, -⟩ := encode_fields i
  exact decode_eq_ok.mpr ⟨by rw [hid, Opcode.ofId_id], by rw [hsize, decodeSize_code], rfl, rfl⟩

theorem Canonical.ofField_field {i : Instruction} (h : i.Canonical) {x : UInt16}
    (hx : x.toNat = i.operands.field) : Operands.ofField i.opcode x = i.operands := by
  have hhigh := toNat_bitField x 4 7 (by decide)
  have hlow := toNat_bitField x 0 3 (by decide)
  have hop := h.operand
  unfold operand? at hop
  rcases Operands.ofField_cases i.opcode x with ⟨hf, he⟩ | ⟨hf, -, he⟩ | ⟨-, ho, he⟩ <;> rw [he]
  · obtain ⟨data, dst, hops⟩ := h.shape.mpr hf
    have hdata := UInt8.lt_iff_toNat_lt.mp h.data
    have hdst := dst.field_lt
    simp only [Instruction.data, hops] at hdata
    simp only [hops, Operands.field] at hx hop
    change data.toNat < 16 at hdata
    have hd : (bitField x 4 7).toUInt8 = data := by
      apply UInt8.toNat_inj.mp
      rw [toNat_bitField_toUInt8 _ 4 7 (by decide), hx]
      omega
    rw [hd, hops, Operand.ofField_field (hop .second dst rfl) (by rw [hlow, hx]; omega)]
  · obtain ⟨src, dst, hops⟩ := h.exists_full hf
    have hsrc := src.field_lt
    have hdst := dst.field_lt
    simp only [hops, Operands.field] at hx hop
    rw [hops, Operand.ofField_field (hop .first src rfl) (by rw [hhigh, hx]; omega),
      Operand.ofField_field (hop .second dst rfl) (by rw [hlow, hx]; omega)]
  · rw [h.unused ho]

theorem decode_encode_of_canonical {i : Instruction} (h : i.Canonical) :
    decode (encode i) = .ok i := by
  obtain ⟨-, -, hbit, hfield⟩ := encode_fields i
  have hcount : (bitField (encode i) 8 8).toUInt8 = i.operandCount - 1 := by
    apply UInt8.toNat_inj.mp
    rw [hbit]
    rcases h.count with h | h <;> rw [h] <;> rfl
  rw [decode_encode, hcount, UInt8.sub_add_cancel, h.ofField_field hfield]

theorem and_ones (x n k : Nat) : x &&& (2 ^ n - 1) <<< k = x / 2 ^ k % 2 ^ n * 2 ^ k := by
  rw [← Nat.shiftLeft_eq, ← Nat.shiftRight_eq_div_pow]
  apply Nat.eq_of_testBit_eq
  intro j
  simp only [Nat.testBit_and, Nat.testBit_shiftLeft, Nat.testBit_two_pow_sub_one,
    Nat.testBit_mod_two_pow, Nat.testBit_shiftRight]
  by_cases hj : k ≤ j
  · simp [hj, Nat.add_sub_cancel' hj, Bool.and_comm]
  · simp [hj]

/-- An opcode word without its low byte, and without a size field that stands for no size. -/
def headWord (word : UInt16) : UInt16 :=
  if bitField word 9 10 = 3 then word &&& 0xF900 else word &&& 0xFF00

theorem toNat_headWord (w : UInt16) : (headWord w).toNat =
    w.toNat / 2048 * 2048 + (if w.toNat / 512 % 4 = 3 then 0 else w.toNat / 512 % 4) * 512 +
      w.toNat / 256 % 2 * 256 := by
  have hw : w.toNat < 2 ^ 16 := w.toNat_lt
  have hsize : bitField w 9 10 = 3 ↔ w.toNat / 512 % 4 = 3 := by
    rw [← UInt16.toNat_inj, toNat_bitField w 9 10 (by decide)]
    exact Iff.rfl
  have hbyte : (w &&& 0xFF00).toNat = w.toNat / 256 % 256 * 256 := and_ones w.toNat 8 8
  -- a gap of two zeros splits the other mask into two runs
  have hid : w.toNat &&& 0xF800 = w.toNat / 2048 % 32 * 2048 := and_ones w.toNat 5 11
  have hcount : w.toNat &&& 0x100 = w.toNat / 256 % 2 * 256 := and_ones w.toNat 1 8
  have hgap : (w &&& 0xF900).toNat = w.toNat / 2048 % 32 * 2048 + w.toNat / 256 % 2 * 256 := by
    change w.toNat &&& (0xF800 ||| 0x100) = _
    rw [Nat.and_or_distrib_left, hid, hcount, ← Nat.shiftLeft_eq _ 11,
      ← Nat.shiftLeft_add_eq_or_of_lt (by omega), Nat.shiftLeft_eq]
  unfold headWord
  by_cases h : bitField w 9 10 = 3
  · rw [if_pos h, if_pos (hsize.mp h), hgap]
    omega
  · rw [if_neg h, if_neg (hsize.not.mp h), hbyte]
    omega

theorem encode_of_decode {w : UInt16} {i : Instruction} (h : decode w = .ok i) :
    encode i = if i.opcode.hasOperands then w else headWord w := by
  have hw : w.toNat < 2 ^ 16 := w.toNat_lt
  obtain ⟨ho, hs, -, hops⟩ := decode_eq_ok.mp h
  have hid : i.opcode.id.toNat = w.toNat / 2048 % 32 := by
    rw [Opcode.id_ofId ho]
    exact toNat_bitField_toUInt8 w 11 15 (by decide)
  have hcode : (bitField w 9 10).toUInt8.toNat = w.toNat / 512 % 4 :=
    toNat_bitField_toUInt8 w 9 10 (by decide)
  have hlow : (bitField w 0 7).toNat = w.toNat / 1 % 256 := toNat_bitField w 0 7 (by decide)
  apply UInt16.toNat_inj.mp
  rw [toNat_encode, count_of_decode h, hid, hops, Operands.field_ofField, hlow]
  unfold decodeSize at hs
  cases hn : i.opcode.hasOperands with
  | true =>
    simp only [hn, if_true] at hs ⊢
    rw [Size.code_ofCode hs, hcode]
    omega
  | false =>
    simp only [hn, Bool.false_eq_true, if_false, Except.ok.injEq] at hs ⊢
    rw [toNat_headWord, ← hs, Size.code_getD _ (by omega), hcode]
    omega

/-- Encoding and decoding are inverse on the canonical instructions and on no others. Decoding and
encoding gives the word back, or what an operation without operands keeps of it. -/
theorem decode_encode_exact :
    (∀ i : Instruction, ∃ j, decode (encode i) = .ok j ∧ (j = i ↔ i.Canonical)) ∧
    ∀ w i, decode w = .ok i → encode i = if i.opcode.hasOperands then w else headWord w := by
  refine ⟨fun i => ⟨_, decode_encode i, ?_⟩, fun w i h => encode_of_decode h⟩
  constructor
  · intro h
    exact canonical_of_decode (h ▸ decode_encode i)
  · intro h
    exact Except.ok.inj ((decode_encode i).symm.trans (decode_encode_of_canonical h))

/-- HLT in a word with all bits set: only its number and the count are kept. -/
theorem decode_encode_exact_hlt : ∃ i, decode 0xFFFF = .ok i ∧ encode i = 0xF900 ∧ i.Canonical := by
  have h : decode 0xFFFF = .ok { bare .hlt with operandCount := 2 } := rfl
  obtain ⟨hcanon, hword⟩ := decode_encode_exact
  obtain ⟨j, hj, hiff⟩ := hcanon { bare .hlt with operandCount := 2 }
  have hback : decode (encode { bare .hlt with operandCount := 2 }) =
    .ok { bare .hlt with operandCount := 2 } := rfl
  exact ⟨_, h, hword _ _ h, hiff.mp (Except.ok.inj (hj.symm.trans hback))⟩

end Instruction
end Micro68
