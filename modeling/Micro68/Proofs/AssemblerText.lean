import Micro68.Instruction.Text
import Micro68.Proofs.HexDigits
import Micro68.Proofs.TextParts

/-! What assembler text tells. Two instructions have the same text exactly if they have the same
operation and, where it takes operands, the same size and the same operands, as far as the text shows
them: which slots, which mode, and the register or the address or the code that the mode names. -/
namespace Micro68

def Mode.namesRegister : Mode → Bool
  | absolute | reserved _ => false
  | _ => true

namespace Operand

/-- The operands have the same mode, and what the mode names is the same: a register, of which there
are two, or an address. -/
structure Alike (p q : Operand) : Prop where
  mode : p.mode = q.mode
  register : p.mode.namesRegister = true → p.reg.toNat % 2 = q.reg.toNat % 2
  address : p.mode = .absolute → p.address = q.address

theorem toDigits_index (op : Operand) :
    Nat.toDigits 10 op.index = [Nat.digitChar (op.reg.toNat % 2)] :=
  Nat.toDigits_of_lt_base (show op.reg.toNat % 2 < 10 by omega)

theorem mod_two_of_digit {m n : Nat} (h : Nat.digitChar (m % 2) = Nat.digitChar (n % 2)) :
    m % 2 = n % 2 := by
  have hall : ∀ a b : Fin 2, Nat.digitChar a = Nat.digitChar b → a = b := by decide
  exact congrArg Fin.val (hall ⟨m % 2, by omega⟩ ⟨n % 2, by omega⟩ h)

theorem text_eq_iff_alike (p q : Operand) : p.text = q.text ↔ p.Alike q := by
  constructor
  · intro h
    rw [← String.toList_inj] at h
    unfold text at h
    cases hp : p.mode <;> cases hq : q.mode <;> simp [hp, hq, toDigits_index] at h
    case absolute =>
      have haddress := Hex.padded_inj (String.toList_inj.mp h)
      exact ⟨by rw [hp, hq], by simp [hp, Mode.namesRegister], fun _ => UInt16.toNat_inj.mp haddress⟩
    case reserved code code' =>
      have hcode : code = code' := UInt8.toNat_inj.mp (Text.toDigits_inj h)
      exact ⟨by rw [hp, hq, hcode], by simp [hp, Mode.namesRegister], by simp [hp]⟩
    all_goals exact ⟨by rw [hp, hq], fun _ => mod_two_of_digit h, by simp [hp]⟩
  · rintro ⟨hmode, hregister, haddress⟩
    have hindex : p.mode.namesRegister = true → p.index.val = q.index.val := hregister
    unfold text
    rw [← hmode]
    cases hp : p.mode with
    | absolute => rw [haddress hp]
    | reserved code => rfl
    | _ => rw [hindex (by rw [hp]; rfl)]

theorem head?_text (op : Operand) : ∃ c, op.text.toList.head? = some c ∧ c ≠ '#' := by
  unfold text
  cases op.mode <;> simp

theorem comma_notMem_text (op : Operand) : ',' ∉ op.text.toList := by
  have hdigit := Text.notMem_toDigits (c := ',') (by decide)
  have hhex := Hex.notMem_padded (c := ',') (by decide)
  unfold text
  cases op.mode <;> simp [hdigit, hhex]

end Operand

namespace Opcode

theorem mnemonic_inj {o o' : Opcode} (h : o.mnemonic = o'.mnemonic) : o = o' := by
  have hfind : ∀ o : Opcode, all.find? (·.mnemonic = o.mnemonic) = some o := by
    intro o
    cases o <;> rfl
  have hsame := hfind o
  rw [h, hfind o'] at hsame
  exact (Option.some.inj hsame).symm

theorem dot_notMem_mnemonic (o : Opcode) : '.' ∉ o.mnemonic.toList := by
  cases o <;> decide

end Opcode

namespace Size

theorem suffix_inj {s t : Size} (h : s.suffix = t.suffix) : s = t := by
  revert h
  cases s <;> cases t <;> decide

theorem blank_notMem_suffix (s : Size) : ' ' ∉ s.suffix.toList := by
  cases s <;> decide

end Size

/-- What a text shows of the operands of an instruction. -/
inductive Shown where
  | quick (data : UInt8) (dst : Operand)
  | one (src : Operand)
  | two (src dst : Operand)

namespace Shown

def chars : Shown → List Char
  | quick data dst => '#' :: Nat.toDigits 10 data.toNat ++ ',' :: dst.text.toList
  | one src => src.text.toList
  | two src dst => src.text.toList ++ ',' :: dst.text.toList

inductive Alike : Shown → Shown → Prop where
  | quick (data : UInt8) {dst dst' : Operand} (h : dst.Alike dst') :
      Alike (quick data dst) (quick data dst')
  | one {src src' : Operand} (h : src.Alike src') : Alike (one src) (one src')
  | two {src src' dst dst' : Operand} (h : src.Alike src') (h' : dst.Alike dst') :
      Alike (two src dst) (two src' dst')

theorem comma_notMem_data (data : UInt8) : ',' ∉ '#' :: Nat.toDigits 10 data.toNat := by
  have hdigits := Text.notMem_toDigits (c := ',') (by decide) data.toNat
  simp [hdigits]

theorem chars_quick_ne (data : UInt8) (dst op : Operand) (rest : List Char) :
    chars (quick data dst) ≠ op.text.toList ++ rest := by
  intro h
  obtain ⟨c, hc, hne⟩ := op.head?_text
  have hhead := congrArg List.head? h
  rw [List.head?_append, hc] at hhead
  exact hne (Option.some.inj hhead).symm

theorem chars_one_ne (src op : Operand) (rest : List Char) :
    chars (one src) ≠ op.text.toList ++ ',' :: rest := by
  intro h
  have hcomma := src.comma_notMem_text
  rw [show src.text.toList = _ from h] at hcomma
  simp at hcomma

theorem chars_eq_iff (s t : Shown) : s.chars = t.chars ↔ s.Alike t := by
  constructor
  · intro h
    cases s with
    | quick data dst =>
      cases t with
      | quick data' dst' =>
        obtain ⟨hdata, hdst⟩ :=
          Text.eq_of_append_cons (comma_notMem_data data) (comma_notMem_data data') h
        obtain rfl : data = data' :=
          UInt8.toNat_inj.mp (Text.toDigits_inj (List.cons.inj hdata).2)
        exact .quick data ((Operand.text_eq_iff_alike dst dst').mp (String.toList_inj.mp hdst))
      | one src' => exact absurd (h.trans (List.append_nil _).symm) (chars_quick_ne data dst src' [])
      | two src' dst' => exact absurd h (chars_quick_ne data dst src' _)
    | one src =>
      cases t with
      | quick data' dst' =>
        exact absurd (h.symm.trans (List.append_nil _).symm) (chars_quick_ne data' dst' src [])
      | one src' => exact .one ((Operand.text_eq_iff_alike src src').mp (String.toList_inj.mp h))
      | two src' dst' => exact absurd h (chars_one_ne src src' _)
    | two src dst =>
      cases t with
      | quick data' dst' => exact absurd h.symm (chars_quick_ne data' dst' src _)
      | one src' => exact absurd h.symm (chars_one_ne src' src _)
      | two src' dst' =>
        obtain ⟨hsrc, hdst⟩ :=
          Text.eq_of_append_cons src.comma_notMem_text src'.comma_notMem_text h
        exact .two ((Operand.text_eq_iff_alike src src').mp (String.toList_inj.mp hsrc))
          ((Operand.text_eq_iff_alike dst dst').mp (String.toList_inj.mp hdst))
  · intro h
    cases h with
    | quick data h => simp [chars, (Operand.text_eq_iff_alike ..).mpr h]
    | one h => simp [chars, (Operand.text_eq_iff_alike ..).mpr h]
    | two h h' =>
      simp [chars, (Operand.text_eq_iff_alike ..).mpr h, (Operand.text_eq_iff_alike ..).mpr h']

end Shown

namespace Instruction

/-- Of the quick format the text shows the immediate and the destination, of the full format the source,
and the destination too if there are two operands. -/
def shown (i : Instruction) : Shown :=
  match i.operands with
  | .quick data dst => .quick data dst
  | .full src dst => if i.operandCount = 2 then .two src dst else .one src

theorem toList_operandsText (i : Instruction) : i.operandsText.toList = i.shown.chars := by
  unfold operandsText shown
  cases i.operands with
  | quick data dst => simp [Shown.chars]
  | full src dst =>
    by_cases h : i.operandCount = 2
    · simp [h, Shown.chars]
    · simp [h, Shown.chars]

theorem toList_text (i : Instruction) (h : i.opcode.hasOperands = true) : i.text.toList =
    i.opcode.mnemonic.toList ++ '.' :: (i.size.suffix.toList ++ ' ' :: i.shown.chars) := by
  simp [text, h, toList_operandsText]

theorem text_of_not_hasOperands {i : Instruction} (h : ¬ i.opcode.hasOperands = true) :
    i.text = i.opcode.mnemonic := by
  simp [text, h]

theorem text_ne_mnemonic {i : Instruction} (h : i.opcode.hasOperands = true) (o : Opcode) :
    i.text ≠ o.mnemonic := by
  intro htext
  have hdot := o.dot_notMem_mnemonic
  rw [← htext, toList_text i h] at hdot
  simp at hdot

/-- Instructions have the same text exactly if they have the same operation and, where it takes
operands, the same size, and all that is shown of their operands is the same. -/
theorem text_eq_iff (i j : Instruction) : i.text = j.text ↔
    i.opcode = j.opcode ∧
      (i.opcode.hasOperands = true → i.size = j.size ∧ i.shown.Alike j.shown) := by
  constructor
  · intro h
    by_cases ho : i.opcode.hasOperands = true <;> by_cases ho' : j.opcode.hasOperands = true
    · rw [← String.toList_inj, toList_text i ho, toList_text j ho'] at h
      obtain ⟨hmnemonic, hrest⟩ :=
        Text.eq_of_append_cons i.opcode.dot_notMem_mnemonic j.opcode.dot_notMem_mnemonic h
      obtain ⟨hsuffix, hshown⟩ :=
        Text.eq_of_append_cons i.size.blank_notMem_suffix j.size.blank_notMem_suffix hrest
      exact ⟨Opcode.mnemonic_inj (String.toList_inj.mp hmnemonic), fun _ =>
        ⟨Size.suffix_inj (String.toList_inj.mp hsuffix), (Shown.chars_eq_iff ..).mp hshown⟩⟩
    · exact absurd (h.trans (text_of_not_hasOperands ho')) (text_ne_mnemonic ho j.opcode)
    · exact absurd (h.symm.trans (text_of_not_hasOperands ho)) (text_ne_mnemonic ho' i.opcode)
    · rw [text_of_not_hasOperands ho, text_of_not_hasOperands ho'] at h
      exact ⟨Opcode.mnemonic_inj h, fun hoperands => absurd hoperands ho⟩
  · rintro ⟨hopcode, hrest⟩
    by_cases ho : i.opcode.hasOperands = true
    · obtain ⟨hsize, hshown⟩ := hrest ho
      rw [← String.toList_inj, toList_text i ho, toList_text j (hopcode ▸ ho), hopcode, hsize,
        (Shown.chars_eq_iff ..).mpr hshown]
    · rw [text_of_not_hasOperands ho, text_of_not_hasOperands (hopcode ▸ ho), hopcode]

/-- `ADD.W D1`: neither the second operand nor the address of a register is shown, and of a register
number the lowest bit alone. -/
theorem text_eq_iff_hidden :
    let i : Instruction := .unary .add .word { mode := .dataRegister, reg := 3, address := 7 }
    let j : Instruction := { opcode := .add, size := .word, operandCount := 0
                             operands := .full (.data 1) (.absolute 0x100) }
    i.text = j.text ∧ i.opcode.hasOperands = true ∧ i.shown.Alike j.shown := by
  intro i j
  have htext : i.text = j.text := rfl
  exact ⟨htext, rfl, (((text_eq_iff i j).mp htext).2 rfl).2⟩

end Instruction
end Micro68
