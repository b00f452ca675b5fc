import Micro68.Listing
import Micro68.Proofs.HexDigits
import Micro68.Proofs.TextParts

/-! Texts in lines. Where no line holds a newline, the lines of a text are determined by it; and a line of
a listing is determined by its address and by what it shows there. -/
namespace Micro68

def OneLine (s : String) : Prop := '\n' ∉ s.toList

namespace OneLine

instance : DecidablePred OneLine := fun s => inferInstanceAs (Decidable ('\n' ∉ s.toList))

@[simp] theorem append_iff {s t : String} : OneLine (s ++ t) ↔ OneLine s ∧ OneLine t := by
  simp [OneLine]

@[simp] theorem padded (width n : Nat) : OneLine (Hex.padded width n) := by
  intro h
  have hdigit : Hex.isDigit '\n' = true := Hex.isDigit_of_mem_padded h
  exact absurd hdigit (by decide)

@[simp] theorem nat (n : Nat) : OneLine n.repr := by
  intro h
  rw [Nat.toList_repr] at h
  have hdigit : Char.isDigit '\n' = true := Nat.isDigit_of_mem_toDigits (by decide) (by decide) h
  exact absurd hdigit (by decide)

theorem operand (op : Operand) : OneLine op.text := by
  unfold Operand.text
  cases op.mode <;> simp <;> decide

theorem instruction (i : Instruction) : OneLine i.text := by
  have hmnemonic : OneLine i.opcode.mnemonic := by cases i.opcode <;> decide
  have hsuffix : OneLine i.size.suffix := by cases i.size <;> decide
  have hoperands : OneLine i.operandsText := by
    unfold Instruction.operandsText
    split
    · simp [operand]
      decide
    · split <;> simp [operand]
      decide
  unfold Instruction.text
  split
  · simp [hmnemonic, hsuffix, hoperands]
    decide
  · exact hmnemonic

theorem item (item : ListingItem) : OneLine item.text := by
  have hunknown : OneLine "??? $" := by decide
  cases item with
  | instruction i => exact instruction i
  | unknown word | stray byte => simp [ListingItem.text, hunknown]

end OneLine

/-- A text is made of some lines, each with a newline behind it and none inside. -/
structure Lines (text : String) (lines : List String) : Prop where
  join : text = String.join (lines.map (· ++ "\n"))
  oneLine : ∀ l ∈ lines, OneLine l

theorem Lines.toList_eq {text : String} {lines : List String} (h : Lines text lines) :
    text.toList = lines.flatMap fun l => l.toList ++ ['\n'] := by
  have hnewline : "\n".toList = ['\n'] := by decide
  simp only [h.join, String.toList_join, List.flatMap_map, String.toList_append, hnewline]

theorem eq_of_flatMap_newline {xs ys : List String} (hx : ∀ l ∈ xs, OneLine l)
    (hy : ∀ l ∈ ys, OneLine l)
    (h : (xs.flatMap fun l => l.toList ++ ['\n']) = ys.flatMap fun l => l.toList ++ ['\n']) :
    xs = ys := by
  induction xs generalizing ys with
  | nil => cases ys <;> simp at h ⊢
  | cons x xs ih =>
    cases ys with
    | nil => simp at h
    | cons y ys =>
      rw [List.flatMap_cons, List.flatMap_cons, List.append_assoc, List.append_assoc] at h
      rw [List.forall_mem_cons] at hx hy
      obtain ⟨hfirst, hrest⟩ := Text.eq_of_append_cons hx.1 hy.1 h
      rw [String.toList_inj.mp hfirst, ih hx.2 hy.2 hrest]

theorem Lines.unique {text : String} {xs ys : List String} (hx : Lines text xs)
    (hy : Lines text ys) : xs = ys :=
  eq_of_flatMap_newline hx.oneLine hy.oneLine (hx.toList_eq.symm.trans hy.toList_eq)

namespace Listing

theorem lines_text (image : List UInt8) :
    Lines (text image) ((items image).map fun (address, item) => line address item) where
  join := by simp [text, Function.comp_def]
  oneLine := by
    intro l hl
    obtain ⟨⟨a, item⟩, -, rfl⟩ := List.mem_map.mp hl
    have hcolon : OneLine ": " := by decide
    simp [line, hcolon, OneLine.item]

/-- The address ends at the first colon. -/
theorem line_inj {a b : Nat} {shown shown' : String}
    (h : Hex.padded 4 a ++ ": " ++ shown = Hex.padded 4 b ++ ": " ++ shown') :
    a = b ∧ shown = shown' := by
  have hcolon (n : Nat) : ':' ∉ (Hex.padded 4 n).toList := Hex.notMem_padded (by decide) 4 n
  obtain ⟨haddress, hshown⟩ := Text.eq_of_append_cons (hcolon a) (hcolon b)
    (by simpa [String.ext_iff] using h)
  exact ⟨Hex.padded_inj (String.toList_inj.mp haddress),
    String.toList_inj.mp (List.cons.inj hshown).2⟩

/-- Where the text has a line, the listing has an item. -/
theorem getElem?_items_of_line {image : List UInt8} {lines : List String}
    (hlines : Lines (text image) lines) {n a : Nat} {shown : String}
    (h : lines[n]? = some (Hex.padded 4 a ++ ": " ++ shown)) :
    ∃ item, (items image)[n]? = some (a, item) ∧ shown = item.text := by
  rw [hlines.unique (lines_text image), List.getElem?_map] at h
  obtain ⟨⟨a', item⟩, hitem, hline⟩ := Option.map_eq_some_iff.mp h
  obtain ⟨rfl, rfl⟩ := line_inj hline
  exact ⟨item, hitem, rfl⟩

end Listing
end Micro68
