import Micro68.Listing

/-! Listings line by line: each line shows what its address says, and the next one begins behind the
words of this one. -/
namespace Micro68

namespace ListingItem

theorem two_le_length {item : ListingItem} (h : ∀ b, item ≠ .stray b) : 2 ≤ item.length := by
  cases item with
  | instruction i => exact Nat.le_add_right 2 _
  | unknown word => exact Nat.le_refl 2
  | stray b => exact absurd rfl (h b)

end ListingItem

namespace Listing

theorem itemAt_ne_stray (hi lo : UInt8) (rest : List UInt8) (b : UInt8) :
    itemAt hi lo rest ≠ .stray b := by
  unfold itemAt
  split <;> simp

@[simp] theorem itemsFrom_nil (address : Nat) : itemsFrom address [] = [] := by rw [itemsFrom]

@[simp] theorem itemsFrom_single (address : Nat) (b : UInt8) :
    itemsFrom address [b] = [(address, .stray b)] := by rw [itemsFrom]

theorem itemsFrom_cons (address : Nat) (hi lo : UInt8) (rest : List UInt8) :
    itemsFrom address (hi :: lo :: rest) = (address, itemAt hi lo rest) ::
      itemsFrom (address + (itemAt hi lo rest).length)
        ((hi :: lo :: rest).drop (itemAt hi lo rest).length) := by
  obtain ⟨d, hd⟩ := Nat.exists_eq_add_of_le'
    (ListingItem.two_le_length (itemAt_ne_stray hi lo rest))
  rw [itemsFrom, hd]
  rfl

theorem drop_itemsFrom (address n : Nat) (bytes : List UInt8) :
    ∃ k, (itemsFrom address bytes).drop n = itemsFrom (address + k) (bytes.drop k) := by
  induction n with
  | zero => exact ⟨0, rfl⟩
  | succ n ih =>
    obtain ⟨k, hk⟩ := ih
    rw [← List.tail_drop, hk]
    rcases hrest : bytes.drop k with _ | ⟨hi, _ | ⟨lo, rest⟩⟩
    · exact ⟨k, by simp [hrest]⟩
    · refine ⟨k + 1, ?_⟩
      rw [← List.drop_drop, hrest]
      simp
    · refine ⟨k + (itemAt hi lo rest).length, ?_⟩
      rw [← List.drop_drop, hrest, itemsFrom_cons, List.tail_cons, Nat.add_assoc]

theorem fst_of_head?_itemsFrom {address : Nat} {bytes : List UInt8} {line : Nat × ListingItem}
    (h : (itemsFrom address bytes).head? = some line) : line.1 = address := by
  rcases bytes with _ | ⟨hi, _ | ⟨lo, rest⟩⟩ <;> rw [itemsFrom] at h <;> cases h <;> rfl

theorem drop_eq_word {image : List UInt8} {a : Nat} (h : a + 1 < image.length) :
    image.drop a = image.getD a 0 :: image.getD (a + 1) 0 :: image.drop (a + 2) := by
  rw [List.drop_eq_getElem_cons (by omega), List.drop_eq_getElem_cons (by omega)]
  simp [h, show a < image.length by omega]

/-- A line whose opcode word lies inside the image shows that word, and tells where the next line
begins. -/
theorem getElem?_items {image : List UInt8} {n a : Nat} {item : ListingItem}
    (h : (items image)[n]? = some (a, item)) (hword : a + 1 < image.length) :
    item = itemAt (image.getD a 0) (image.getD (a + 1) 0) (image.drop (a + 2)) ∧
      ∀ next, (items image)[n + 1]? = some next → next.1 = a + item.length := by
  obtain ⟨k, hk⟩ := drop_itemsFrom 0 n image
  rw [Nat.zero_add] at hk
  have hhead : (itemsFrom k (image.drop k)).head? = some (a, item) := by
    rw [← hk, List.head?_drop]
    exact h
  obtain rfl : a = k := fst_of_head?_itemsFrom hhead
  rw [drop_eq_word hword, itemsFrom_cons] at hk hhead
  have hitem : itemAt (image.getD a 0) (image.getD (a + 1) 0) (image.drop (a + 2)) = item :=
    congrArg Prod.snd (Option.some.inj hhead)
  rw [hitem] at hk
  refine ⟨hitem.symm, fun next hnext => ?_⟩
  have htail := congrArg List.tail hk
  rw [List.tail_drop, List.tail_cons] at htail
  have hfirst := congrArg List.head? htail
  rw [List.head?_drop] at hfirst
  exact fst_of_head?_itemsFrom (hfirst.symm.trans hnext)

/-- One extension word of a listing: the instruction with its address, and the bytes behind it. -/
def completeSlot (p : Instruction × List UInt8) (slot : Slot) : Instruction × List UInt8 :=
  (p.1.setAddress slot (frontWord p.2), p.2.drop 2)

theorem complete_eq (i : Instruction) (rest : List UInt8) :
    complete i rest = (i.absoluteSlots.foldl completeSlot (i, rest)).1 := rfl

end Listing

namespace Opcode

theorem head?_mnemonic (o : Opcode) : ∃ c, o.mnemonic.toList.head? = some c ∧ c ≠ '?' := by
  cases o <;> exact ⟨_, rfl, by decide⟩

end Opcode

namespace Instruction

theorem text_ne_unknown (i : Instruction) (digits : String) : i.text ≠ "??? $" ++ digits := by
  intro h
  obtain ⟨c, hc, hne⟩ := i.opcode.head?_mnemonic
  have hhead : i.text.toList.head? = some c := by
    unfold text
    split <;> simp [hc]
  rw [h] at hhead
  have hmark : ("??? $" ++ digits).toList.head? = some '?' := by simp
  exact hne (Option.some.inj (hhead.symm.trans hmark))

end Instruction

end Micro68
