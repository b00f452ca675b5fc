import Mathlib.Logic.ExistsUnique
import Mathlib.Tactic.ByContra
import Micro68.Proofs.FetchedWords

/-! Listings and the bytes that they show. The lines of a listing take the bytes of the image one after
the other, without a gap and without an overlap; only the last line may want bytes that are not there.
An image that is cut between two lines lists as the lines before the cut. -/
namespace Micro68

namespace ListingItem

theorem length_pos (item : ListingItem) : 0 < item.length := by
  cases item <;> simp only [length] <;> omega

theorem length_le (item : ListingItem) : item.length ≤ 6 := by
  cases item with
  | instruction i => have := i.extensionWords_le; simp only [length]; omega
  | unknown word | stray b => simp [length]

end ListingItem

namespace Listing

def behind (l : Nat × ListingItem) : Nat := l.1 + l.2.length

def extent : List (Nat × ListingItem) → Nat
  | [] => 0
  | l :: lines => l.2.length + extent lines

/-- Each line begins where the one before it ends, the first one at an address. -/
def Consecutive : Nat → List (Nat × ListingItem) → Prop
  | _, [] => True
  | a, l :: lines => l.1 = a ∧ Consecutive (behind l) lines

@[simp] theorem extent_append (pre post : List (Nat × ListingItem)) :
    extent (pre ++ post) = extent pre + extent post := by
  induction pre with
  | nil => simp [extent]
  | cons l pre ih => simp [extent, ih, Nat.add_assoc]

namespace Consecutive

variable {a : Nat} {lines pre post : List (Nat × ListingItem)} {l : Nat × ListingItem}

theorem of_append (h : Consecutive a (pre ++ post)) : Consecutive (a + extent pre) post := by
  induction pre generalizing a with
  | nil => exact h
  | cons l pre ih =>
    obtain ⟨rfl, h⟩ := h
    simpa [extent, behind, Nat.add_assoc] using ih h

theorem start_eq (h : Consecutive a (pre ++ l :: post)) : l.1 = a + extent pre := h.of_append.1

theorem le_of_mem (h : Consecutive a lines) (hl : l ∈ lines) : a ≤ l.1 := by
  induction lines generalizing a with
  | nil => cases hl
  | cons first lines ih =>
    obtain ⟨rfl, h⟩ := h
    rcases List.mem_cons.mp hl with rfl | hl
    · exact Nat.le_refl _
    · exact Nat.le_trans (Nat.le_add_right _ _) (ih h hl)

theorem pairwise (h : Consecutive a lines) : lines.Pairwise fun l l' => behind l ≤ l'.1 := by
  induction lines generalizing a with
  | nil => exact .nil
  | cons l lines ih => exact .cons (fun l' hl' => h.2.le_of_mem hl') (ih h.2)

theorem exists_mem (h : Consecutive a lines) {p : Nat} (hp : a ≤ p) (hp' : p < a + extent lines) :
    ∃ l ∈ lines, l.1 ≤ p ∧ p < behind l := by
  induction lines generalizing a with
  | nil => simp only [extent] at hp'; omega
  | cons l lines ih =>
    obtain ⟨rfl, h⟩ := h
    by_cases hl : p < behind l
    · exact ⟨l, List.mem_cons_self, hp, hl⟩
    · have hextent : l.1 + extent (l :: lines) = behind l + extent lines := by
        simp [extent, behind, Nat.add_assoc]
      obtain ⟨l', hl', hin⟩ := ih h (by omega) (by omega)
      exact ⟨l', List.mem_cons_of_mem l hl', hin⟩

theorem eq_of_mem (h : Consecutive a lines) {l l' : Nat × ListingItem} (hl : l ∈ lines)
    (hl' : l' ∈ lines) {p : Nat} (hp : l.1 ≤ p ∧ p < behind l) (hp' : l'.1 ≤ p ∧ p < behind l') :
    l = l' := by
  induction lines generalizing a with
  | nil => cases hl
  | cons first lines ih =>
    obtain ⟨-, h⟩ := h
    rcases List.mem_cons.mp hl with rfl | htail <;> rcases List.mem_cons.mp hl' with rfl | htail'
    · rfl
    · have hle := h.le_of_mem htail'
      omega
    · have hle := h.le_of_mem htail
      omega
    · exact ih h htail htail'

end Consecutive

theorem complete_take {i : Instruction} {n : Nat} (h : 2 * i.extensionWords ≤ n)
    (rest : List UInt8) : complete i (rest.take n) = complete i rest := by
  rw [Instruction.complete_eq_withWords, Instruction.complete_eq_withWords]
  refine Instruction.withWords_congr fun k hk => ?_
  obtain ⟨d, hd⟩ := Nat.exists_eq_add_of_le' (show 2 ≤ n - 2 * k by omega)
  rw [List.drop_take, hd]
  rcases rest.drop (2 * k) with _ | ⟨hi, _ | ⟨lo, rest⟩⟩ <;> rfl

theorem itemAt_take {hi lo : UInt8} {rest : List UInt8} {n : Nat}
    (h : (itemAt hi lo rest).length ≤ n + 2) : itemAt hi lo (rest.take n) = itemAt hi lo rest := by
  unfold itemAt at h ⊢
  split at h
  · rename_i i _
    have hform := (sameForm_complete i rest).extensionWords
    simp only [ListingItem.length] at h
    rw [complete_take (by omega)]
  · rfl

theorem consecutive_itemsFrom (a : Nat) (bytes : List UInt8) :
    Consecutive a (itemsFrom a bytes) := by
  induction a, bytes using itemsFrom.induct with
  | case1 a => simp [Consecutive]
  | case2 a b => simp [Consecutive]
  | case3 a hi lo rest item ih =>
    rw [itemsFrom]
    exact ⟨rfl, ih⟩

/-- A listing taken apart between two lines: each part lists its own bytes. -/
theorem itemsFrom_append {a : Nat} {bytes : List UInt8} {pre post : List (Nat × ListingItem)}
    (h : itemsFrom a bytes = pre ++ post) :
    itemsFrom a (bytes.take (extent pre)) = pre ∧
      itemsFrom (a + extent pre) (bytes.drop (extent pre)) = post := by
  induction pre generalizing a bytes with
  | nil => simpa [extent] using h
  | cons l pre ih =>
    rcases bytes with _ | ⟨hi, _ | ⟨lo, rest⟩⟩
    · simp at h
    · obtain ⟨rfl, hnil⟩ : l = (a, .stray hi) ∧ pre ++ post = [] := by simpa [eq_comm] using h
      obtain ⟨rfl, rfl⟩ := List.append_eq_nil_iff.mp hnil
      simp [extent, ListingItem.length]
    · rw [itemsFrom_cons, List.cons_append, List.cons.injEq] at h
      obtain ⟨rfl, h⟩ := h
      obtain ⟨d, hd⟩ := Nat.exists_eq_add_of_le'
        (ListingItem.two_le_length (itemAt_ne_stray hi lo rest))
      obtain ⟨htake, hdrop⟩ := ih h
      constructor
      · have hitem : itemAt hi lo (rest.take (d + extent pre)) = itemAt hi lo rest :=
          itemAt_take (by omega)
        have hbytes : (hi :: lo :: rest).take (extent ((a, itemAt hi lo rest) :: pre)) =
            hi :: lo :: rest.take (d + extent pre) := by
          rw [extent, hd, show d + 2 + extent pre = d + extent pre + 2 by omega]
          rfl
        rw [hbytes, itemsFrom_cons, hitem, ← hbytes, extent, List.drop_take, Nat.add_sub_cancel_left,
          htake]
      · rw [extent, ← List.drop_drop, ← Nat.add_assoc]
        exact hdrop

theorem length_itemsFrom_le (a : Nat) (bytes : List UInt8) :
    2 * (itemsFrom a bytes).length ≤ bytes.length + 1 := by
  induction a, bytes using itemsFrom.induct with
  | case1 a => simp
  | case2 a b => simp
  | case3 a hi lo rest item ih =>
    rw [itemsFrom]
    change 2 * ((itemsFrom (a + item.length) (rest.drop (item.length - 2))).length + 1) ≤ _
    simp only [List.length_drop, List.length_cons] at ih ⊢
    omega

def wordAt (image : List UInt8) (a : Nat) : UInt16 :=
  BigEndian.word (image.getD a 0) (image.getD (a + 1) 0)

/-- What a line shows of an image: an instruction with its extension words, or a word that is no opcode
word, or the last byte if it stands alone. -/
def Shows (image : List UInt8) (a : Nat) : ListingItem → Prop
  | .instruction j => a + 2 ≤ image.length ∧ ∃ i, Instruction.decode (wordAt image a) = .ok i ∧
      j = i.withWords (fun k => frontWord (image.drop (a + 2 + 2 * k))) ∧
      j.extensionWords = i.extensionWords
  | .unknown word => a + 2 ≤ image.length ∧ word = wordAt image a ∧
      ∃ f, Instruction.decode word = .error f
  | .stray b => a + 1 = image.length ∧ image[a]? = some b

section Lines

variable {image : List UInt8} {pre post : List (Nat × ListingItem)} {l : Nat × ListingItem}

theorem shows_itemAt {a : Nat} (h : a + 2 ≤ image.length) :
    Shows image a (itemAt (image.getD a 0) (image.getD (a + 1) 0) (image.drop (a + 2))) := by
  unfold itemAt
  split
  · rename_i i hi
    refine ⟨h, i, hi, ?_, (sameForm_complete i _).extensionWords⟩
    rw [Instruction.complete_eq_withWords]
    simp only [List.drop_drop]
  · rename_i f hf
    exact ⟨h, rfl, f, hf⟩

theorem line_between (h : items image = pre ++ l :: post) :
    l.1 = extent pre ∧ l.1 < image.length ∧ Shows image l.1 l.2 ∧
      itemsFrom (behind l) (image.drop (behind l)) = post := by
  have hstart : l.1 = extent pre := by
    have hconsecutive := consecutive_itemsFrom 0 image
    rw [← items, h] at hconsecutive
    simpa using hconsecutive.start_eq
  have hhere : itemsFrom l.1 (image.drop l.1) = l :: post := by
    simpa [hstart] using (itemsFrom_append h).2
  have hbehind : itemsFrom (behind l) (image.drop (behind l)) = post := by
    have hone : itemsFrom l.1 (image.drop l.1) = [l] ++ post := hhere
    simpa [extent, behind] using (itemsFrom_append hone).2
  have hlt : l.1 < image.length := by
    by_contra hnot
    rw [List.drop_eq_nil_of_le (Nat.le_of_not_lt hnot)] at hhere
    simp at hhere
  refine ⟨hstart, hlt, ?_, hbehind⟩
  by_cases hword : l.1 + 1 < image.length
  · rw [drop_eq_word hword, itemsFrom_cons, List.cons.injEq] at hhere
    rw [← congrArg Prod.snd hhere.1]
    exact shows_itemAt hword
  · have hlast : l.1 + 1 = image.length := by omega
    rw [List.drop_eq_getElem_cons hlt, List.drop_eq_nil_of_le (Nat.le_of_eq hlast.symm),
      itemsFrom_single, List.cons.injEq] at hhere
    rw [← congrArg Prod.snd hhere.1]
    exact ⟨hlast, List.getElem?_eq_getElem hlt⟩

theorem behind_lt_of_ne_nil (h : items image = pre ++ l :: post) (hpost : post ≠ []) :
    behind l < image.length := by
  obtain ⟨-, -, -, hbehind⟩ := line_between h
  by_contra hnot
  rw [List.drop_eq_nil_of_le (Nat.le_of_not_lt hnot), itemsFrom_nil] at hbehind
  exact hpost hbehind.symm

theorem length_le_extent (image : List UInt8) : image.length ≤ extent (items image) := by
  have hsplit : items image = items image ++ [] := by simp
  have hrest := (itemsFrom_append hsplit).2
  by_contra hnot
  obtain ⟨b, bytes, hb⟩ := List.exists_cons_of_ne_nil
    (show image.drop (extent (items image)) ≠ [] by simp; omega)
  rw [hb] at hrest
  cases bytes <;> simp [itemsFrom_cons] at hrest

end Lines

theorem Shows.behind_le {image : List UInt8} {l : Nat × ListingItem} (h : Shows image l.1 l.2) :
    behind l ≤ image.length + 4 := by
  obtain ⟨a, item⟩ := l
  have hlength := item.length_le
  cases item with
  | instruction i | unknown word =>
    have hword : a + 2 ≤ image.length := h.1
    simp only [behind]
    omega
  | stray b =>
    have hlast : a + 1 = image.length := h.1
    simp only [behind, ListingItem.length]
    omega

/-- How lines take the bytes of an image. -/
structure Tiles (image : List UInt8) (lines : List (Nat × ListingItem)) : Prop where
  /-- There are finitely many, about one for each two bytes. -/
  few : 2 * lines.length ≤ image.length + 1
  consecutive : Consecutive 0 lines
  increasing : lines.Pairwise fun l l' => l.1 < l'.1
  disjoint : lines.Pairwise fun l l' => behind l ≤ l'.1
  inside : ∀ l ∈ lines, l.1 < image.length
  shows : ∀ l ∈ lines, Shows image l.1 l.2
  covers : ∀ p < image.length, ∃! l, l ∈ lines ∧ l.1 ≤ p ∧ p < behind l
  /-- Only the last line may reach past the end, by two words that are not there. -/
  past : ∀ l ∈ lines, behind l ≤ image.length + 4 ∧
    (image.length < behind l → lines.getLast? = some l)
  /-- A byte stands alone in the last line only, and only where the line before it leaves it over. -/
  stray : (∃ a b, (a, .stray b) ∈ lines) ↔
    image.length = 1 ∨ ∃ l ∈ lines, behind l + 1 = image.length
  strayLast : ∀ a b, (a, .stray b) ∈ lines → lines.getLast? = some (a, .stray b)

theorem tiles_items (image : List UInt8) : Tiles image (items image) := by
  have hconsecutive : Consecutive 0 (items image) := consecutive_itemsFrom 0 image
  have hline : ∀ l ∈ items image, l.1 < image.length ∧ Shows image l.1 l.2 ∧
      (image.length ≤ behind l → (items image).getLast? = some l) := by
    intro l hl
    obtain ⟨pre, post, h⟩ := List.append_of_mem hl
    obtain ⟨-, hinside, hshows, -⟩ := line_between h
    refine ⟨hinside, hshows, fun hpast => ?_⟩
    by_cases hpost : post = []
    · simp [h, hpost]
    · exact absurd (behind_lt_of_ne_nil h hpost) (Nat.not_lt_of_le hpast)
  have hstray : ∀ a b, (a, .stray b) ∈ items image → a + 1 = image.length :=
    fun a b h => (hline _ h).2.1.1
  have hdisjoint := hconsecutive.pairwise
  constructor
  case few => exact length_itemsFrom_le 0 image
  case consecutive => exact hconsecutive
  case increasing =>
    refine hdisjoint.imp fun {l l'} h => ?_
    have hpos := l.2.length_pos
    simp only [behind] at h
    omega
  case disjoint => exact hdisjoint
  case inside => exact fun l hl => (hline l hl).1
  case shows => exact fun l hl => (hline l hl).2.1
  case covers =>
    intro p hp
    have hextent := length_le_extent image
    obtain ⟨l, hl, hle, hlt⟩ := hconsecutive.exists_mem (Nat.zero_le p) (by omega)
    exact ⟨l, ⟨hl, hle, hlt⟩, fun l' ⟨hl', hin⟩ => hconsecutive.eq_of_mem hl' hl hin ⟨hle, hlt⟩⟩
  case past =>
    intro l hl
    obtain ⟨-, hshows, hlast⟩ := hline l hl
    exact ⟨hshows.behind_le, fun h => hlast (Nat.le_of_lt h)⟩
  case stray =>
    constructor
    · rintro ⟨a, b, h⟩
      have hlast := hstray a b h
      obtain ⟨pre, post, hsplit⟩ := List.append_of_mem h
      have hstart : a = extent pre := (line_between hsplit).1
      rcases List.eq_nil_or_concat pre with rfl | ⟨before, l, rfl⟩
      · left
        simp [← hlast, hstart, extent]
      · right
        simp only [List.concat_eq_append, List.append_assoc, List.singleton_append] at hsplit
        have hl : l.1 = extent before := (line_between hsplit).1
        exact ⟨l, by simp [hsplit], by simp [← hlast, hstart, behind, hl, extent]⟩
    · rintro (hone | ⟨l, hl, hend⟩)
      · obtain ⟨b, rfl⟩ := List.length_eq_one_iff.mp hone
        exact ⟨0, b, by simp [items]⟩
      · obtain ⟨pre, post, hsplit⟩ := List.append_of_mem hl
        obtain ⟨-, -, -, hpost⟩ := line_between hsplit
        obtain ⟨b, hb⟩ := List.length_eq_one_iff.mp
          (show (image.drop (behind l)).length = 1 by rw [List.length_drop]; omega)
        rw [hb, itemsFrom_single] at hpost
        exact ⟨behind l, b, by simp [hsplit, ← hpost]⟩
  case strayLast =>
    intro a b h
    refine (hline _ h).2.2 ?_
    have hlast := hstray a b h
    simp [behind, ListingItem.length, hlast]

end Listing
end Micro68
