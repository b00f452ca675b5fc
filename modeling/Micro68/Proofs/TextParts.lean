import Mathlib.Algebra.Group.Nat.Defs
import Micro68.Text.Hex

/-! Texts in parts. A part of a text can be told from what follows it where its characters are of one
kind and what follows begins with a character of another kind; and a number can be told from its
digits. -/
namespace Micro68.Text

/-- Parts of one kind of characters end at the same place, if what follows them begins with another
kind. -/
theorem eq_of_append {P : Char → Prop} {a b s t : List Char} (ha : ∀ c ∈ a, P c)
    (hb : ∀ c ∈ b, P c) (hs : ∀ c ∈ s.head?, ¬ P c) (ht : ∀ c ∈ t.head?, ¬ P c)
    (h : a ++ s = b ++ t) : a = b ∧ s = t := by
  induction a generalizing b with
  | nil =>
    cases b with
    | nil => exact ⟨rfl, h⟩
    | cons y b =>
      rw [show s = y :: (b ++ t) from h] at hs
      exact absurd (hb y List.mem_cons_self) (hs y rfl)
  | cons x a ih =>
    cases b with
    | nil =>
      rw [← show x :: (a ++ s) = t from h] at ht
      exact absurd (ha x List.mem_cons_self) (ht x rfl)
    | cons y b =>
      simp only [List.cons_append, List.cons.injEq, List.forall_mem_cons] at ha hb h
      obtain ⟨rfl, rfl⟩ := ih ha.2 hb.2 h.2
      exact ⟨by rw [h.1], rfl⟩

theorem eq_of_append_cons {c : Char} {a b s t : List Char} (ha : c ∉ a) (hb : c ∉ b)
    (h : a ++ c :: s = b ++ c :: t) : a = b ∧ s = t := by
  obtain ⟨rfl, hst⟩ := eq_of_append (P := (· ≠ c)) (fun x hx hc => ha (hc ▸ hx))
    (fun x hx hc => hb (hc ▸ hx)) (by simp) (by simp) h
  exact ⟨rfl, (List.cons.inj hst).2⟩

theorem notMem_toDigits {c : Char} (hc : c.isDigit = false) (n : Nat) :
    c ∉ Nat.toDigits 10 n := by
  intro h
  have hdigit := Nat.isDigit_of_mem_toDigits (by decide) (by decide) h
  simp [hc] at hdigit

theorem toDigits_inj {m n : Nat} (h : Nat.toDigits 10 m = Nat.toDigits 10 n) : m = n := by
  have hvalue := congrArg (Nat.ofDigitChars 10 · 0) h
  simpa using hvalue

theorem toList_repr (n : Int) : n.repr.toList =
    if n < 0 then '-' :: Nat.toDigits 10 n.natAbs else Nat.toDigits 10 n.natAbs := by
  cases n with
  | ofNat n =>
    rw [if_neg (by simp)]
    simp [Int.repr]
  | negSucc n =>
    rw [if_pos (Int.negSucc_lt_zero n)]
    simp [Int.repr]

theorem notMem_repr {c : Char} (hc : c.isDigit = false) (hsign : c ≠ '-') (n : Int) :
    c ∉ n.repr.toList := by
  have hdigits := notMem_toDigits hc n.natAbs
  rw [toList_repr]
  split
  · simp [hsign, hdigits]
  · exact hdigits

theorem repr_inj {m n : Int} (h : m.repr.toList = n.repr.toList) : m = n := by
  have hsign : ∀ k, '-' ∉ Nat.toDigits 10 k := notMem_toDigits (by decide)
  rw [toList_repr, toList_repr] at h
  by_cases hm : m < 0 <;> by_cases hn : n < 0 <;> simp only [hm, hn, if_true, if_false] at h
  · have habs := toDigits_inj (List.cons.inj h).2
    omega
  · exact absurd (h ▸ List.mem_cons_self) (hsign n.natAbs)
  · exact absurd (h ▸ List.mem_cons_self) (hsign m.natAbs)
  · have habs := toDigits_inj h
    omega

end Micro68.Text
