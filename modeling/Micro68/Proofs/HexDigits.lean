import Mathlib.Algebra.Group.Nat.Defs
import Micro68.Text.Hex

/-! Numbers in hexadecimal. What is written for a number has upper-case digits alone, reads back as the
number, and is as long as it must be and no longer. -/
namespace Micro68.Hex

theorem mem_toDigits {b n : Nat} (hb : 1 < b) {c : Char} (h : c ∈ Nat.toDigits b n) :
    ∃ d < b, c = Nat.digitChar d := by
  induction n using Nat.strongRecOn with
  | ind n ih =>
    rw [Nat.toDigits_eq_if hb] at h
    split at h
    · rename_i hn
      exact ⟨n, hn, List.mem_singleton.mp h⟩
    · rename_i hn
      rcases List.mem_append.mp h with h | h
      · exact ih (n / b) (Nat.div_lt_self (by omega) hb) h
      · exact ⟨n % b, Nat.mod_lt _ (by omega), List.mem_singleton.mp h⟩

def alphabet : List Char := "0123456789ABCDEF".toList

theorem digit_alphabet : ∀ d : Fin 16,
    (Nat.digitChar d).toUpper ∈ alphabet ∧ value? (Nat.digitChar d).toUpper = some d.val := by decide

theorem alphabet_of_mem_padded {width n : Nat} {c : Char} (h : c ∈ (padded width n).toList) :
    c ∈ alphabet := by
  rw [padded, String.toList_ofList, List.mem_append] at h
  rcases h with h | h
  · rw [List.eq_of_mem_replicate h]
    decide
  · obtain ⟨x, hx, rfl⟩ := List.mem_map.mp h
    obtain ⟨d, hd, rfl⟩ := mem_toDigits (by decide) hx
    exact (digit_alphabet ⟨d, hd⟩).1

theorem isDigit_of_mem_padded {width n : Nat} {c : Char} (h : c ∈ (padded width n).toList) :
    isDigit c = true := by
  have hall : alphabet.all isDigit = true := by decide
  exact List.all_eq_true.mp hall c (alphabet_of_mem_padded h)

theorem ofDigits_concat (cs : List Char) (c : Char) :
    ofDigits (cs ++ [c]) = 16 * ofDigits cs + (value? c).getD 0 := by
  simp [ofDigits]

theorem ofDigits_zeros (k : Nat) (cs : List Char) :
    ofDigits (List.replicate k '0' ++ cs) = ofDigits cs := by
  induction k with
  | zero => rfl
  | succ k ih => exact ih

theorem ofDigits_digits (n : Nat) : ofDigits (digits n) = n := by
  have hdigit : ∀ d < 16, (value? (Nat.digitChar d).toUpper).getD 0 = d := fun d hd => by
    rw [(digit_alphabet ⟨d, hd⟩).2, Option.getD_some]
  induction n using Nat.strongRecOn with
  | ind n ih =>
    rw [digits, Nat.toDigits_eq_if (by decide)]
    split
    · rename_i hn
      simpa [ofDigits] using hdigit n hn
    · rename_i hn
      have hhead : ofDigits (digits (n / 16)) = n / 16 := ih _ (by omega)
      rw [List.map_append, ← digits, List.map_singleton, ofDigits_concat, hhead,
        hdigit _ (Nat.mod_lt _ (by decide))]
      omega

/-- What a number looks like when it is filled up with zeros to at least `width` digits. Zero has a digit
too. -/
structure Writes (width : Nat) (text : String) (n : Nat) : Prop where
  nonempty : 0 < text.length
  upper : ∀ c ∈ text.toList, c ∈ alphabet
  value : ofDigits text.toList = n
  filled : width ≤ text.length
  short : ∀ k, 0 < k → width ≤ k → n < 16 ^ k → text.length ≤ k

theorem writes_padded (width n : Nat) : Writes width (padded width n) n := by
  have hlength : (padded width n).length = width - (digits n).length + (digits n).length := by
    rw [padded, String.length_ofList, List.length_append, List.length_replicate]
  refine ⟨?_, fun c hc => alphabet_of_mem_padded hc, ?_, ?_, fun k hk hwidth hn => ?_⟩
  · have hdigits : 0 < (digits n).length := by
      rw [digits, List.length_map]
      exact List.length_pos_iff.mpr Nat.toDigits_ne_nil
    omega
  · rw [padded, String.toList_ofList, ofDigits_zeros, ofDigits_digits]
  · omega
  · have hdigits : (digits n).length ≤ k := by
      rw [digits, List.length_map]
      exact (Nat.length_toDigits_le_iff (by decide) hk).mpr hn
    omega

theorem padded_inj {width m n : Nat} (h : padded width m = padded width n) : m = n := by
  rw [← (writes_padded width m).value, h, (writes_padded width n).value]

theorem notMem_padded {c : Char} (hc : isDigit c = false) (width n : Nat) :
    c ∉ (padded width n).toList := by
  intro h
  simp [isDigit_of_mem_padded h] at hc

end Micro68.Hex
