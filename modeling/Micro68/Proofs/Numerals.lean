import Mathlib.Data.List.DropRight
import Mathlib.Data.List.Forall2
import Mathlib.Data.Nat.Digits.Defs
import Micro68.Console

/-! What a reply says. A text falls into white space, a sign, a mark of the radix, digits as far as
they go and a rest. The number that these digits write may be of any size. Reading does not form it,
as what it adds digits to stops growing at a limit; but its value is that number's, clamped to
64 bits. -/
namespace Micro68

namespace Text

variable {p : Char → Bool}

theorem dropWhile_of_head (cs : List Char) (h : ∀ c ∈ cs.head?, p c = false) :
    cs.dropWhile p = cs := by
  cases cs with
  | nil => rfl
  | cons c cs => rw [List.dropWhile_cons_of_neg (by rw [h c rfl]; decide)]

theorem head_dropWhile (cs : List Char) : ∀ c ∈ (cs.dropWhile p).head?, p c = false := by
  intro c hc
  have h := List.head?_dropWhile_not p cs
  rw [Option.mem_def.mp hc] at h
  exact h

theorem trim_of_parts {before trimmed after : List Char}
    (hblank : ∀ c ∈ before ++ after, isBlank c = true)
    (hfirst : ∀ c ∈ trimmed.head?, isBlank c = false)
    (hlast : ∀ c ∈ trimmed.getLast?, isBlank c = false) :
    trim (before ++ trimmed ++ after) = trimmed := by
  have hbefore (c : Char) (hc : c ∈ before) := hblank c (List.mem_append_left _ hc)
  have hafter (c : Char) (hc : c ∈ after) := hblank c (List.mem_append_right _ hc)
  rw [trim, List.append_assoc, List.dropWhile_append_of_pos hbefore]
  cases trimmed with
  | nil =>
    rw [List.nil_append, List.dropWhile_eq_nil_iff.mpr hafter]
    rfl
  | cons c cs =>
    rw [dropWhile_of_head (c :: cs ++ after) hfirst, List.reverse_append,
      List.dropWhile_append_of_pos fun c hc => hafter c (List.mem_reverse.mp hc),
      dropWhile_of_head _ (by rwa [List.head?_reverse]), List.reverse_reverse]

theorem head_trim (cs : List Char) : ∀ c ∈ (trim cs).head?, isBlank c = false := by
  intro c hc
  obtain ⟨after, hafter⟩ := List.rdropWhile_prefix isBlank (cs.dropWhile isBlank)
  obtain ⟨tail, htail⟩ := List.head?_eq_some_iff.mp hc
  refine head_dropWhile cs c ?_
  rw [← hafter]
  exact List.head?_eq_some_iff.mpr ⟨tail ++ after, congrArg (· ++ after) htail⟩

theorem getLast_trim (cs : List Char) : ∀ c ∈ (trim cs).getLast?, isBlank c = false := by
  rw [trim, List.getLast?_reverse]
  exact head_dropWhile _

end Text

namespace Numeral

def Writes (radix : Nat) (c : Char) (d : Nat) : Prop :=
  d < radix ∧ (c = Nat.digitChar d ∨ c = (Nat.digitChar d).toUpper)

/-- A text behind its sign, if it has one; a minus makes it negative. -/
inductive Signed : List Char → Bool → List Char → Prop where
  | minus (body : List Char) : Signed ('-' :: body) true body
  | plus (body : List Char) : Signed ('+' :: body) false body
  | bare (body : List Char) (h : ∀ c ∈ body.head?, c ≠ '-' ∧ c ≠ '+') : Signed body false body

def HexMarked (body : List Char) : Prop :=
  ∃ x c cs d, body = '0' :: x :: c :: cs ∧ (x = 'x' ∨ x = 'X') ∧ Writes 16 c d

inductive Marked (body : List Char) : Nat → List Char → Prop where
  | hexadecimal (h : HexMarked body) : Marked body 16 (body.drop 2)
  | octal (h : ¬HexMarked body) (h0 : body.head? = some '0') : Marked body 8 body
  | decimal (h0 : body.head? ≠ some '0') : Marked body 10 body

/-- How a text falls into parts. What is left behind the digits does not start with one more. -/
structure Layout (text : List Char) where
  before : List Char
  trimmed : List Char
  after : List Char
  text_eq : text = before ++ trimmed ++ after
  blank : ∀ c ∈ before ++ after, Text.isBlank c = true
  first : ∀ c ∈ trimmed.head?, Text.isBlank c = false
  last : ∀ c ∈ trimmed.getLast?, Text.isBlank c = false
  negative : Bool
  body : List Char
  signed : Signed trimmed negative body
  radix : Nat
  run : List Char
  marked : Marked body radix run
  used : List Char
  digits : List Nat
  rest : List Char
  run_eq : run = used ++ rest
  writes : List.Forall₂ (Writes radix) used digits
  stops : ∀ c ∈ rest.head?, ∀ d, ¬Writes radix c d

namespace Layout

variable {text : List Char} (l : Layout text)

def number : Nat := Nat.ofDigits l.radix l.digits.reverse

/-- That number with its sign, clamped to 64 bits. -/
def value : Int := max (-2 ^ 63) (min (if l.negative then -l.number else l.number) (2 ^ 63 - 1))

end Layout

/-! ### Digits -/

theorem toNat_lt_of_value? {c : Char} {d : Nat} (h : Hex.value? c = some d) : c.toNat < 128 := by
  have hle (u : Char) (hcu : c ≤ u) (hu : u.toNat < 128) : c.toNat < 128 :=
    Nat.lt_of_le_of_lt (UInt32.le_iff_toNat_le.mp hcu) hu
  unfold Hex.value? at h
  split at h
  · next hdecimal => exact hle '9' hdecimal.2 (by decide)
  split at h
  · next hlower => exact hle 'f' hlower.2 (by decide)
  split at h
  · next hupper => exact hle 'F' hupper.2 (by decide)
  · cases h

theorem value?_eq_some {c : Char} {d : Nat} : Hex.value? c = some d ↔ Writes 16 c d := by
  constructor
  · intro h
    have hall : ∀ n : Fin 128, ∀ d ∈ Hex.value? (Char.ofNat n), d < 16 ∧
      (Char.ofNat n = Nat.digitChar d ∨ Char.ofNat n = (Nat.digitChar d).toUpper) := by decide
    have hdigit := hall ⟨c.toNat, toNat_lt_of_value? h⟩ d
    rw [Char.ofNat_toNat] at hdigit
    exact hdigit h
  · rintro ⟨hd, hc⟩
    have hall : ∀ d : Fin 16, Hex.value? (Nat.digitChar d) = some d.val ∧
      Hex.value? (Nat.digitChar d).toUpper = some d.val := by decide
    rcases hc with rfl | rfl
    · exact (hall ⟨d, hd⟩).1
    · exact (hall ⟨d, hd⟩).2

theorem isDigit_iff {c : Char} : Hex.isDigit c = true ↔ ∃ d, Writes 16 c d := by
  rw [Hex.isDigit, Option.isSome_iff_exists]
  exact exists_congr fun d => value?_eq_some

theorem digit?_eq_some {radix : Nat} (hradix : radix ≤ 16) {c : Char} {d : Nat} :
    digit? radix c = some d ↔ Writes radix c d := by
  rw [digit?, Option.filter_eq_some_iff, decide_eq_true_eq, value?_eq_some]
  exact ⟨fun ⟨hwrites, hd⟩ => ⟨hd, hwrites.2⟩,
    fun ⟨hd, hc⟩ => ⟨⟨Nat.lt_of_lt_of_le hd hradix, hc⟩, hd⟩⟩

theorem digit?_eq_none {radix : Nat} (hradix : radix ≤ 16) {c : Char} :
    digit? radix c = none ↔ ∀ d, ¬Writes radix c d := by
  simp only [Option.eq_none_iff_forall_ne_some, ne_eq, digit?_eq_some hradix]

theorem lt_of_writes {radix : Nat} {used : List Char} {ds : List Nat}
    (h : List.Forall₂ (Writes radix) used ds) : ∀ d ∈ ds, d < radix := by
  induction h with
  | nil => nofun
  | cons hd _ ih => exact List.forall_mem_cons.mpr ⟨hd.1, ih⟩

theorem digits_of_run {radix : Nat} (hradix : radix ≤ 16) {used rest : List Char} {ds : List Nat}
    (hwrites : List.Forall₂ (Writes radix) used ds)
    (hstops : ∀ c ∈ rest.head?, ∀ d, ¬Writes radix c d) : digits radix (used ++ rest) = ds := by
  induction hwrites with
  | nil =>
    cases rest with
    | nil => rfl
    | cons c cs => rw [List.nil_append, digits, (digit?_eq_none hradix).mpr (hstops c rfl)]
  | cons hd _ ih => rw [List.cons_append, digits, (digit?_eq_some hradix).mpr hd, ih]

/-- The digits at the front of a text, and where they end. -/
theorem run_digits {radix : Nat} (hradix : radix ≤ 16) (cs : List Char) :
    List.Forall₂ (Writes radix) (cs.take (digits radix cs).length) (digits radix cs) ∧
      ∀ c ∈ (cs.drop (digits radix cs).length).head?, ∀ d, ¬Writes radix c d := by
  induction cs with
  | nil => exact ⟨.nil, nofun⟩
  | cons c cs ih =>
    cases hc : digit? radix c with
    | none =>
      simp only [digits, hc]
      refine ⟨.nil, fun c' hc' => ?_⟩
      obtain rfl := Option.some.inj hc'
      exact (digit?_eq_none hradix).mp hc
    | some d =>
      simp only [digits, hc]
      exact ⟨.cons ((digit?_eq_some hradix).mp hc) ih.1, ih.2⟩

/-! ### Signs and marks -/

theorem signed_splitSign (cs : List Char) : Signed cs (splitSign cs).1 (splitSign cs).2 := by
  unfold splitSign
  split
  · exact .minus _
  · exact .plus _
  · rename_i hminus hplus
    refine .bare _ fun c hc => ?_
    obtain ⟨tail, rfl⟩ := List.head?_eq_some_iff.mp hc
    exact ⟨fun h => hminus tail (by rw [h]), fun h => hplus tail (by rw [h])⟩

theorem Signed.splitSign_eq {cs body : List Char} {negative : Bool} (h : Signed cs negative body) :
    splitSign cs = (negative, body) := by
  cases h with
  | minus => rfl
  | plus => rfl
  | bare _ h =>
    unfold splitSign
    split
    · exact absurd rfl (h '-' rfl).1
    · exact absurd rfl (h '+' rfl).2
    · rfl

theorem splitRadix_hexadecimal {body : List Char} (h : HexMarked body) :
    splitRadix body = (16, body.drop 2) := by
  obtain ⟨x, c, cs, d, rfl, hx, hc⟩ := h
  rw [splitRadix, if_pos ⟨hx, isDigit_iff.mpr ⟨d, hc⟩⟩]

theorem splitRadix_octal {body : List Char} (h : ¬HexMarked body) (h0 : body.head? = some '0') :
    splitRadix body = (8, body) := by
  obtain ⟨cs, rfl⟩ := List.head?_eq_some_iff.mp h0
  rcases cs with _ | ⟨x, _ | ⟨c, cs⟩⟩
  · rfl
  · rfl
  · rw [splitRadix, if_neg]
    rintro ⟨hx, hc⟩
    obtain ⟨d, hd⟩ := isDigit_iff.mp hc
    exact h ⟨x, c, cs, d, rfl, hx, hd⟩

theorem splitRadix_decimal {body : List Char} (h0 : body.head? ≠ some '0') :
    splitRadix body = (10, body) := by
  unfold splitRadix
  split
  · exact absurd rfl h0
  · exact absurd rfl h0
  · rfl

theorem Marked.splitRadix_eq {body run : List Char} {radix : Nat} (h : Marked body radix run) :
    splitRadix body = (radix, run) := by
  cases h with
  | hexadecimal h => exact splitRadix_hexadecimal h
  | octal h h0 => exact splitRadix_octal h h0
  | decimal h0 => exact splitRadix_decimal h0

theorem marked_splitRadix (body : List Char) :
    Marked body (splitRadix body).1 (splitRadix body).2 := by
  by_cases h : HexMarked body
  · rw [splitRadix_hexadecimal h]
    exact .hexadecimal h
  by_cases h0 : body.head? = some '0'
  · rw [splitRadix_octal h h0]
    exact .octal h h0
  · rw [splitRadix_decimal h0]
    exact .decimal h0

theorem Marked.radix_bounds {body run : List Char} {radix : Nat} (h : Marked body radix run) :
    0 < radix ∧ radix ≤ 16 := by
  cases h <;> decide

/-! ### Saturation -/

/-- A number that stops growing at the limit after each digit is the exact one, stopped once. -/
theorem magnitude_eq {radix : Nat} (hradix : 0 < radix) (ds : List Nat) :
    magnitude radix ds = min (Nat.ofDigits radix ds.reverse) limit := by
  induction ds using List.reverseRecOn with
  | nil => rfl
  | append_singleton ds d ih =>
    have hgrows (n : Nat) : n ≤ n * radix + d :=
      Nat.le_trans (Nat.le_mul_of_pos_right n hradix) (Nat.le_add_right ..)
    have hexact : Nat.ofDigits radix (ds ++ [d]).reverse =
        Nat.ofDigits radix ds.reverse * radix + d := by
      rw [List.reverse_concat, Nat.ofDigits_cons, Nat.add_comm, Nat.mul_comm]
    have hstep : magnitude radix (ds ++ [d]) = min (magnitude radix ds * radix + d) limit := by
      rw [magnitude, List.foldl_append]
      rfl
    rw [hstep, hexact, ih]
    -- a number that has reached the limit stays there, as the exact one does beyond it
    rcases Nat.le_total (Nat.ofDigits radix ds.reverse) limit with hle | hge
    · rw [Nat.min_eq_left hle]
    · rw [Nat.min_eq_right hge, Nat.min_eq_right (hgrows limit),
        Nat.min_eq_right (Nat.le_trans hge (hgrows _))]

theorem signed_min (negative : Bool) (n : Nat) : signed negative (min n limit) =
    max (-2 ^ 63 : Int) (min (if negative then -n else n) (2 ^ 63 - 1)) := by
  have hmin : Int64.minValue.toInt = -2 ^ 63 := by decide
  have hmax : Int64.maxValue.toInt = 2 ^ 63 - 1 := by decide
  rw [signed, hmin, hmax, limit]
  cases negative with
  | false =>
    simp only [Bool.false_eq_true, if_false]
    omega
  | true =>
    simp only [if_true]
    omega

/-- Before the limit is applied to it, the number with one more digit needs no more than 127 bits. -/
theorem accumulator_lt {radix d : Nat} (hradix : 0 < radix) (hle : radix ≤ 16) (hd : d < radix)
    (ds : List Nat) : magnitude radix ds * radix + d < 2 ^ 127 := by
  have hlimit : magnitude radix ds ≤ limit := by
    rw [magnitude_eq hradix]
    exact Nat.min_le_right ..
  have hproduct : magnitude radix ds * radix ≤ limit * 16 := Nat.mul_le_mul hlimit hle
  have hbound : limit * 16 + 16 < 2 ^ 127 := by decide
  omega

namespace Layout

variable {text : List Char} (l : Layout text)

theorem trim_eq : Text.trim text = l.trimmed := by
  have h := Text.trim_of_parts l.blank l.first l.last
  rwa [← l.text_eq] at h

theorem digits_eq : Numeral.digits l.radix l.run = l.digits := by
  rw [l.run_eq]
  exact digits_of_run l.marked.radix_bounds.2 l.writes l.stops

theorem magnitude_eq : magnitude l.radix l.digits = min l.number limit :=
  Numeral.magnitude_eq l.marked.radix_bounds.1 l.digits

theorem signed_eq : Numeral.signed l.negative (magnitude l.radix l.digits) = l.value := by
  rw [l.magnitude_eq, signed_min]
  rfl

theorem read?_eq : read? l.trimmed =
    if l.digits = [] then none else some (Int32.ofInt l.value) := by
  unfold read?
  simp only [l.signed.splitSign_eq, l.marked.splitRadix_eq, l.digits_eq]
  split
  · next h => rw [if_pos h]
  · next h => rw [if_neg h, l.signed_eq]

def of (text : List Char) : Layout text where
  before := text.takeWhile Text.isBlank
  trimmed := Text.trim text
  after := (text.dropWhile Text.isBlank).rtakeWhile Text.isBlank
  text_eq := by
    rw [List.append_assoc]
    exact (List.takeWhile_append_dropWhile ..).symm.trans
      (congrArg _ (List.rdropWhile_append_rtakeWhile ..).symm)
  blank := by
    intro c hc
    rcases List.mem_append.mp hc with hc | hc
    · exact List.mem_takeWhile_imp hc
    · exact List.mem_rtakeWhile_imp hc
  first := Text.head_trim text
  last := Text.getLast_trim text
  negative := (splitSign (Text.trim text)).1
  body := (splitSign (Text.trim text)).2
  signed := signed_splitSign _
  radix := (splitRadix (splitSign (Text.trim text)).2).1
  run := (splitRadix (splitSign (Text.trim text)).2).2
  marked := marked_splitRadix _
  used := let r := splitRadix (splitSign (Text.trim text)).2
    r.2.take (Numeral.digits r.1 r.2).length
  digits := let r := splitRadix (splitSign (Text.trim text)).2
    Numeral.digits r.1 r.2
  rest := let r := splitRadix (splitSign (Text.trim text)).2
    r.2.drop (Numeral.digits r.1 r.2).length
  run_eq := (List.take_append_drop ..).symm
  writes := (run_digits (marked_splitRadix _).radix_bounds.2 _).1
  stops := (run_digits (marked_splitRadix _).radix_bounds.2 _).2

end Layout

/-- A reply says the number that the digits in it write, clamped to 64 bits and cut to 32; without
digits it says nothing. Stopping at a limit after each digit changes nothing and keeps what digits are
added to small, however many there are. -/
theorem readReply_value (reply : String) :
    Nonempty (Layout reply.toList) ∧ ∀ l : Layout reply.toList,
      (readReply reply = .error (.unreadable l.trimmed) ↔ l.digits = []) ∧
      (l.digits ≠ [] → ∃ v, readReply reply = .ok v ∧ v.toInt % 2 ^ 32 = l.value % 2 ^ 32) ∧
      signed l.negative (magnitude l.radix l.digits) = l.value ∧
      ∀ used d, used ++ [d] <+: l.digits → magnitude l.radix used * l.radix + d < 2 ^ 127 := by
  refine ⟨⟨.of _⟩, fun l => ⟨?_, fun hdigits => ?_, l.signed_eq, fun used d hprefix => ?_⟩⟩
  · unfold readReply
    simp only [l.trim_eq, l.read?_eq]
    by_cases hdigits : l.digits = []
    · simp [hdigits]
    · simp [hdigits]
  · refine ⟨Int32.ofInt l.value, ?_, ?_⟩
    · unfold readReply
      simp only [l.trim_eq, l.read?_eq, if_neg hdigits]
    · rw [Int32.toInt_ofInt]
      exact Int.bmod_emod
  · have hd : d ∈ l.digits := hprefix.subset (by simp)
    obtain ⟨hpos, hle⟩ := l.marked.radix_bounds
    exact accumulator_lt hpos hle (lt_of_writes l.writes d hd) used

/-- More than 64 bits hold, with white space in front and something else behind. -/
theorem readReply_value_saturated :
    let reply := " -0x8000000000000001 apples"
    let l := Layout.of reply.toList
    l.digits ≠ [] ∧ l.number = 2 ^ 63 + 1 ∧ l.value = -2 ^ 63 ∧
      (∃ v, readReply reply = .ok v ∧ v.toInt % 2 ^ 32 = 0) ∧
      [8] ++ [0] <+: l.digits ∧ magnitude l.radix [8] * l.radix + 0 < 2 ^ 127 := by
  intro reply l
  have hdigits : l.digits ≠ [] := by decide +kernel
  have hvalue : l.value = -2 ^ 63 := by decide +kernel
  have hprefix : [8] ++ [0] <+: l.digits := by decide +kernel
  obtain ⟨-, hreads, -, hsmall⟩ := (readReply_value reply).2 l
  obtain ⟨v, hv, hcongr⟩ := hreads hdigits
  refine ⟨hdigits, by decide +kernel, hvalue, ⟨v, hv, ?_⟩, hprefix, hsmall _ _ hprefix⟩
  rw [hcongr, hvalue]
  decide

end Numeral
end Micro68
