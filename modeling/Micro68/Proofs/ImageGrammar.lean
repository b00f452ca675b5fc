import Micro68.Image
import Mathlib.Data.List.DropRight
import Mathlib.Data.Nat.Digits.Defs

/-! The grammar of program images. A byte begins at a `$` that is not in a comment, and whether a
position is in one depends on the `/` in front of it on its line alone. So the bytes of an image are
found by looking at every position of its text by itself, and reading from front to back finds the
same ones. -/
namespace Micro68.Image

def number (digits : List Char) : Nat :=
  Nat.ofDigits 16 (digits.reverse.map fun c => (Hex.value? c).getD 0)

theorem ofDigits_eq_number (digits : List Char) : Hex.ofDigits digits = number digits := by
  induction digits using List.reverseRecOn with
  | nil => rfl
  | append_singleton ds d ih =>
    rw [Hex.ofDigits, List.foldl_append, ← Hex.ofDigits, ih, number, number, List.reverse_concat,
      List.map_cons, Nat.ofDigits_cons, Nat.add_comm]
    rfl

variable (text : List Char)

def lineAt (p : Nat) : Nat := 1 + (text.take p).count '\n'

/-- Is a position in a comment? A comment that is open ends with its line. -/
def commented (p : Nat) : Bool := ((text.take p).rtakeWhile (· ≠ '\n')).count '/' % 2 = 1

/-- What the text of an image has for one byte. -/
structure Token where
  line : Nat
  digits : List Char

def token? (p : Nat) : Option Token :=
  if text[p]? = some '$' ∧ commented text p = false then
    some ⟨lineAt text p, (text.drop (p + 1)).takeWhile Hex.isDigit⟩
  else none

def tokens : List Token := (List.range text.length).filterMap (token? text)

def InToken (p : Nat) : Prop := ∃ q t, token? text q = some t ∧ q ≤ p ∧ p ≤ q + t.digits.length

namespace Token

variable (t : Token)

def Fits : Prop := t.digits ≠ [] ∧ number t.digits ≤ 255

instance : Decidable t.Fits := inferInstanceAs (Decidable (_ ∧ _))

def error : ByteError := if t.digits = [] then .noDigits else .tooLarge t.digits

def read : Except ImageError UInt8 := (byte t.digits).mapError (.parse t.line)

variable {t}

theorem read_of_fits (h : t.Fits) : t.read = .ok (UInt8.ofNat (number t.digits)) := by
  rw [read, byte, if_neg h.1, ofDigits_eq_number, if_pos h.2]
  rfl

theorem read_of_not_fits (h : ¬t.Fits) : t.read = .error (.parse t.line t.error) := by
  rw [read, byte, ofDigits_eq_number, error]
  by_cases hd : t.digits = []
  · rw [if_pos hd, if_pos hd]
    rfl
  · rw [if_neg hd, if_neg hd, if_neg fun hle => h ⟨hd, hle⟩]
    rfl

end Token

theorem mapM_read (ts : List Token) : ts.mapM Token.read =
    match ts.find? (¬·.Fits) with
    | none => .ok (ts.map fun t => UInt8.ofNat (number t.digits))
    | some t => .error (.parse t.line t.error) := by
  induction ts with
  | nil => rfl
  | cons t ts ih =>
    rw [List.mapM_cons, ih, List.find?_cons]
    by_cases ht : t.Fits
    · rw [Token.read_of_fits ht, decide_eq_false (not_not_intro ht)]
      cases ts.find? (¬·.Fits) <;> rfl
    · rw [Token.read_of_not_fits ht, decide_eq_true ht]
      rfl

theorem mapM_read_eq_ok {ts : List Token} {bytes : List UInt8} : ts.mapM Token.read = .ok bytes ↔
    (∀ t ∈ ts, t.Fits) ∧ bytes.map UInt8.toNat = ts.map (number ·.digits) := by
  rw [mapM_read]
  cases hfind : ts.find? (¬·.Fits) with
  | some t =>
    have ht : ¬t.Fits := by simpa using List.find?_some hfind
    exact iff_of_false (fun h => by cases h) fun h => ht (h.1 t (List.mem_of_find?_eq_some hfind))
  | none =>
    have hfits : ∀ t ∈ ts, t.Fits := by simpa using hfind
    have hvalues : (ts.map fun t => UInt8.ofNat (number t.digits)).map UInt8.toNat =
        ts.map (number ·.digits) := by
      rw [List.map_map]
      exact List.map_congr_left fun t ht =>
        UInt8.toNat_ofNat_of_lt' (Nat.lt_succ_of_le (hfits t ht).2)
    rw [← hvalues, Except.ok.injEq, and_iff_right hfits, eq_comm]
    exact (List.map_inj_right fun _ _ => UInt8.toNat_inj.mp).symm

variable {text} {p : Nat} {c : Char}

theorem token?_eq_some {t : Token} : token? text p = some t ↔
    (text[p]? = some '$' ∧ commented text p = false) ∧
      ⟨lineAt text p, (text.drop (p + 1)).takeWhile Hex.isDigit⟩ = t := by
  rw [token?, Option.ite_none_right_eq_some, Option.some.injEq]

theorem token?_eq_none (h : ¬(text[p]? = some '$' ∧ commented text p = false)) :
    token? text p = none := if_neg h

theorem lineAt_succ (h : text[p]? = some c) :
    lineAt text (p + 1) = lineAt text p + if c = '\n' then 1 else 0 := by
  rw [lineAt, List.take_add_one, h, Option.toList_some, List.count_append, List.count_singleton, lineAt]
  simp [Nat.add_assoc]

theorem commented_succ (h : text[p]? = some c) :
    commented text (p + 1) =
      if c = '\n' then false else if c = '/' then !commented text p else commented text p := by
  rw [commented, List.take_add_one, h, Option.toList_some, List.rtakeWhile_concat, commented]
  by_cases hline : c = '\n'
  · simp [hline]
  · by_cases hslash : c = '/'
    · have hparity (n : Nat) : decide ((n + 1) % 2 = 1) = !decide (n % 2 = 1) := by
        rw [← decide_not, decide_eq_decide]
        omega
      simp [hslash, List.count_append, hparity]
    · simp [hline, hslash, List.count_append]

/-- Reading from a position on finds the tokens that begin there or behind it. -/
theorem scan_eq {n : Nat} (h : p + n = text.length) :
    scan (lineAt text p) (commented text p) (text.drop p) =
      ((List.range' p n).filterMap (token? text)).mapM Token.read := by
  -- on how much of the text is left; the scan carries along what the position tells by itself
  induction n generalizing p with
  | zero =>
    rw [List.drop_eq_nil_of_le (by omega)]
    rfl
  | succ n ih =>
    have hp : p < text.length := by omega
    have hc : text[p]? = some text[p] := List.getElem?_eq_getElem hp
    have hnext := ih (p := p + 1) (by omega)
    rw [lineAt_succ hc, commented_succ hc] at hnext
    rw [List.drop_eq_getElem_cons hp, List.range'_succ, List.filterMap_cons, scan]
    generalize text[p] = c at *
    by_cases hline : c = '\n'
    · rw [token?_eq_none (by simp [hc, hline])]
      simpa [hline] using hnext
    by_cases hslash : c = '/'
    · rw [token?_eq_none (by simp [hc, hslash])]
      simpa [hslash] using hnext
    rw [if_neg hline, if_neg hline, if_neg hslash, Nat.add_zero] at hnext
    rw [if_neg hline, if_neg hslash, hnext]
    by_cases htoken : c = '$' ∧ commented text p = false
    · have ht : token? text p =
          some ⟨lineAt text p, (text.drop (p + 1)).takeWhile Hex.isDigit⟩ :=
        if_pos ⟨hc.trans (congrArg some htoken.1), htoken.2⟩
      rw [if_pos htoken, ht]
      simp only [List.mapM_cons, Token.read]
      cases byte ((text.drop (p + 1)).takeWhile Hex.isDigit) <;> rfl
    · rw [if_neg htoken, token?_eq_none (by simpa [hc] using htoken)]

theorem parse_eq (text : String) : parse text = (tokens text.toList).mapM Token.read := by
  have hscan : scan 1 false text.toList = _ := scan_eq (Nat.zero_add text.toList.length)
  rw [parse, hscan, tokens, List.range_eq_range']

/-! ### What does not count -/

section
variable {α : Type} {P : α → Bool}

theorem takeWhile_append_cons {x : α} (hx : P x = false) (l r : List α) :
    (l ++ x :: r).takeWhile P = l.takeWhile P := by
  induction l with
  | nil => simp [hx]
  | cons y l ih => simp only [List.cons_append, List.takeWhile_cons, ih]

theorem takeWhile_set {l : List α} {k : Nat} {x : α} (hk : (l.takeWhile P).length ≤ k)
    (hx : (l.takeWhile P).length = k → P x = false) : (l.set k x).takeWhile P = l.takeWhile P := by
  induction l generalizing k with
  | nil => rfl
  | cons y l ih =>
    by_cases hy : P y = true
    · rw [List.takeWhile_cons_of_pos hy, List.length_cons] at hk hx
      obtain ⟨k, rfl⟩ : ∃ j, k = j + 1 := ⟨k - 1, by omega⟩
      rw [List.set_cons_succ, List.takeWhile_cons_of_pos hy, List.takeWhile_cons_of_pos hy,
        ih (by omega) fun h => hx (by omega)]
    · rw [List.takeWhile_cons_of_neg hy] at hx ⊢
      cases k with
      | zero => rw [List.set_cons_zero, List.takeWhile_cons_of_neg (by simp [hx rfl])]
      | succ k => rw [List.set_cons_succ, List.takeWhile_cons_of_neg hy]

end

/-- Characters without a meaning for lines and comments. -/
def Plain (c : Char) : Prop := c ≠ '\n' ∧ c ≠ '/'

instance : DecidablePred Plain := fun c => inferInstanceAs (Decidable (c ≠ '\n' ∧ c ≠ '/'))

theorem commented_succ_of_plain (h : text[p]? = some c) (hc : Plain c) :
    commented text (p + 1) = commented text p := by
  rw [commented_succ h, if_neg hc.1, if_neg hc.2]

theorem plain_of_isDigit (h : Hex.isDigit c = true) : Plain c := by
  constructor <;> rintro rfl <;> revert h <;> decide

theorem digit_of_token {t : Token} (ht : token? text p = some t) {k : Nat}
    (hk : k < t.digits.length) : ∃ d, text[p + 1 + k]? = some d ∧ Hex.isDigit d = true := by
  obtain ⟨-, rfl⟩ := token?_eq_some.mp ht
  have hrun := List.prefix_iff_getElem?.mp (List.takeWhile_prefix Hex.isDigit) k hk
  rw [List.getElem?_drop] at hrun
  exact ⟨_, hrun, List.mem_takeWhile_imp (List.getElem_mem hk)⟩

theorem commented_digits {t : Token} (ht : token? text p = some t) {k : Nat}
    (hk : k ≤ t.digits.length + 1) : commented text (p + k) = false := by
  obtain ⟨⟨hmark, hopen⟩, -⟩ := token?_eq_some.mp ht
  induction k with
  | zero => exact hopen
  | succ k ih =>
    rw [← ih (by omega), ← Nat.add_assoc]
    cases k with
    | zero => exact commented_succ_of_plain hmark (by decide)
    | succ k =>
      obtain ⟨d, hd, hdigit⟩ := digit_of_token ht (k := k) (by omega)
      rw [Nat.add_right_comm] at hd
      exact commented_succ_of_plain hd (plain_of_isDigit hdigit)

theorem commented_of_inToken (h : InToken text p) : commented text p = false := by
  obtain ⟨q, t, ht, hq, hp⟩ := h
  rw [← commented_digits ht (k := p - q) (by omega), Nat.add_sub_cancel' hq]

/-- Lines and comments stay where they are if a plain character takes the place of a plain one. -/
theorem commented_set {a : Char} (ha : text[p]? = some a) (hplain : Plain a) (hc : Plain c) {q : Nat}
    (hq : q ≤ text.length) : commented (text.set p c) q = commented text q ∧
      lineAt (text.set p c) q = lineAt text q := by
  induction q with
  | zero => exact ⟨rfl, rfl⟩
  | succ q ih =>
    obtain ⟨hcomment, hline⟩ := ih (by omega)
    have hd : text[q]? = some text[q] := List.getElem?_eq_getElem hq
    by_cases hpq : p = q
    · subst hpq
      have hset : (text.set p c)[p]? = some c := List.getElem?_set_self hq
      rw [commented_succ_of_plain hset hc, commented_succ_of_plain ha hplain, lineAt_succ hset,
        lineAt_succ ha, if_neg hc.1, if_neg hplain.1, hcomment, hline]
      exact ⟨rfl, rfl⟩
    · have hset : (text.set p c)[q]? = some text[q] := (List.getElem?_set_ne hpq).trans hd
      rw [commented_succ hset, commented_succ hd, lineAt_succ hset, lineAt_succ hd, hcomment, hline]
      exact ⟨rfl, rfl⟩

/-- A plain character outside tokens counts for nothing, neither does one that takes its place, if
that is in a comment or cannot be read as part of a token. -/
theorem token?_set {a : Char} (ha : text[p]? = some a) (hplain : Plain a) (hc : Plain c)
    (hout : ¬InToken text p)
    (hnew : commented text p = true ∨ c ≠ '$' ∧ Hex.isDigit c = false) (q : Nat) :
    token? (text.set p c) q = token? text q := by
  by_cases hq : q < text.length
  swap
  · have hlen : text.length ≤ q := Nat.le_of_not_lt hq
    rw [token?_eq_none (by simp [hlen]),
      token?_eq_none (by simp [hlen])]
  obtain ⟨hcomment, hline⟩ := commented_set ha hplain hc (Nat.le_of_lt hq)
  rcases Nat.lt_trichotomy q p with hlt | rfl | hgt
  · by_cases htoken : text[q]? = some '$' ∧ commented text q = false
    · -- the digits end in front of the position, and the new character does not make them more
      obtain ⟨run, hrun⟩ : ∃ run, (text.drop (q + 1)).takeWhile Hex.isDigit = run := ⟨_, rfl⟩
      have ht : token? text q = some ⟨lineAt text q, run⟩ := by rw [token?, if_pos htoken, hrun]
      have hend : q + run.length < p := by
        by_contra hle
        exact hout ⟨q, _, ht, Nat.le_of_lt hlt, Nat.le_of_not_lt hle⟩
      have hstop : run.length = p - (q + 1) → Hex.isDigit c = false := by
        intro hlen
        rcases hnew with hin | ⟨-, hdigit⟩
        · have hopen := commented_digits ht (Nat.le_refl _)
          rw [show q + (run.length + 1) = p by omega, hin] at hopen
          cases hopen
        · exact hdigit
      have hdrop : (text.set p c).drop (q + 1) = (text.drop (q + 1)).set (p - (q + 1)) c := by
        rw [List.drop_set, if_neg (by omega)]
      rw [ht, token?, hcomment, hline, List.getElem?_set_ne (Nat.ne_of_gt hlt), if_pos htoken, hdrop,
        takeWhile_set (by rw [hrun]; omega) (by rwa [hrun]), hrun]
    · rw [token?_eq_none htoken, token?_eq_none]
      rwa [hcomment, List.getElem?_set_ne (Nat.ne_of_gt hlt)]
  · rw [token?_eq_none, token?_eq_none]
    · rintro ⟨hmark, hopen⟩
      exact hout ⟨q, _, if_pos ⟨hmark, hopen⟩, Nat.le_refl q, Nat.le_add_right q _⟩
    · rw [List.getElem?_set_self hq, hcomment]
      rintro ⟨hmark, hopen⟩
      rcases hnew with hin | ⟨hne, -⟩
      · exact Bool.false_ne_true (hopen.symm.trans hin)
      · exact hne (Option.some.inj hmark)
  · rw [token?, token?, hcomment, hline, List.getElem?_set_ne (Nat.ne_of_lt hgt),
      List.drop_set_of_lt (Nat.lt_succ_of_lt hgt)]

/-! ### Lines -/

def Token.down (n : Nat) (t : Token) : Token := { t with line := t.line + n }

variable (above below : List Char)

theorem token?_above {q : Nat} (hq : q < above.length) :
    token? (above ++ '\n' :: below) q = token? above q := by
  have htake : (above ++ '\n' :: below).take q = above.take q :=
    List.take_append_of_le_length (Nat.le_of_lt hq)
  have hdrop : (above ++ '\n' :: below).drop (q + 1) = above.drop (q + 1) ++ '\n' :: below :=
    List.drop_append_of_le_length hq
  have hdigit : Hex.isDigit '\n' = false := by decide
  rw [token?, token?, commented, commented, lineAt, lineAt, htake, hdrop,
    List.getElem?_append_left hq, takeWhile_append_cons hdigit]

theorem token?_below (q : Nat) : token? (above ++ '\n' :: below) (above.length + (q + 1)) =
    (token? below q).map (Token.down (1 + above.count '\n')) := by
  have hget : (above ++ '\n' :: below)[above.length + (q + 1)]? = below[q]? := by
    rw [List.getElem?_append_right (Nat.le_add_right ..), Nat.add_sub_cancel_left,
      List.getElem?_cons_succ]
  have htake : (above ++ '\n' :: below).take (above.length + (q + 1)) =
      above ++ '\n' :: below.take q := List.take_length_add_append _
  have hdrop : (above ++ '\n' :: below).drop (above.length + (q + 1) + 1) = below.drop (q + 1) :=
    List.drop_length_add_append (q + 2)
  have hcomment : commented (above ++ '\n' :: below) (above.length + (q + 1)) = commented below q := by
    rw [commented, htake, List.rtakeWhile, List.reverse_append, List.reverse_cons, List.append_assoc,
      List.singleton_append, takeWhile_append_cons (by simp), ← List.rtakeWhile, ← commented]
  have hline : lineAt (above ++ '\n' :: below) (above.length + (q + 1)) =
      lineAt below q + (1 + above.count '\n') := by
    rw [lineAt, htake, List.count_append, List.count_cons_self, lineAt]
    omega
  rw [token?, token?, hget, hcomment, hline, hdrop]
  split <;> rfl

/-- The tokens of a text are those of its lines: a comment that is open at the end of a line does not
reach the next one. -/
theorem tokens_append_line : tokens (above ++ '\n' :: below) =
    tokens above ++ (tokens below).map (Token.down (1 + above.count '\n')) := by
  have hbreak : token? (above ++ '\n' :: below) above.length = none :=
    token?_eq_none (by simp)
  have habove : (List.range above.length).filterMap (token? (above ++ '\n' :: below)) =
      tokens above :=
    List.filterMap_congr fun q hq => token?_above above below (List.mem_range.mp hq)
  rw [tokens, List.length_append, List.length_cons, List.range_add, List.filterMap_append, habove,
    List.range_succ_eq_map, List.map_cons, Nat.add_zero, List.filterMap_cons, hbreak,
    List.map_map, List.filterMap_map, tokens, tokens, List.map_filterMap]
  exact congrArg _ (List.filterMap_congr fun q _ => token?_below above below q)

/-! ### Images -/

def Token.complaint (t : Token) : String :=
  if t.digits = [] then "expected hex digits after '$'"
  else "$" ++ String.ofList t.digits ++ " does not fit in a byte"

theorem Token.message_error (t : Token) : t.error.message = t.complaint := by
  unfold error complaint
  split <;> rfl

/-- Parsing a text gives the numbers that its tokens write, or an error for the first token that does
not write a byte. Neither what is in comments nor any other character outside the tokens counts, and
no comment goes on in the next line. -/
theorem parse_grammar (text : String) :
    (∀ bytes, parse text = .ok bytes ↔ (∀ t ∈ tokens text.toList, t.Fits) ∧
      bytes.map UInt8.toNat = (tokens text.toList).map (number ·.digits)) ∧
    (∀ e, parse text = .error e ↔ ∃ t, (tokens text.toList).find? (¬·.Fits) = some t ∧
      e = .parse t.line t.error ∧
      e.message = "parse error on line " ++ toString t.line ++ ": " ++ t.complaint) ∧
    (∀ p a c, text.toList[p]? = some a → Plain a → Plain c → ¬InToken text.toList p →
      (commented text.toList p = true ∨ c ≠ '$' ∧ Hex.isDigit c = false) →
        parse (.ofList (text.toList.set p c)) = parse text) ∧
    (∀ p, commented text.toList p = true → ¬InToken text.toList p) ∧
    ∀ above below, text.toList = above ++ '\n' :: below → tokens text.toList =
      tokens above ++ (tokens below).map (Token.down (1 + above.count '\n')) := by
  refine ⟨fun bytes => ?_, fun e => ?_, fun p a c ha hplain hc hout hnew => ?_, fun p hp hin => ?_,
    fun above below h => ?_⟩
  · rw [parse_eq, mapM_read_eq_ok]
  · rw [parse_eq, mapM_read]
    cases (tokens text.toList).find? (¬·.Fits) with
    | none => simp
    | some t =>
      constructor
      · rintro ⟨⟩
        exact ⟨t, rfl, rfl, congrArg ("parse error on line " ++ toString t.line ++ ": " ++ ·)
          t.message_error⟩
      · rintro ⟨u, ⟨⟩, rfl, -⟩
        rfl
  · rw [parse_eq, parse_eq, String.toList_ofList, tokens, tokens, List.length_set]
    congr 1
    exact List.filterMap_congr fun q _ => token?_set ha hplain hc hout hnew q
  · rw [commented_of_inToken hin] at hp
    cases hp
  · rw [h, tokens_append_line]

/-- A `$` in a comment writes no byte, not even one that takes the place of a blank. Of two tokens that
write none the first one is reported, with its line. -/
theorem parse_grammar_comments :
    let text := "$0041/ $FFF\n$fF"
    parse text = .ok [0x41, 0xFF] ∧ parse (.ofList (text.toList.set 6 '$')) = parse text ∧
      parse "$41\n$ $100" = .error (.parse 2 .noDigits) := by
  intro text
  have hfits : ∀ t ∈ tokens text.toList, t.Fits := by decide +kernel
  have hout : ¬InToken text.toList 6 :=
    (parse_grammar text).2.2.2.1 6 (by decide +kernel)
  refine ⟨((parse_grammar text).1 _).mpr ⟨hfits, by decide +kernel⟩,
    (parse_grammar text).2.2.1 6 ' ' '$' (by decide +kernel) (by decide) (by decide) hout
      (.inl (by decide +kernel)), ((parse_grammar _).2.1 _).mpr ⟨⟨2, []⟩, by rfl, rfl, by rfl⟩⟩

end Micro68.Image
