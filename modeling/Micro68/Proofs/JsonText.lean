import Micro68.Json
import Micro68.Proofs.TextParts

/-! JSON text. Different values have different texts, since one can see where the text of a value ends:
a string at its closing quote, an array or an object at its closing bracket, and a number before the
comma or the end of the line. -/
namespace Micro68.Json

def digitValue (c : Char) : Nat := if c.isDigit then c.toNat - 48 else c.toNat - 87

def readChar? : List Char → Option (Char × List Char)
  | '\\' :: 'u' :: _ :: _ :: hi :: lo :: rest =>
    some (Char.ofNat (16 * digitValue hi + digitValue lo), rest)
  | '\\' :: 'n' :: rest => some ('\n', rest)
  | '\\' :: 'r' :: rest => some ('\r', rest)
  | '\\' :: 't' :: rest => some ('\t', rest)
  | '\\' :: 'b' :: rest => some ('\x08', rest)
  | '\\' :: 'f' :: rest => some ('\x0c', rest)
  | '\\' :: c :: rest => some (c, rest)
  | '"' :: _ => none
  | c :: rest => some (c, rest)
  | [] => none

theorem readChar?_escapeChar (c : Char) (rest : List Char) :
    readChar? (escapeChar c ++ rest) = some (c, rest) := by
  by_cases hquote : c = '"'
  · subst c; rfl
  by_cases hbackslash : c = '\\'
  · subst c; rfl
  by_cases hnewLine : c = '\n'
  · subst c; rfl
  by_cases hreturn : c = '\r'
  · subst c; rfl
  by_cases htab : c = '\t'
  · subst c; rfl
  by_cases hbackspace : c = '\x08'
  · subst c; rfl
  by_cases hfeed : c = '\x0c'
  · subst c; rfl
  by_cases hcontrol : c.toNat < 0x20
  · have hdigit : ∀ n < 16, digitValue (Nat.digitChar n) = n := by decide
    have hvalue : 16 * (c.toNat / 16) + c.toNat % 16 = c.toNat := by omega
    simp [escapeChar, hquote, hbackslash, hnewLine, hreturn, htab, hbackspace, hfeed, hcontrol,
      readChar?, hdigit (c.toNat / 16) (by omega), hdigit (c.toNat % 16) (by omega), hvalue]
  · simp [escapeChar, hquote, hbackslash, hnewLine, hreturn, htab, hbackspace, hfeed, hcontrol,
      readChar?]

/-- The inside of a string ends at the first quote that stands by itself. -/
theorem escaped_cancel {s t r r' : List Char}
    (h : s.flatMap escapeChar ++ '"' :: r = t.flatMap escapeChar ++ '"' :: r') :
    s = t ∧ r = r' := by
  induction s generalizing t with
  | nil =>
    cases t with
    | nil => simpa using h
    | cons d t =>
      have hread := congrArg readChar? h
      rw [List.flatMap_cons, List.append_assoc, readChar?_escapeChar] at hread
      simp [readChar?] at hread
  | cons c s ih =>
    have hread := congrArg readChar? h
    rw [List.flatMap_cons, List.append_assoc, readChar?_escapeChar] at hread
    cases t with
    | nil => simp [readChar?] at hread
    | cons d t =>
      rw [List.flatMap_cons, List.append_assoc, readChar?_escapeChar] at hread
      obtain ⟨rfl, hrest⟩ : c = d ∧ _ = _ := by simpa using hread
      obtain ⟨rfl, hr⟩ := ih hrest
      exact ⟨rfl, hr⟩

theorem quoted_cancel {s t : String} {r r' : List Char}
    (h : (quoted s).toList ++ r = (quoted t).toList ++ r') : s = t ∧ r = r' := by
  simp only [quoted, String.toList_ofList, List.cons_append, List.append_assoc, List.nil_append,
    List.cons.injEq, true_and] at h
  obtain ⟨hst, hr⟩ := escaped_cancel h
  exact ⟨String.toList_inj.mp hst, hr⟩

def IsEnd (c : Char) : Prop := c = ',' ∨ c = '\n'

/-- Nothing follows, or the end of a value. -/
def Ended (r : List Char) : Prop := ∀ c ∈ r.head?, IsEnd c

/-- One can see where the text ends: no other text begins like it, up to an end. -/
def Separable {α : Type} (text : α → String) (x : α) : Prop :=
  ∀ y r r', Ended r → Ended r' → (text x).toList ++ r = (text y).toList ++ r' → x = y ∧ r = r'

theorem separable_num (n : Int) : Separable (fun n : Int => toString n) n := by
  intro m r r' hr hr' h
  have hchars : ∀ k : Int, ∀ c ∈ k.repr.toList, ¬ IsEnd c := by
    rintro k c hc (rfl | rfl)
    · exact Text.notMem_repr (by decide) (by decide) k hc
    · exact Text.notMem_repr (by decide) (by decide) k hc
  obtain ⟨hmn, hrest⟩ := Text.eq_of_append (hchars n) (hchars m)
    (fun c hc => not_not_intro (hr c hc)) (fun c hc => not_not_intro (hr' c hc)) h
  exact ⟨Text.repr_inj hmn, hrest⟩

section Brackets

variable {α : Type} {text : α → String} {line close : List Char}

/-- The texts of the items behind the first one, each on a line of its own, and what closes them. -/
def behindFirst (text : α → String) (line close : List Char) : List α → List Char
  | [] => '\n' :: close
  | x :: xs => ',' :: '\n' :: line ++ (text x).toList ++ behindFirst text line close xs

theorem ended_behindFirst (xs : List α) (r : List Char) :
    Ended (behindFirst text line close xs ++ r) := by
  cases xs <;> simp [Ended, IsEnd, behindFirst]

theorem behindFirst_cancel {xs ys : List α} {r r' : List Char}
    (hx : ∀ x ∈ xs, Separable text x)
    (h : behindFirst text line close xs ++ r = behindFirst text line close ys ++ r') :
    xs = ys ∧ r = r' := by
  induction xs generalizing ys with
  | nil =>
    cases ys with
    | nil => exact ⟨rfl, List.append_cancel_left h⟩
    | cons y ys => simp [behindFirst] at h
  | cons x xs ih =>
    cases ys with
    | nil => simp [behindFirst] at h
    | cons y ys =>
      simp only [behindFirst, List.cons_append, List.append_assoc, List.cons.injEq, true_and,
        List.append_cancel_left_eq] at h
      obtain ⟨rfl, hrest⟩ := hx x List.mem_cons_self y _ _ (ended_behindFirst xs r)
        (ended_behindFirst ys r') h
      obtain ⟨rfl, hr⟩ := ih (fun x' hx' => hx x' (List.mem_cons_of_mem x hx')) hrest
      exact ⟨rfl, hr⟩

theorem toList_newLine (level : Nat) :
    (newLine level).toList = '\n' :: List.replicate (2 * level) ' ' := by
  rw [newLine, String.toList_ofList]

theorem toList_bracketed (opening closing : String) (level : Nat) (x : α) (xs : List α) :
    (bracketed opening closing level ((x :: xs).map text)).toList =
      opening.toList ++ '\n' :: List.replicate (2 * (level + 1)) ' ' ++ (text x).toList ++
        behindFirst text (List.replicate (2 * (level + 1)) ' ')
          (List.replicate (2 * level) ' ' ++ closing.toList) xs := by
  have hparts : ∀ close : List Char,
      (("," ++ newLine (level + 1)).intercalate ((x :: xs).map text)).toList ++ '\n' :: close =
        (text x).toList ++ behindFirst text (List.replicate (2 * (level + 1)) ' ') close xs := by
    intro close
    induction xs generalizing x with
    | nil => simp [behindFirst]
    | cons y xs ih =>
      have hlater := ih y
      rw [List.map_cons] at hlater
      rw [List.map_cons, List.map_cons, String.intercalate_cons_cons, String.toList_append,
        List.append_assoc, hlater]
      simp [behindFirst, toList_newLine]
  have hall := hparts (List.replicate (2 * level) ' ' ++ closing.toList)
  rw [List.map_cons] at hall ⊢
  simp only [bracketed, List.isEmpty_cons, Bool.false_eq_true, if_false, String.toList_append,
    toList_newLine, List.append_assoc, List.cons_append, hall]

theorem separable_bracketed {opening closing : String} {c : Char} (hclosing : closing.toList = [c])
    (hc : c ≠ '\n') (level : Nat) {xs : List α} (hx : ∀ x ∈ xs, Separable text x) :
    Separable (fun xs => bracketed opening closing level (xs.map text)) xs := by
  intro ys r r' hr hr' h
  have hnil : (bracketed opening closing level (([] : List α).map text)).toList =
      opening.toList ++ [c] := by
    simp [bracketed, hclosing]
  cases xs with
  | nil =>
    cases ys with
    | nil => exact ⟨rfl, List.append_cancel_left h⟩
    | cons y ys =>
      rw [hnil, toList_bracketed] at h
      simp [hc] at h
  | cons x xs =>
    cases ys with
    | nil =>
      rw [hnil, toList_bracketed] at h
      simp [hc.symm] at h
    | cons y ys =>
      simp only [toList_bracketed, List.append_assoc, List.cons_append, List.append_cancel_left_eq,
        List.cons.injEq, true_and] at h
      obtain ⟨rfl, hrest⟩ := hx x List.mem_cons_self y _ _ (ended_behindFirst xs r)
        (ended_behindFirst ys r') h
      obtain ⟨rfl, hr⟩ := behindFirst_cancel (fun x' hx' => hx x' (List.mem_cons_of_mem x hx')) hrest
      exact ⟨rfl, hr⟩

end Brackets

def fieldText (level : Nat) (field : String × Json) : String :=
  quoted field.1 ++ ": " ++ pretty level field.2

theorem separable_fieldText {level : Nat} {field : String × Json}
    (h : Separable (pretty level) field.2) : Separable (fieldText level) field := by
  rintro ⟨name, j⟩ r r' hr hr' hfield
  simp only [fieldText, String.toList_append, List.append_assoc] at hfield
  obtain ⟨hname, hvalue⟩ := quoted_cancel hfield
  obtain ⟨hj, hrest⟩ := h j r r' hr hr' (List.append_cancel_left hvalue)
  exact ⟨Prod.ext hname hj, hrest⟩

theorem prettyItems_eq (level : Nat) (items : List Json) :
    prettyItems level items = items.map (pretty level) := by
  induction items with
  | nil => rfl
  | cons j items ih => simp [prettyItems, ih]

theorem prettyFields_eq (level : Nat) (fields : List (String × Json)) :
    prettyFields level fields = fields.map (fieldText level) := by
  induction fields with
  | nil => rfl
  | cons field fields ih => simp [prettyFields, fieldText, ih]

def kind : Json → Nat
  | null => 0
  | bool _ => 1
  | str _ => 2
  | arr _ => 3
  | obj _ => 4
  | num _ => 5

def kindOf (c : Char) : Nat :=
  if c = 'n' then 0 else if c = 't' ∨ c = 'f' then 1 else if c = '"' then 2
  else if c = '[' then 3 else if c = '\x7b' then 4 else 5

theorem kindOf_bracketed {opening : String} {c : Char} {more : List Char}
    (hopening : opening.toList = c :: more) (closing : String) (level : Nat) (parts : List String) :
    (bracketed opening closing level parts).toList.head?.map kindOf = some (kindOf c) := by
  unfold bracketed
  split <;> simp [hopening]

theorem kindOf_num (n : Int) : n.repr.toList.head?.map kindOf = some 5 := by
  rw [Text.toList_repr]
  split
  · rfl
  · obtain ⟨c, digits, hdigits⟩ := List.exists_cons_of_ne_nil
      (Nat.toDigits_ne_nil (n := n.natAbs) (b := 10))
    have hdigit : c.isDigit = true :=
      Nat.isDigit_of_mem_toDigits (by decide) (by decide) (hdigits ▸ List.mem_cons_self)
    have hother : ∀ d : Char, d.isDigit = false → c ≠ d := by
      rintro d hd rfl
      simp [hd] at hdigit
    simp [hdigits, kindOf, hother 'n' rfl, hother 't' rfl, hother 'f' rfl, hother '"' rfl,
      hother '[' rfl, hother '\x7b' rfl]

theorem kindOf_head (level : Nat) (j : Json) :
    (pretty level j).toList.head?.map kindOf = some j.kind := by
  cases j with
  | null => simp [pretty, kind, kindOf]
  | bool b => cases b <;> simp [pretty, kind, kindOf]
  | num n => exact kindOf_num n
  | str s => simp [pretty, quoted, kind, kindOf]
  | arr items => exact kindOf_bracketed (show "[".toList = ['['] from rfl) "]" level _
  | obj fields => exact kindOf_bracketed (show "\x7b".toList = ['\x7b'] from rfl) "\x7d" level _

theorem kind_eq {j j' : Json} {level : Nat} {r r' : List Char}
    (h : (pretty level j).toList ++ r = (pretty level j').toList ++ r') : j.kind = j'.kind := by
  have hhead : ∀ (j : Json) (r : List Char),
      ((pretty level j).toList ++ r).head?.map kindOf = some j.kind := by
    intro j r
    have hj := kindOf_head level j
    generalize (pretty level j).toList = chars at hj
    cases chars with
    | nil => simp at hj
    | cons c chars => simpa using hj
  have hkinds := congrArg (fun chars => chars.head?.map kindOf) h
  simp only [hhead] at hkinds
  exact Option.some.inj hkinds

theorem separable_pretty (j : Json) (level : Nat) : Separable (pretty level) j := by
  intro j' r r' hr hr' h
  -- the first characters agree, so both values are of one kind
  have hkind := kind_eq h
  match j, j', hkind with
  | null, null, _ => exact ⟨rfl, List.append_cancel_left h⟩
  | bool b, bool b', _ =>
    cases b <;> cases b' <;> simp [pretty] at h ⊢
    all_goals exact h
  | num n, num n', _ =>
    obtain ⟨rfl, hrest⟩ := separable_num n n' r r' hr hr' h
    exact ⟨rfl, hrest⟩
  | str s, str s', _ =>
    obtain ⟨rfl, hrest⟩ := quoted_cancel h
    exact ⟨rfl, hrest⟩
  | arr items, arr items', _ =>
    simp only [pretty, prettyItems_eq] at h
    have hitems : ∀ item ∈ items, Separable (pretty (level + 1)) item := fun item hitem =>
      separable_pretty item (level + 1)
    obtain ⟨rfl, hrest⟩ := separable_bracketed (show "]".toList = [']'] from rfl) (by decide)
      level hitems items' r r' hr hr' h
    exact ⟨rfl, hrest⟩
  | obj fields, obj fields', _ =>
    simp only [pretty, prettyFields_eq] at h
    have hfields : ∀ field ∈ fields, Separable (fieldText (level + 1)) field := fun field hfield =>
      separable_fieldText (separable_pretty field.2 (level + 1))
    obtain ⟨rfl, hrest⟩ := separable_bracketed (show "\x7d".toList = ['\x7d'] from rfl)
      (by decide) level hfields fields' r r' hr hr' h
    exact ⟨rfl, hrest⟩
termination_by sizeOf j
decreasing_by
  · have hsize := List.sizeOf_lt_of_mem hitem
    simp only [arr.sizeOf_spec]
    omega
  · have hsize := List.sizeOf_lt_of_mem hfield
    obtain ⟨name, value⟩ := field
    simp only [obj.sizeOf_spec, Prod.mk.sizeOf_spec] at hsize ⊢
    omega

/-- Different values have different texts. -/
theorem text_injective {j j' : Json} (h : j.text = j'.text) : j = j' := by
  have hended : Ended [] := by simp [Ended]
  have htexts : (pretty 0 j).toList ++ [] = (pretty 0 j').toList ++ [] := by
    rw [show pretty 0 j = pretty 0 j' from h]
  exact (separable_pretty j 0 j' [] [] hended hended htexts).1

end Micro68.Json
