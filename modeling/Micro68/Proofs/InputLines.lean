import Micro68.Console.Scripted
import Micro68.Console.Terminal

/-! Lines of input. A line feed is one byte, which is part of no other character, so the lines of the
bytes of a text are the bytes of its lines. A terminal that reads them gets the answers that a list of
the lines would give, with or without the line feeds. -/
namespace Micro68

namespace Text

/-- The lines of a text, each with its line feed if it has one. -/
def lines : List Char → List (List Char)
  | [] => []
  | c :: cs => if c = '\n' then [c] :: lines cs else
    match lines cs with
    | [] => [[c]]
    | line :: rest => (c :: line) :: rest

theorem flatten_lines (cs : List Char) : (lines cs).flatten = cs := by
  induction cs with
  | nil => rfl
  | cons c cs ih =>
    rw [lines]
    split
    · rw [List.flatten_cons, ih]
      rfl
    · cases hlines : lines cs with
      | nil => simp_all
      | cons line rest => rw [← ih, hlines]; rfl

def bytes (cs : List Char) : List UInt8 := cs.flatMap String.utf8EncodeChar

@[simp] theorem bytes_nil : bytes [] = [] := rfl

@[simp] theorem bytes_cons (c : Char) (cs : List Char) :
    bytes (c :: cs) = String.utf8EncodeChar c ++ bytes cs := rfl

theorem bytes_eq_nil {cs : List Char} : bytes cs = [] ↔ cs = [] := by
  cases cs <;> simp

theorem ofNat_eq_lineFeed {n : Nat} : 10 = UInt8.ofNat n ↔ n % 256 = 10 := by
  rw [eq_comm, ← UInt8.toNat_inj, UInt8.toNat_ofNat']
  rfl

/-- All other characters have bytes above those of ASCII, or one byte of their own. -/
theorem lineFeed_mem_utf8EncodeChar {c : Char} : 10 ∈ String.utf8EncodeChar c ↔ c = '\n' := by
  have hc : c = '\n' ↔ c.val.toNat = 10 := by
    rw [← Char.val_inj, ← UInt32.toNat_inj]
    rfl
  rw [hc, String.utf8EncodeChar]
  split
  · simp only [List.mem_singleton, ofNat_eq_lineFeed]
    omega
  · -- every byte of a longer encoding is at least 0x80
    split
    · simp only [List.mem_cons, List.not_mem_nil, or_false, ofNat_eq_lineFeed]
      omega
    · split <;>
      · simp only [List.mem_cons, List.not_mem_nil, or_false, ofNat_eq_lineFeed]
        omega

end Text

theorem decodeText_eq_ok {bs : List UInt8} {s : String} :
    decodeText bs = .ok s ↔ bs = Text.bytes s.toList := by
  have hbytes : bs = Text.bytes s.toList ↔ bs.toByteArray = s.toByteArray := by
    rw [← String.utf8Encode_toList]
    refine ⟨fun h => h ▸ rfl, fun h => ?_⟩
    have hdata := congrArg (fun a : ByteArray => a.data.toList) h
    simp only [List.utf8Encode, List.toList_data_toByteArray] at hdata
    exact hdata
  rw [hbytes, decodeText, String.fromUTF8?]
  split
  · rename_i s' hs
    split at hs <;> cases hs
    rw [Except.ok.injEq, ← String.toByteArray_inj]
    exact Iff.rfl
  · rename_i hs
    split at hs
    · cases hs
    · rename_i hvalid
      refine ⟨nofun, fun h => absurd ?_ hvalid⟩
      rw [h]
      exact s.isValidUTF8

theorem decodeText_bytes (cs : List Char) : decodeText (Text.bytes cs) = .ok (String.ofList cs) :=
  decodeText_eq_ok.mpr (by rw [String.toList_ofList])

namespace Terminal

theorem splitLine_append {bs : List UInt8} (h : 10 ∉ bs) (rest : List UInt8) :
    splitLine (bs ++ rest) = (bs ++ (splitLine rest).1, (splitLine rest).2) := by
  induction bs with
  | nil => rfl
  | cons b bs ih =>
    rw [List.mem_cons, not_or] at h
    rw [List.cons_append, splitLine, if_neg (Ne.symm h.1), ih h.2]
    rfl

theorem splitLine_bytes (cs : List Char) : ∃ line rest,
    splitLine (Text.bytes cs) = (Text.bytes line, Text.bytes rest) ∧
      (cs = [] ∧ line = [] ∧ rest = [] ∨ line ≠ [] ∧ Text.lines cs = line :: Text.lines rest) := by
  induction cs with
  | nil => exact ⟨[], [], rfl, .inl ⟨rfl, rfl, rfl⟩⟩
  | cons c cs ih =>
    by_cases hc : c = '\n'
    · subst hc
      exact ⟨['\n'], cs, rfl, .inr ⟨nofun, rfl⟩⟩
    · obtain ⟨line, rest, hsplit, hlines⟩ := ih
      refine ⟨c :: line, rest, ?_, .inr ⟨nofun, ?_⟩⟩
      · rw [Text.bytes_cons, splitLine_append (mt Text.lineFeed_mem_utf8EncodeChar.mp hc), hsplit]
        rfl
      · rw [Text.lines, if_neg hc]
        rcases hlines with ⟨rfl, rfl, rfl⟩ | ⟨-, hlines⟩
        · rfl
        · rw [hlines]

end Terminal

theorem readReply_congr {s s' : String} (h : Text.trim s.toList = Text.trim s'.toList) :
    readReply s = readReply s' := by
  unfold readReply
  rw [h]

/-- Replies that are the lines of a text, up to white space at their ends. -/
def AreLines (replies : List String) (cs : List Char) : Prop :=
  replies.map (fun reply => Text.trim reply.toList) = (Text.lines cs).map Text.trim

/-- A terminal with a text to read answers as a list of its lines does, and so does what is left. -/
theorem Terminal.readValue_areLines {t : Terminal} {c : Scripted} {cs : List Char}
    (hinput : t.input = Text.bytes cs) (hreplies : AreLines c.replies cs) (request : InputRequest) :
    (t.readValue request).1 = (c.readValue request).1 ∧
      ∃ rest, (t.readValue request).2.input = Text.bytes rest ∧
        AreLines (c.readValue request).2.replies rest := by
  obtain ⟨line, rest, hsplit, hlines⟩ := splitLine_bytes cs
  unfold Terminal.readValue Scripted.readValue
  rw [hinput, hsplit]
  unfold AreLines at hreplies
  rcases hlines with ⟨rfl, rfl, rfl⟩ | ⟨hline, hlines⟩
  · rw [List.map_eq_nil_iff.mp hreplies]
    exact ⟨rfl, [], rfl, rfl⟩
  · rw [hlines, List.map_cons] at hreplies
    obtain ⟨reply, replies, heq, htrim, hrest⟩ := List.map_eq_cons_iff.mp hreplies
    rw [heq]
    refine ⟨?_, rest, rfl, hrest⟩
    dsimp only
    split
    · rename_i hnil
      exact absurd (Text.bytes_eq_nil.mp hnil) hline
    · rw [decodeText_bytes]
      exact readReply_congr (by rw [String.toList_ofList, htrim])

end Micro68
