import Micro68.Proofs.CanonicalForms
import Micro68.Proofs.Disassembly

/-! Assembling and listing. An instruction takes its opcode word and one extension word for each
absolute operand, first slot first; a listing of such words shows the instructions again, one in
each line, each at the place where its words begin. -/
namespace Micro68

namespace BigEndian

@[simp] theorem word_wordBytes (x : UInt16) : word (x >>> 8).toUInt8 x.toUInt8 = x := by
  have hx : x.toNat < 2 ^ 16 := x.toNat_lt
  apply UInt16.toNat_inj.mp
  rw [toNat_word, UInt16.toNat_toUInt8, UInt16.toNat_toUInt8, UInt16.toNat_shiftRight,
    Nat.shiftRight_eq_div_pow]
  change 256 * (x.toNat / 2 ^ 8 % 2 ^ 8) + x.toNat % 2 ^ 8 = x.toNat
  omega

theorem length_flatMap_wordBytes (words : List UInt16) :
    (words.flatMap wordBytes).length = 2 * words.length := by
  induction words with
  | nil => rfl
  | cons x words ih =>
    rw [List.flatMap_cons, List.length_append, ih, List.length_cons]
    change 2 + 2 * words.length = _
    omega

end BigEndian

namespace Instruction

def address (i : Instruction) (slot : Slot) : UInt16 := ((i.operand? slot).map (·.address)).getD 0

def setAddresses (i : Instruction) (slots : List Slot) (address : Slot → UInt16) : Instruction :=
  slots.foldl (fun i slot => i.setAddress slot (address slot)) i

/-- The instruction with its absolute operands at address 0. -/
def blank (i : Instruction) : Instruction := i.setAddresses i.absoluteSlots fun _ => 0

/-- But for the addresses of absolute operands, the instruction is what its opcode word stands
for. -/
def WellFormed (i : Instruction) : Prop := decode (encode i) = .ok i.blank

/-- The words of an instruction: its opcode word and the addresses of its absolute operands. -/
def words (i : Instruction) : List UInt16 := encode i :: i.absoluteSlots.map i.address

def bytes (i : Instruction) : List UInt8 := i.words.flatMap BigEndian.wordBytes

theorem sameForm_setAddresses (i : Instruction) (slots : List Slot) (address : Slot → UInt16) :
    i.SameForm (i.setAddresses slots address) := by
  induction slots generalizing i with
  | nil => exact .refl i
  | cons slot slots ih =>
    exact (sameForm_setAddress i slot (address slot)).trans (ih (i.setAddress slot (address slot)))

theorem absoluteSlots_eq (i : Instruction) : i.absoluteSlots = [] ∨ i.absoluteSlots = [.first] ∨
    i.absoluteSlots = [.second] ∨ i.absoluteSlots = Slot.all := by
  unfold Instruction.absoluteSlots Slot.all
  cases h₁ : i.isAbsolute .first <;> cases h₂ : i.isAbsolute .second <;> simp [h₁, h₂]

theorem SameForm.absoluteSlots {i j : Instruction} (h : SameForm i j) :
    j.absoluteSlots = i.absoluteSlots := by
  rw [Instruction.absoluteSlots, funext h.isAbsolute]
  rfl

@[simp] theorem setAddress_address (i : Instruction) (slot : Slot) :
    i.setAddress slot (i.address slot) = i := by
  rcases i with ⟨o, s, c, ops⟩
  cases slot <;> cases ops <;> rfl

@[simp] theorem setAddress_setAddress (i : Instruction) (slot : Slot) (a b : UInt16) :
    (i.setAddress slot a).setAddress slot b = i.setAddress slot b := by
  rcases i with ⟨o, s, c, ops⟩
  cases slot <;> cases ops <;> rfl

theorem setAddress_comm (i : Instruction) (a b : UInt16) :
    (i.setAddress .first a).setAddress .second b =
      (i.setAddress .second b).setAddress .first a := by
  rcases i with ⟨o, s, c, ops⟩
  cases ops <;> rfl

theorem setAddresses_blank (i : Instruction) :
    i.blank.setAddresses i.absoluteSlots i.address = i := by
  unfold blank
  rcases i.absoluteSlots_eq with h | h | h | h <;> rw [h]
  · rfl
  · simp [setAddresses]
  · simp [setAddresses]
  · -- the first slot is given back while the second one is still empty
    simp only [setAddresses, Slot.all, List.foldl_cons, List.foldl_nil, ← setAddress_comm,
      setAddress_setAddress]
    rw [setAddress_address, setAddress_address]

theorem encode_setAddresses (i : Instruction) (slots : List Slot) (address : Slot → UInt16) :
    (i.setAddresses slots address).encode = i.encode := by
  induction slots generalizing i with
  | nil => rfl
  | cons slot slots ih =>
    have hslot : (i.setAddress slot (address slot)).encode = i.encode := by
      rcases i with ⟨o, s, c, ops⟩
      cases slot <;> cases ops <;> rfl
    exact (ih (i.setAddress slot (address slot))).trans hslot

theorem wellFormed_iff {i : Instruction} : i.WellFormed ↔ i.blank.Canonical := by
  have hword : i.blank.encode = i.encode := i.encode_setAddresses i.absoluteSlots fun _ => 0
  rw [WellFormed]
  constructor
  · exact canonical_of_decode
  · intro h
    rw [← hword]
    exact decode_encode_of_canonical h

@[simp] theorem bytes_length (i : Instruction) : i.bytes.length = 2 + 2 * i.extensionWords := by
  rw [bytes, BigEndian.length_flatMap_wordBytes, words, List.length_cons, List.length_map,
    Nat.mul_add, Nat.add_comm]
  rfl

end Instruction

def assemble (program : List Instruction) : List UInt8 := program.flatMap Instruction.bytes

namespace Listing

theorem foldl_completeSlot (slots : List Slot) (i : Instruction) (address : Slot → UInt16)
    (rest : List UInt8) :
    slots.foldl completeSlot (i, (slots.map address).flatMap BigEndian.wordBytes ++ rest) =
      (i.setAddresses slots address, rest) := by
  induction slots generalizing i with
  | nil => rfl
  | cons slot slots ih =>
    have hword : completeSlot
        (i, ((slot :: slots).map address).flatMap BigEndian.wordBytes ++ rest) slot =
        (i.setAddress slot (address slot),
          (slots.map address).flatMap BigEndian.wordBytes ++ rest) := by
      simp [completeSlot, BigEndian.wordBytes, frontWord]
    rw [List.foldl_cons, hword, ih]
    rfl

theorem itemsFrom_bytes {i : Instruction} (h : i.WellFormed) (address : Nat) (rest : List UInt8) :
    itemsFrom address (i.bytes ++ rest) =
      (address, .instruction i) :: itemsFrom (address + i.bytes.length) rest := by
  have hslots : i.blank.absoluteSlots = i.absoluteSlots :=
    (i.sameForm_setAddresses i.absoluteSlots fun _ => 0).absoluteSlots
  have hbytes : i.bytes ++ rest = (i.encode >>> 8).toUInt8 :: i.encode.toUInt8 ::
      ((i.absoluteSlots.map i.address).flatMap BigEndian.wordBytes ++ rest) := rfl
  have hitem : itemAt (i.encode >>> 8).toUInt8 i.encode.toUInt8
      ((i.absoluteSlots.map i.address).flatMap BigEndian.wordBytes ++ rest) = .instruction i := by
    have hdecode : Instruction.decode i.encode = .ok i.blank := h
    rw [itemAt, BigEndian.word_wordBytes, hdecode]
    dsimp only
    rw [complete_eq, hslots, foldl_completeSlot, Instruction.setAddresses_blank]
  have hlength : (ListingItem.instruction i).length = i.bytes.length := i.bytes_length.symm
  rw [hbytes, itemsFrom_cons, hitem, hlength, ← hbytes, List.drop_left]

theorem itemsFrom_assemble {program : List Instruction} (h : ∀ i ∈ program, i.WellFormed)
    (address : Nat) :
    itemsFrom address (assemble program) = program.mapIdx fun k i =>
      (address + (assemble (program.take k)).length, .instruction i) := by
  induction program generalizing address with
  | nil => simp [assemble]
  | cons i program ih =>
    have hcons : assemble (i :: program) = i.bytes ++ assemble program := rfl
    rw [hcons, itemsFrom_bytes (h i (by simp)), ih fun j hj => h j (by simp [hj]), List.mapIdx_cons]
    simp [assemble, Nat.add_assoc]

end Listing

namespace Listing

/-- The listing of an assembled program has one line for each instruction, with the place of its
first byte and its text. -/
theorem text_assemble {program : List Instruction} (h : ∀ i ∈ program, i.WellFormed) :
    let lines := program.mapIdx fun k i =>
      Hex.padded 4 (assemble (program.take k)).length ++ ": " ++ i.text
    text (assemble program) = String.join (lines.map (· ++ "\n")) ∧
      ∀ l ∈ lines, '\n' ∉ l.toList := by
  intro lines
  constructor
  · have hitems := itemsFrom_assemble h 0
    rw [text, items, hitems]
    refine congrArg String.join (List.ext_getElem (by simp [lines]) fun k hk hk' => ?_)
    simp [lines, line, ListingItem.text]
  · intro l hl
    obtain ⟨k, hk, rfl⟩ := List.mem_mapIdx.mp hl
    have hcolon : OneLine ": " := by decide
    have htext : OneLine program[k].text := .instruction _
    change OneLine _
    simp [hcolon, htext]

/-- A branch over an instruction with two addresses. -/
theorem text_assemble_branch :
    let program : List Instruction := [.unary .bra .word (.absolute 0x000A),
      .full .move .long (.absolute 0x1234) (.absolute 0xF000), .bare .hlt]
    (∀ i ∈ program, i.WellFormed) ∧
      text (assemble program) = "0000: BRA.W $000A\n0004: MOVE.L $1234,$F000\n000A: HLT\n" := by
  intro program
  have h : ∀ i ∈ program, i.WellFormed := by
    intro i hi
    simp only [program, List.mem_cons, List.not_mem_nil, or_false] at hi
    rcases hi with rfl | rfl | rfl <;> rfl
  exact ⟨h, (text_assemble h).1.trans (by decide +kernel)⟩

end Listing
end Micro68
