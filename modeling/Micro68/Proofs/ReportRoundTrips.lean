import Micro68.Proofs.JsonText
import Micro68.Report.Snapshot

/-! Reports read back. What is written of a snapshot, a diagnostic or an instruction, whatever they
hold, is read as the same again; so different ones have different texts. -/
namespace Micro68

namespace Json

theorem int?_num {lo hi n : Int} (hlo : lo ≤ n) (hhi : n ≤ hi) : int? lo hi (.num n) = some n :=
  if_pos ⟨hlo, hhi⟩

@[simp] theorem uint8?_num (x : UInt8) : uint8? (.num x.toNat) = some x := by
  have hx : x.toNat < 2 ^ 8 := x.toNat_lt
  rw [uint8?, int?_num (by omega) (by omega)]
  simp

@[simp] theorem uint16?_num (x : UInt16) : uint16? (.num x.toNat) = some x := by
  have hx : x.toNat < 2 ^ 16 := x.toNat_lt
  rw [uint16?, int?_num (by omega) (by omega)]
  simp

@[simp] theorem uint64?_num (x : UInt64) : uint64? (.num x.toNat) = some x := by
  have hx : x.toNat < 2 ^ 64 := x.toNat_lt
  rw [uint64?, int?_num (by omega) (by omega)]
  simp

@[simp] theorem pattern32?_ofPattern32 (x : UInt32) : pattern32? (ofPattern32 x) = some x := by
  rw [pattern32?, ofPattern32, int?_num x.toInt32.minValue_le_toInt x.toInt32.toInt_le]
  simp

section Parts

variable {α : Type} {item : α → Json} {item? : Json → Option α}

theorem pair?_ofPair (h : ∀ x, item? (item x) = some x) (v : Vector α 2) :
    pair? item? (ofPair item v) = some v := by
  have hv : #v[v[0], v[1]] = v := by
    ext k hk
    obtain rfl | rfl : k = 0 ∨ k = 1 := by omega
    · rfl
    · rfl
  simp [pair?, ofPair, h, hv]

theorem optional?_ofOptional (h : ∀ x, item? (item x) = some x) (hnull : item? .null = none)
    (x : Option α) : optional? item? (ofOptional item x) = some x := by
  cases x with
  | none => rfl
  | some x =>
    have hx := h x
    change optional? item? (item x) = _
    cases hitem : item x <;> simp_all [optional?]

theorem text_eq_iff_of_readBack (h : ∀ x, item? (item x) = some x) {x y : α} :
    (item x).text = (item y).text ↔ x = y := by
  refine ⟨fun htext => ?_, fun hxy => by rw [hxy]⟩
  have hread : item? (item x) = item? (item y) := by rw [text_injective htext]
  rw [h, h] at hread
  exact Option.some.inj hread

end Parts

end Json

open Json

@[simp] theorem Size.ofJson?_toJson (s : Size) : Size.ofJson? s.toJson = some s := by
  cases s <;> rfl

@[simp] theorem Opcode.ofJson?_toJson (o : Opcode) : Opcode.ofJson? o.toJson = some o := by
  cases o <;> rfl

@[simp] theorem Mode.ofJson?_toJson (m : Mode) : Mode.ofJson? m.toJson = some m := by
  cases m with
  | reserved code => simp [toJson, ofJson?, variant?]
  | _ => rfl

@[simp] theorem Operand.ofJson?_toJson (op : Operand) : Operand.ofJson? op.toJson = some op := by
  simp [toJson, ofJson?, record?, fields?, List.lookup_cons]

@[simp] theorem Operands.ofJson?_toJson (ops : Operands) : Operands.ofJson? ops.toJson = some ops := by
  cases ops <;> simp [toJson, ofJson?, variant?, fields?, List.lookup_cons]

@[simp] theorem Instruction.ofJson?_toJson (i : Instruction) :
    Instruction.ofJson? i.toJson = some i := by
  simp [toJson, ofJson?, record?, fields?, List.lookup_cons]

@[simp] theorem Fault.ofJson?_toJson (f : Fault) : Fault.ofJson? f.toJson = some f := by
  cases f <;> simp [toJson, ofJson?, variant?, fields?, List.lookup_cons, isUnit, str?]

@[simp] theorem Diagnostic.ofJson?_toJson (d : Diagnostic) :
    Diagnostic.ofJson? d.toJson = some d := by
  have hopcode := optional?_ofOptional Opcode.ofJson?_toJson rfl d.opcode
  simp [toJson, ofJson?, record?, fields?, List.lookup_cons, hopcode]

@[simp] theorem Flags.ofJson?_toJson (f : Flags) : Flags.ofJson? f.toJson = some f := by
  simp [toJson, ofJson?, record?, fields?, List.lookup_cons, bool?]

@[simp] theorem RunState.ofJson?_toJson (s : RunState) : RunState.ofJson? s.toJson = some s := by
  cases s <;> rfl

@[simp] theorem Snapshot.ofJson?_toJson (s : Snapshot) : Snapshot.ofJson? s.toJson = some s := by
  have hd := pair?_ofPair pattern32?_ofPattern32 s.d
  have ha := pair?_ofPair uint16?_num s.a
  have hfault := optional?_ofOptional Diagnostic.ofJson?_toJson rfl s.fault
  simp [toJson, ofJson?, record?, fields?, List.lookup_cons, hd, ha, hfault]

/-- Every snapshot, every diagnostic and every instruction is read back from its JSON form as it was, and
no other one has a JSON form with the same text. -/
theorem reports_readBack :
    ((∀ s : Snapshot, Snapshot.ofJson? s.toJson = some s) ∧
      ∀ s t : Snapshot, s.toJson.text = t.toJson.text ↔ s = t) ∧
    ((∀ d : Diagnostic, Diagnostic.ofJson? d.toJson = some d) ∧
      ∀ d e : Diagnostic, d.toJson.text = e.toJson.text ↔ d = e) ∧
    ((∀ i : Instruction, Instruction.ofJson? i.toJson = some i) ∧
      ∀ i j : Instruction, i.toJson.text = j.toJson.text ↔ i = j) :=
  ⟨⟨Snapshot.ofJson?_toJson, fun _ _ => text_eq_iff_of_readBack Snapshot.ofJson?_toJson⟩,
    ⟨Diagnostic.ofJson?_toJson, fun _ _ => text_eq_iff_of_readBack Diagnostic.ofJson?_toJson⟩,
    ⟨Instruction.ofJson?_toJson, fun _ _ => text_eq_iff_of_readBack Instruction.ofJson?_toJson⟩⟩

/-- A console error whose text looks like the rest of a report is told from an error without a text. -/
theorem reports_readBack_quoted :
    let stopped (reason : String) : Snapshot :=
      { state := .halted, cycles := 0xFFFFFFFFFFFFFFFF, pc := 4, d := #v[0x80000000, 7]
        a := #v[0xFFFF, 0], flags := { halt := true }
        fault := some { fault := .inputUnavailable reason, opcode := some .inp, pc := 2 } }
    let s := stopped "\"\n\x7d, \"opcode\": null"
    Snapshot.ofJson? s.toJson = some s ∧ s.toJson.text ≠ (stopped "").toJson.text := by
  intro stopped s
  obtain ⟨⟨hread, htexts⟩, -, -⟩ := reports_readBack
  have hne : s ≠ stopped "" := by decide
  exact ⟨hread s, fun htext => hne ((htexts s (stopped "")).mp htext)⟩

end Micro68
