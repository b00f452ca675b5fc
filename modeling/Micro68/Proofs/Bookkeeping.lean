import Mathlib.Data.List.Induction
import Micro68.Proofs.Preservation
import Micro68.Proofs.Resolution

/-! The bookkeeping of a cycle. However often the operands of the two slots are looked for, read and
written, in whatever order, at whatever sizes and with whatever success, an `(An)+` or `-(An)` operand
moves its pointer at its first use alone, and is found at one and the same address every time. -/
namespace Micro68

inductive Purpose where
  | locate
  | fill
  | store (x : UInt32)

/-- One use of the operand in a slot. -/
structure Lookup where
  slot : Slot
  op : Operand
  size : Size
  purpose : Purpose

namespace Lookup

variable {κ : Type}

/-- The state after a use, whether it succeeds or not. -/
def perform (u : Lookup) : Datapath κ → Datapath κ :=
  match u.purpose with
  | .locate => Micro.after (Micro.locate u.slot u.op u.size)
  | .fill => Micro.after (Micro.fill u.slot u.op u.size)
  | .store x => Micro.after (Micro.store u.slot u.op u.size x)

def performAll (us : List Lookup) (s : Datapath κ) : Datapath κ :=
  us.foldl (fun s u => u.perform s) s

/-- What the first use of a slot adds to an address register. -/
def firstShift (us : List Lookup) (slot : Slot) (r : Fin 2) : UInt16 :=
  match us.find? (·.slot = slot) with
  | some u => u.op.shift u.size r
  | none => 0

/-- Each slot has an operand of one mode, and no address register is itself written to. -/
structure Steady (us : List Lookup) : Prop where
  mode : ∀ u ∈ us, ∀ v ∈ us, u.slot = v.slot → u.op.mode = v.op.mode
  direct : ∀ u ∈ us, u.op.mode = .addressRegister → ∀ x, u.purpose ≠ .store x

theorem Steady.of_append {us vs : List Lookup} (h : Steady (us ++ vs)) : Steady us :=
  ⟨fun u hu v hv => h.mode u (List.mem_append_left vs hu) v (List.mem_append_left vs hv),
    fun u hu => h.direct u (List.mem_append_left vs hu)⟩

/-- A use looks for its operand, and then writes at most the place that it has found. -/
theorem perform_cases (u : Lookup) (s : Datapath κ) :
    u.perform s = s.seek u.slot u.op u.size ∨
      ∃ x l, u.purpose = .store x ∧ s.found u.slot u.op u.size = some l ∧
        u.perform s = (s.seek u.slot u.op u.size).poke u.size x l := by
  have hseek : s.found u.slot u.op u.size = none → s = s.seek u.slot u.op u.size := fun h =>
    (Datapath.seek_of_found_eq_none h).symm
  unfold perform Micro.after
  cases u.purpose with
  | locate =>
    left
    simp only [Micro.locate_eq]
    cases h : s.found u.slot u.op u.size with
    | none => exact hseek h
    | some l => rfl
  | fill =>
    left
    simp only [Micro.fill_eq]
    cases h : s.found u.slot u.op u.size with
    | none => exact hseek h
    | some l => cases hf : l.fault? u.size <;> simp only [hf]
  | store x =>
    simp only [Micro.store_eq]
    cases h : s.found u.slot u.op u.size with
    | none => exact .inl (hseek h)
    | some l =>
      cases hf : l.fault? u.size with
      | none => exact .inr ⟨x, l, rfl, rfl, by simp only [hf]⟩
      | some f => exact .inl (by simp only [hf])

theorem perform_adjusted (u : Lookup) (s : Datapath κ) :
    (u.perform s).adjusted = (s.seek u.slot u.op u.size).adjusted := by
  obtain h | ⟨x, l, -, -, h⟩ := u.perform_cases s <;> simp [h]

theorem perform_a {u : Lookup} (hdirect : u.op.mode = .addressRegister → ∀ x, u.purpose ≠ .store x)
    (s : Datapath κ) (r : Fin 2) :
    (u.perform s).regs.a.get r = (s.seek u.slot u.op u.size).regs.a.get r := by
  obtain h | ⟨x, l, hx, hl, h⟩ := u.perform_cases s
  · rw [h]
  · rw [h, Datapath.poke_a, if_neg]
    rintro rfl
    exact hdirect (Datapath.mode_of_found_address hl) x hx

theorem performAll_concat (us : List Lookup) (u : Lookup) (s : Datapath κ) :
    performAll (us ++ [u]) s = u.perform (performAll us s) := by
  simp [performAll]

theorem performAll_append (us vs : List Lookup) (s : Datapath κ) :
    performAll (us ++ vs) s = performAll vs (performAll us s) := List.foldl_append

theorem performAll_noted {s : Datapath κ} {slot : Slot} {a : UInt16}
    (h : s.adjusted.get slot = some a) (us : List Lookup) :
    (performAll us s).adjusted.get slot = some a := by
  induction us generalizing s with
  | nil => exact h
  | cons u us ih =>
    refine ih ?_
    rw [perform_adjusted]
    exact s.seek_get_of_noted u.slot u.op u.size h

theorem performAll_isSome (us : List Lookup) (s : Datapath κ) (slot : Slot) :
    ((performAll us s.begin).adjusted.get slot).isSome = true ↔
      ∃ u ∈ us, u.slot = slot ∧ u.op.adjusts = true := by
  induction us using List.reverseRecOn with
  | nil => simp [performAll]
  | append_singleton us u ih =>
    rw [performAll_concat, perform_adjusted, Datapath.seek_isSome, ih]
    simp only [List.mem_append, List.mem_singleton]
    constructor
    · rintro (h | ⟨v, hv, h⟩)
      · exact ⟨u, .inr rfl, h⟩
      · exact ⟨v, .inl hv, h⟩
    · rintro ⟨v, hv | rfl, h⟩
      · exact .inr ⟨v, hv, h⟩
      · exact .inl h

/-- What the next use adds is in the first use's account: it moves the pointer of its own slot, and only
if no use before it has. -/
theorem firstShift_concat {us : List Lookup} {u : Lookup} (h : Steady (us ++ [u])) (s : Datapath κ)
    (slot : Slot) (r : Fin 2) : firstShift (us ++ [u]) slot r = firstShift us slot r +
      if u.slot = slot ∧ ((performAll us s.begin).adjusted.get u.slot).isSome = false then
        u.op.shift u.size r else 0 := by
  have hnoted := performAll_isSome us s u.slot
  unfold firstShift
  rw [List.find?_append]
  cases hv : us.find? (·.slot = slot) with
  | some v =>
    have hvs : v.slot = slot := by simpa using List.find?_some hv
    have hvmem : v ∈ us := List.mem_of_find?_eq_some hv
    suffices hzero : u.slot = slot → ((performAll us s.begin).adjusted.get u.slot).isSome = false →
        u.op.shift u.size r = 0 by
      simp +contextual [hzero]
    rintro rfl hn
    have hmode : v.op.mode = u.op.mode := h.mode v (by simp [hvmem]) u (by simp) hvs
    refine Operand.shift_of_not_adjusts ?_ u.size r
    rw [← Bool.not_eq_true]
    intro hadj
    rw [hnoted.mpr ⟨v, hvmem, hvs, (Operand.adjusts_congr hmode).trans hadj⟩] at hn
    cases hn
  | none =>
    have hunused : ∀ v ∈ us, v.slot ≠ slot := by simpa using hv
    by_cases hu : u.slot = slot
    · have hn : ((performAll us s.begin).adjusted.get u.slot).isSome = false := by
        rw [← Bool.not_eq_true, hnoted]
        rintro ⟨v, hvmem, hvs, -⟩
        exact hunused v hvmem (hvs.trans hu)
      simp [hu, hu ▸ hn]
    · simp [hu]

theorem performAll_a {us : List Lookup} (h : Steady us) (s : Datapath κ) (r : Fin 2) :
    (performAll us s.begin).regs.a.get r =
      s.regs.a.get r + (firstShift us .first r + firstShift us .second r) := by
  induction us using List.reverseRecOn with
  | nil => simp [performAll, firstShift]
  | append_singleton us u ih =>
    rw [performAll_concat, perform_a (h.direct u (by simp)), Datapath.seek_a, ih h.of_append,
      firstShift_concat h s .first r, firstShift_concat h s .second r]
    cases ((performAll us s.begin).adjusted.get u.slot).isSome with
    | true => simp
    | false => cases u.slot <;> simp <;> ac_rfl

/-- A use goes to memory at the address `a`, whatever it is for. -/
def GoesTo (u : Lookup) (s : Datapath κ) (a : UInt16) : Prop :=
  ∃ t, Micro.locate u.slot u.op u.size s = .ok (.memory a) t ∧
    Micro.fill u.slot u.op u.size s = Micro.readMemory u.size a t ∧
    ∀ x, Micro.store u.slot u.op u.size x s = Micro.writeMemory u.size a x t

theorem goesTo_of_adjusts {u : Lookup} (h : u.op.adjusts = true) (s : Datapath κ) :
    ∃ a, s.found u.slot u.op u.size = some (.memory a) ∧ u.GoesTo s a ∧
      (u.perform s).adjusted.get u.slot = some a := by
  obtain ⟨a, ha, hnote⟩ := s.found_of_adjusts u.slot u.op u.size h
  have hlocate : Micro.locate u.slot u.op u.size s = .ok (.memory a) (s.seek u.slot u.op u.size) := by
    rw [Micro.locate_eq, ha]
  refine ⟨a, ha, ⟨_, hlocate, ?_, fun x => ?_⟩, ?_⟩
  · rw [Micro.fill, Micro.bind_of_ok hlocate, Micro.load]
  · rw [Micro.store, Micro.bind_of_ok hlocate, Micro.save]
  · rw [perform_adjusted, hnote]

theorem perform_a_of_not_adjusts {u : Lookup} (h : u.op.adjusts = false)
    (hdirect : u.op.mode = .addressRegister → ∀ x, u.purpose ≠ .store x) (s : Datapath κ) (r : Fin 2) :
    (u.perform s).regs.a.get r = s.regs.a.get r := by
  rw [perform_a hdirect, Datapath.seek_of_not_adjusts _ _ _ _ h]

/-- After any uses of the operands of a cycle, in any order and with any success, the address registers
have moved by what the first use of each slot adds, and by nothing else. All uses of an `(An)+` or
`-(An)` operand go to the address that its slot has noted in the end, the one that its pointer gave at
the first of them. A slot whose operands move no pointer has no note, and none of its uses changes an
address register. -/
theorem performAll_adjustsOnce {us : List Lookup} (h : Steady us) (s : Datapath κ) :
    (∀ r, (performAll us s.begin).regs.a.get r =
      s.regs.a.get r + (firstShift us .first r + firstShift us .second r)) ∧
    (∀ before u rest, us = before ++ u :: rest → u.op.adjusts = true →
      ∃ a, (performAll us s.begin).adjusted.get u.slot = some a ∧
        u.GoesTo (performAll before s.begin) a ∧
        ((∀ v ∈ before, v.slot ≠ u.slot) →
          u.op.place u.size (performAll before s.begin).regs.a = some (.memory a))) ∧
    (∀ slot, (∀ u ∈ us, u.slot = slot → u.op.adjusts = false) →
      (performAll us s.begin).adjusted.get slot = none) ∧
    ∀ u ∈ us, u.op.adjusts = false → ∀ (t : Datapath κ) r,
      (u.perform t).regs.a.get r = t.regs.a.get r := by
  refine ⟨performAll_a h s, ?_, fun slot hslot => ?_, fun u hu hadj t r =>
    perform_a_of_not_adjusts hadj (h.direct u hu) t r⟩
  · rintro before u rest rfl hadj
    obtain ⟨a, ha, hgoes, hnote⟩ := goesTo_of_adjusts hadj (performAll before s.begin)
    refine ⟨a, ?_, hgoes, fun hfirst => ?_⟩
    · rw [← List.singleton_append, ← List.append_assoc, performAll_append, performAll_concat]
      exact performAll_noted hnote rest
    · have hunnoted : (performAll before s.begin).adjusted.get u.slot = none := by
        rw [← Option.not_isSome_iff_eq_none, performAll_isSome]
        rintro ⟨v, hv, hvs, -⟩
        exact hfirst v hv hvs
      rw [← Datapath.found_of_none hunnoted, ha]
  · rw [← Option.not_isSome_iff_eq_none, performAll_isSome]
    rintro ⟨u, hu, hus, hadj⟩
    rw [hslot u hu hus] at hadj
    cases hadj

/-- Both slots on A0, the second first used between the two uses of the first, and a write that does not
fit: A0 moves by 2 and back by 4. -/
theorem performAll_adjustsOnce_interleaved :
    let above : Operand := { mode := .postIncrement }
    let below : Operand := { mode := .preDecrement }
    let us : List Lookup := [⟨.first, above, .word, .fill⟩, ⟨.second, below, .long, .locate⟩,
      ⟨.first, above, .long, .store 7⟩, ⟨.second, below, .byte, .store 9⟩]
    let s : Datapath Unit :=
      { regs := { a := #v[0xFFF, 0] }, mem := .empty, adjusted := {}, console := () }
    Steady us ∧ (performAll us s.begin).regs.a.get 0 = 0xFFD ∧
      ∃ a, (performAll us s.begin).adjusted.get .first = some a ∧
        GoesTo ⟨.first, above, .long, .store 7⟩ (performAll (us.take 2) s.begin) a := by
  intro above below us s
  have hus : Steady us := ⟨by decide, by simp [us, above, below]⟩
  obtain ⟨hregisters, haddress, -⟩ := performAll_adjustsOnce hus s
  obtain ⟨a, ha, hgoes, -⟩ := haddress (us.take 2) ⟨.first, above, .long, .store 7⟩ _ rfl rfl
  exact ⟨hus, (hregisters 0).trans (by decide), a, ha, hgoes⟩

end Lookup
end Micro68
