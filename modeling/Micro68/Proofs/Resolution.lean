import Micro68.Proofs.Elements

/-! Operands in the middle of a cycle, whatever notes there are by then. A slot that has a note already
finds its `(An)+` or `-(An)` operand at the noted address and moves no pointer; otherwise the operand is
where its mode says, and its pointer moves. What is written there can be read there again, as often as
one likes, and nothing else changes. -/
namespace Micro68

namespace Datapath

variable {κ : Type}

/-- Where an operand is found: at the noted address, if its pointer has been moved in this cycle. -/
def found (s : Datapath κ) (slot : Slot) (op : Operand) (size : Size) : Option Location :=
  match op.adjusts, s.adjusted.get slot with
  | true, some a => some (.memory a)
  | _, _ => op.place size s.regs.a

/-- The state after an operand was looked for: its pointer has moved, unless it had done so before. -/
def seek (s : Datapath κ) (slot : Slot) (op : Operand) (size : Size) : Datapath κ :=
  match s.adjusted.get slot with
  | some _ => s
  | none => s.settleOperand slot op size

variable (s : Datapath κ) (slot : Slot) (op : Operand) (size : Size)

@[simp] theorem seek_mem : (s.seek slot op size).mem = s.mem := by unfold seek; split <;> simp
@[simp] theorem seek_console : (s.seek slot op size).console = s.console := by
  unfold seek; split <;> simp
@[simp] theorem seek_d : (s.seek slot op size).regs.d = s.regs.d := by unfold seek; split <;> simp
@[simp] theorem seek_pc : (s.seek slot op size).regs.pc = s.regs.pc := by unfold seek; split <;> simp
@[simp] theorem seek_flags : (s.seek slot op size).regs.flags = s.regs.flags := by
  unfold seek; split <;> simp

theorem seek_a (r : Fin 2) : (s.seek slot op size).regs.a.get r =
    s.regs.a.get r + if (s.adjusted.get slot).isSome then 0 else op.shift size r := by
  unfold seek
  cases s.adjusted.get slot with
  | some a => simp
  | none => exact s.settleOperand_a slot op size r

theorem seek_get_of_ne {t : Slot} (h : slot ≠ t) :
    (s.seek slot op size).adjusted.get t = s.adjusted.get t := by
  unfold seek
  split
  · rfl
  · rw [settleOperand_get, if_neg fun hn => h hn.1]

theorem seek_of_not_adjusts (h : op.adjusts = false) : s.seek slot op size = s := by
  unfold seek
  split
  · rfl
  · unfold settleOperand
    unfold Operand.adjusts at h
    cases hm : op.mode <;> simp_all

theorem found_of_adjusts (h : op.adjusts = true) : ∃ a, s.found slot op size = some (.memory a) ∧
    (s.seek slot op size).adjusted.get slot = some a := by
  unfold found seek
  rw [h]
  cases hn : s.adjusted.get slot with
  | some a => exact ⟨a, rfl, hn⟩
  | none =>
    dsimp only
    refine ⟨s.regs.a.get op.index - if op.mode = .preDecrement then size.stride else 0, ?_, ?_⟩
    · unfold Operand.adjusts at h
      unfold Operand.place
      cases hm : op.mode <;> simp_all
    · rw [settleOperand_get, if_pos ⟨rfl, h⟩]

theorem seek_isSome (t : Slot) : ((s.seek slot op size).adjusted.get t).isSome = true ↔
    slot = t ∧ op.adjusts = true ∨ (s.adjusted.get t).isSome = true := by
  unfold seek
  cases hn : s.adjusted.get slot with
  | some a =>
    constructor
    · exact .inr
    · rintro (⟨rfl, -⟩ | h)
      · simp [hn]
      · exact h
  | none =>
    rw [settleOperand_get]
    by_cases h : slot = t ∧ op.adjusts = true <;> simp [h]

theorem seek_get_of_noted {t : Slot} {a : UInt16} (h : s.adjusted.get t = some a) :
    (s.seek slot op size).adjusted.get t = some a := by
  by_cases ht : slot = t
  · subst ht
    rw [seek, h]
    exact h
  · rw [seek_get_of_ne _ _ _ _ ht, h]

variable {s slot op size} {l : Location}

theorem found_of_none (h : s.adjusted.get slot = none) :
    s.found slot op size = op.place size s.regs.a := by
  unfold found
  rw [h]
  cases op.adjusts <;> rfl

theorem seek_of_none (h : s.adjusted.get slot = none) :
    s.seek slot op size = s.settleOperand slot op size := by
  rw [seek, h]

theorem seek_of_found_eq_none (h : s.found slot op size = none) : s.seek slot op size = s := by
  refine s.seek_of_not_adjusts slot op size ?_
  rw [← Bool.not_eq_true]
  intro hadj
  obtain ⟨a, ha, -⟩ := s.found_of_adjusts slot op size hadj
  rw [h] at ha
  cases ha

theorem mode_of_found_address {n : Fin 2} (h : s.found slot op size = some (.address n)) :
    op.mode = .addressRegister := by
  unfold found Operand.adjusts Operand.place at h
  cases hm : op.mode <;> cases hn : s.adjusted.get slot <;> simp_all

/-- An operand that has been found is found there again, and nothing moves, if its note is still there
and an operand that needs none still has that place. -/
theorem found_again {t : Datapath κ} (h : s.found slot op size = some l)
    (hn : t.adjusted = (s.seek slot op size).adjusted) (again : Size)
    (hplace : op.adjusts = false → op.place again t.regs.a = some l) :
    t.found slot op again = some l ∧ t.seek slot op again = t := by
  cases hadj : op.adjusts with
  | true =>
    obtain ⟨a, ha, hnote⟩ := s.found_of_adjusts slot op size hadj
    cases h.symm.trans ha
    rw [← hn] at hnote
    exact ⟨by rw [found, hadj, hnote], by rw [seek, hnote]⟩
  | false =>
    exact ⟨by rw [found, hadj]; exact hplace hadj, t.seek_of_not_adjusts slot op again hadj⟩

/-- Writing to an operand does not move it: its place depends on no register that is written. -/
theorem place_poke (h : s.found slot op size = some l) (hadj : op.adjusts = false)
    (again wide : Size) (x : UInt32) :
    op.place again ((s.seek slot op size).poke wide x l).regs.a = some l := by
  rw [seek_of_not_adjusts _ _ _ _ hadj]
  simp only [found, hadj] at h
  unfold Operand.adjusts at hadj
  unfold Operand.place at h ⊢
  cases hm : op.mode <;> simp_all
  all_goals subst h; rfl

theorem found_poke (h : s.found slot op size = some l) (again wide : Size) (x : UInt32) :
    ((s.seek slot op size).poke wide x l).found slot op again = some l :=
  (found_again h (poke_adjusted ..) again fun hadj => place_poke h hadj again wide x).1

theorem seek_poke (h : s.found slot op size = some l) (again wide : Size) (x : UInt32) :
    ((s.seek slot op size).poke wide x l).seek slot op again =
      (s.seek slot op size).poke wide x l :=
  (found_again h (poke_adjusted ..) again fun hadj => place_poke h hadj again wide x).2

/-- What is read at a place after a pattern was written there. -/
def reread (size : Size) (x : UInt32) : Location → UInt32
  | .address _ => x.toUInt16.toUInt32
  | _ => size.low x

theorem peek_poke (hl : l.fault? size = none) (s : Datapath κ) (x : UInt32) :
    (s.poke size x l).peek size l = reread size x l := by
  cases l with
  | data n =>
    have hmerge := trunc_merge size (s.regs.d.get n) x
    apply UInt32.toNat_inj.mp
    simp only [peek, poke, reread, Registers.setD_d, if_pos, Size.toNat_low]
    rw [← Size.toNat_trunc, hmerge, Size.toNat_trunc]
  | address n => simp [peek, poke, reread]
  | memory a =>
    have hrange : a.toNat + (BigEndian.bytes size x).length ≤ Memory.capacity := by
      simpa [Location.fault?, Memory.inRange] using hl
    have hslice := s.mem.slice_put a.toNat _ hrange
    rw [BigEndian.bytes_length] at hslice
    simp only [peek, poke, reread, hslice, BigEndian.value_bytes]

/-- What a write to an operand has changed: its place holds the pattern, its pointer has moved unless it
had done so before, which the slot's note tells, and everything else is as it was. -/
structure Stored (s t : Datapath κ) (slot : Slot) (op : Operand) (size : Size) (x : UInt32)
    (l : Location) : Prop where
  wrote : s.Wrote t size l (size.trunc x)
  pointer : ∀ r : Fin 2, t.regs.a.get r = if l = .address r then x.toUInt16
    else s.regs.a.get r + if (s.adjusted.get slot).isSome then 0 else op.shift size r
  pc : t.regs.pc = s.regs.pc
  flags : t.regs.flags = s.regs.flags
  console : t.console = s.console
  note : op.adjusts = true → ∃ a, l = .memory a ∧ t.adjusted.get slot = some a
  notes : ∀ other, (slot = other → op.adjusts = false) →
    t.adjusted.get other = s.adjusted.get other

theorem stored_poke (h : s.found slot op size = some l) (hl : l.fault? size = none) (x : UInt32) :
    s.Stored ((s.seek slot op size).poke size x l) slot op size x l := by
  have hwrote := (wrote_poke (s := s.seek slot op size) hl x).of_eq (s := s) (by simp) (by simp)
  refine ⟨hwrote, fun r => ?_, by simp, by simp, by simp, fun hadj => ?_, fun other hother => ?_⟩
  · rw [poke_a, seek_a]
  · obtain ⟨a, ha, hnote⟩ := s.found_of_adjusts slot op size hadj
    cases h.symm.trans ha
    exact ⟨a, rfl, hnote⟩
  · rw [poke_adjusted]
    by_cases hslot : slot = other
    · rw [seek_of_not_adjusts _ _ _ _ (hother hslot)]
    · exact s.seek_get_of_ne slot op size hslot

end Datapath

namespace Micro

variable {κ : Type}

theorem locate_eq (slot : Slot) (op : Operand) (size : Size) (s : Datapath κ) :
    locate slot op size s = match s.found slot op size with
      | some l => .ok l (s.seek slot op size)
      | none => .error (.invalidMode op.mode.code) s := by
  cases hn : s.adjusted.get slot with
  | none =>
    rw [Datapath.found_of_none hn, Datapath.seek_of_none hn]
    exact locate_run hn
  | some a =>
    unfold locate Datapath.found Operand.adjusts Operand.place Datapath.seek
    cases hm : op.mode <;> simp [locateAdjusted, bind_run, hn, Mode.code]

theorem fill_eq (slot : Slot) (op : Operand) (size : Size) (s : Datapath κ) :
    fill slot op size s = match s.found slot op size with
      | none => .error (.invalidMode op.mode.code) s
      | some l => match l.fault? size with
        | none => .ok ((s.seek slot op size).peek size l) (s.seek slot op size)
        | some f => .error f (s.seek slot op size) := by
  rw [fill, bind_run, locate_eq]
  cases s.found slot op size with
  | none => rfl
  | some l => exact load_run ..

theorem store_eq (slot : Slot) (op : Operand) (size : Size) (x : UInt32) (s : Datapath κ) :
    store slot op size x s = match s.found slot op size with
      | none => .error (.invalidMode op.mode.code) s
      | some l => match l.fault? size with
        | none => .ok () ((s.seek slot op size).poke size x l)
        | some f => .error f (s.seek slot op size) := by
  rw [store, bind_run, locate_eq]
  cases s.found slot op size with
  | none => rfl
  | some l => exact save_run ..

/-- An operand can be written if it has a place and, in memory, all of its bytes have one. What was
written can be read at once, cut to the size unless an address register holds it, and reading it
changes nothing. Writing changes the place of the operand and, the first time, its pointer; writing
that fails leaves memory and the data registers alone. -/
theorem fill_after_store (slot : Slot) (op : Operand) (size : Size) (x : UInt32) (s : Datapath κ) :
    ((∃ t, store slot op size x s = .ok () t) ↔
      ∃ l, s.found slot op size = some l ∧ l.fault? size = none) ∧
    (∀ t, store slot op size x s = .ok () t → ∃ l, s.found slot op size = some l ∧
      fill slot op size t = .ok (Datapath.reread size x l) t ∧ s.Stored t slot op size x l) ∧
    ∀ f t, store slot op size x s = .error f t → t.mem = s.mem ∧ t.regs.d = s.regs.d := by
  rw [store_eq]
  cases hl : s.found slot op size with
  | none => simp
  | some l =>
    cases hf : l.fault? size with
    | some f => simp +contextual [hf]
    | none =>
      simp only [hf]
      refine ⟨⟨fun _ => ⟨l, rfl, hf⟩, fun _ => ⟨_, rfl⟩⟩, fun t ht => ⟨l, rfl, ?_, ?_⟩,
        fun f t ht => ?_⟩
      · cases ht
        rw [fill_eq, Datapath.found_poke hl, Datapath.seek_poke hl]
        simp only [hf, Datapath.peek_poke hf]
      · cases ht
        exact Datapath.stored_poke hl hf x
      · cases ht

/-- `-(A1)` right below the end of memory, and `(A0)+` in a slot whose note an earlier access has left. -/
theorem fill_after_store_noted :
    let s : Datapath Unit :=
      { regs := { a := #v[0x1000, 0x1001] }, mem := .empty, adjusted := { second := some 0x20 }
        console := () }
    let below : Operand := { mode := .preDecrement, reg := 1 }
    let above : Operand := { mode := .postIncrement }
    (∃ t, store .first below .word 0xABCD1234 s = .ok () t ∧
      fill .first below .word t = .ok 0x1234 t ∧ t.regs.a.get 1 = 0xFFF) ∧
    ∃ t, store .second above .long 0xABCD1234 s = .ok () t ∧
      fill .second above .long t = .ok 0xABCD1234 t ∧ t.regs.a.get 0 = 0x1000 := by
  intro s below above
  have hbelow : s.found .first below .word = some (.memory 0xFFF) := by decide
  have habove : s.found .second above .long = some (.memory 0x20) := by decide
  constructor
  · obtain ⟨hcan, hread, -⟩ := fill_after_store .first below .word 0xABCD1234 s
    obtain ⟨t, ht⟩ := hcan.mpr ⟨_, hbelow, rfl⟩
    obtain ⟨l, hl, hfill, hstored⟩ := hread t ht
    cases hbelow.symm.trans hl
    exact ⟨t, ht, hfill, (hstored.pointer 1).trans (by decide)⟩
  · obtain ⟨hcan, hread, -⟩ := fill_after_store .second above .long 0xABCD1234 s
    obtain ⟨t, ht⟩ := hcan.mpr ⟨_, habove, rfl⟩
    obtain ⟨l, hl, hfill, hstored⟩ := hread t ht
    cases habove.symm.trans hl
    exact ⟨t, ht, hfill, (hstored.pointer 0).trans (by decide)⟩

end Micro
end Micro68
