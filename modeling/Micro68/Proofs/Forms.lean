import Micro68.Proofs.PointerAccounting
import Micro68.Proofs.Resolution

/-! Short forms and comparison. ADDQ and SUBQ do what ADD and SUB do with a data register that holds the
immediate, since nothing moves in search of a data register. CMP does all that SUB does up to the store
of the difference, which always succeeds because its operand has just been read. Nothing here asks where
the operands are, or which of them have been found before. -/
namespace Micro68

namespace Datapath

variable {κ : Type} (s : Datapath κ) (i : Instruction) (slot : Slot) (size : Size)

/-- Where the operand in a slot is found, or why it has no place or cannot be moved. -/
def find : Except Fault Location :=
  match i.operand? slot with
  | none => .error (.invalidOperandCount i.operandCount)
  | some op => match s.found slot op size with
    | none => .error (.invalidMode op.mode.code)
    | some l => match l.fault? size with
      | none => .ok l
      | some f => .error f

def look : Datapath κ :=
  match i.operand? slot with
  | none => s
  | some op => s.seek slot op size

@[simp] theorem look_mem : (s.look i slot size).mem = s.mem := by unfold look; split <;> simp
@[simp] theorem look_console : (s.look i slot size).console = s.console := by
  unfold look; split <;> simp
@[simp] theorem look_d : (s.look i slot size).regs.d = s.regs.d := by unfold look; split <;> simp
@[simp] theorem look_pc : (s.look i slot size).regs.pc = s.regs.pc := by unfold look; split <;> simp
@[simp] theorem look_flags : (s.look i slot size).regs.flags = s.regs.flags := by
  unfold look; split <;> simp

def motion (r : Fin 2) : UInt16 :=
  if (s.adjusted.get slot).isSome then 0 else i.shift slot size r

theorem look_a (r : Fin 2) :
    (s.look i slot size).regs.a.get r = s.regs.a.get r + s.motion i slot size r := by
  unfold look motion Instruction.shift
  cases i.operand? slot with
  | none => simp
  | some op => exact s.seek_a slot op size r

theorem look_get_of_ne {other : Slot} (h : slot ≠ other) :
    (s.look i slot size).adjusted.get other = s.adjusted.get other := by
  unfold look
  cases i.operand? slot with
  | none => rfl
  | some op => exact s.seek_get_of_ne slot op size h

/-- Pointers of some operands have moved, and nothing else has changed but the status bits. -/
structure Moved (s t : Datapath κ) (i : Instruction) (slots : List Slot) : Prop where
  mem : t.mem = s.mem
  data : t.regs.d = s.regs.d
  pointer : ∀ r : Fin 2, t.regs.a.get r = s.regs.a.get r +
    slots.foldr (fun slot total => s.motion i slot i.size r + total) 0
  pc : t.regs.pc = s.regs.pc
  console : t.console = s.console

theorem moved_first : s.Moved (s.look i .first i.size) i [.first] := by
  refine ⟨by simp, by simp, fun r => ?_, by simp, by simp⟩
  rw [look_a]
  simp

theorem moved_both : s.Moved ((s.look i .first i.size).look i .second i.size) i Slot.all := by
  refine ⟨by simp, by simp, fun r => ?_, by simp, by simp⟩
  have hnote : (s.look i .first i.size).motion i .second i.size r = s.motion i .second i.size r := by
    rw [motion, motion, look_get_of_ne _ _ _ _ (by decide)]
  rw [look_a, look_a, hnote]
  simp [Slot.all, UInt16.add_assoc]

variable {s i slot size}

/-- Pointers and notes are all that the place of an operand depends on. -/
theorem found_unmoved {t : Datapath κ} {op : Operand} {l : Location}
    (h : s.found slot op size = some l) (ha : t.regs.a = (s.seek slot op size).regs.a)
    (hn : t.adjusted = (s.seek slot op size).adjusted) (again : Size) :
    t.found slot op again = some l ∧ t.seek slot op again = t := by
  refine found_again h hn again fun hadj => ?_
  rw [s.seek_of_not_adjusts slot op size hadj] at ha
  simp only [found, hadj] at h
  rw [ha, ← h]
  unfold Operand.adjusts at hadj
  unfold Operand.place
  cases hm : op.mode <;> simp_all

theorem isPointer_of_find {r : Fin 2} (h : s.find i slot size = .ok (.address r)) :
    i.isPointer slot r = true := by
  unfold find at h
  split at h
  · cases h
  · rename_i op hop
    split at h
    · cases h
    · rename_i l hl
      split at h <;> cases h
      have hm := mode_of_found_address hl
      have hadj : op.adjusts = false := by rw [Operand.adjusts, hm]
      have hindex : op.index = r := by simpa [found, hadj, Operand.place, hm] using hl
      simp [Instruction.isPointer, hop, hm, hindex]

end Datapath

namespace Microprogram

variable {κ β : Type} {s t : Datapath κ} {i : Instruction} {slot : Slot} {size : Size} {l : Location}

theorem fill_look (i : Instruction) (slot : Slot) (size : Size) (s : Datapath κ) :
    fill i slot size s = match s.find i slot size with
      | .ok l => .ok ((s.look i slot size).peek size l) (s.look i slot size)
      | .error f => .error f (s.look i slot size) := by
  unfold fill Datapath.find Datapath.look
  rw [Micro.bind_run, operand_run]
  cases i.operand? slot with
  | none => rfl
  | some op =>
    simp only [Micro.fill_eq]
    cases hl : s.found slot op size with
    | none => rw [Datapath.seek_of_found_eq_none hl]
    | some l => cases hf : l.fault? size <;> simp [hf]

theorem store_look (h : s.find i slot size = .ok l) (ha : t.regs.a = (s.look i slot size).regs.a)
    (hn : t.adjusted = (s.look i slot size).adjusted) (x : UInt32) :
    store i slot size x t = .ok () (t.poke size x l) := by
  unfold Datapath.find at h
  unfold Datapath.look at ha hn
  unfold store
  rw [Micro.bind_run, operand_run]
  cases hop : i.operand? slot with
  | none => simp [hop] at h
  | some op =>
    simp only [hop] at h ha hn ⊢
    cases hl : s.found slot op size with
    | none => simp [hl] at h
    | some l' =>
      cases hf : l'.fault? size with
      | some f => simp [hl, hf] at h
      | none =>
        simp only [hl, hf, Except.ok.injEq] at h
        subst h
        obtain ⟨hfound, hseek⟩ := Datapath.found_unmoved hl ha hn size
        rw [Micro.store_eq, hfound, hseek]
        simp only [hf]

theorem fillBoth_look (i : Instruction) (size : Size) (g : UInt32 → UInt32 → Micro κ β)
    (s : Datapath κ) :
    (fill i .first size >>= fun x => fill i .second size >>= fun y => g x y) s =
      let u := s.look i .first size
      match s.find i .first size with
      | .error f => .error f u
      | .ok l₁ => match u.find i .second size with
        | .error f => .error f (u.look i .second size)
        | .ok l₂ => g (u.peek size l₁) ((u.look i .second size).peek size l₂)
            (u.look i .second size) := by
  rw [Micro.bind_run, fill_look]
  cases s.find i .first size with
  | error f => rfl
  | ok l₁ =>
    simp only [Micro.bind_run, fill_look]
    cases (s.look i .first size).find i .second size <;> rfl

theorem computeStore_look (h : s.find i slot size = .ok l) (g : Flags → UInt32 × Flags) :
    let t := s.look i slot size
    (Micro.compute g >>= fun x => store i slot size x) t =
      .ok () ((t.setFlags (g t.regs.flags).2).poke size (g t.regs.flags).1 l) := by
  intro t
  rw [Micro.bind_of_ok (show Micro.compute g t = .ok _ (t.setFlags (g t.regs.flags).2) from rfl)]
  exact store_look (t := t.setFlags (g t.regs.flags).2) h rfl rfl _

/-- A comparison and the operation that also stores the result end in the same fault, with pointers
moved at most, or both succeed, and then the store is all that they differ in. -/
theorem compare_and_combine (op : AluOp) (i : Instruction) (s : Datapath κ) :
    (∃ f t, compare op i s = .error f t ∧ combine op i s = .error f t ∧
      t.regs.flags = s.regs.flags ∧ ∃ slots, slots <+: Slot.all ∧ s.Moved t i slots) ∨
    ∃ t l x, compare op i s = .ok () t ∧ combine op i s = .ok () (t.poke i.size x l) ∧
      s.Moved t i Slot.all ∧ (s.look i .first i.size).find i .second i.size = .ok l := by
  unfold compare combine
  rw [fillBoth_look, fillBoth_look]
  cases hl₁ : s.find i .first i.size with
  | error f =>
    exact .inl ⟨f, _, rfl, rfl, by simp, [.first], ⟨[.second], rfl⟩, s.moved_first i⟩
  | ok l₁ =>
    dsimp only
    cases hl₂ : (s.look i .first i.size).find i .second i.size with
    | error f => exact .inl ⟨f, _, rfl, rfl, by simp, Slot.all, List.prefix_rfl, s.moved_both i⟩
    | ok l₂ =>
      have hmoved := s.moved_both i
      simp only [Micro.discard_run, computeStore_look hl₂]
      exact .inr ⟨_, l₂, _, rfl, rfl,
        ⟨hmoved.mem, hmoved.data, hmoved.pointer, hmoved.pc, hmoved.console⟩, rfl⟩

theorem fill_of_operand? {op : Operand} (h : i.operand? slot = some op) (size : Size)
    (s : Datapath κ) : fill i slot size s = Micro.fill slot op size s := by
  rw [fill, Micro.bind_run, operand_run, h]

theorem store_of_operand? {op : Operand} (h : i.operand? slot = some op) (size : Size) (x : UInt32)
    (s : Datapath κ) : store i slot size x s = Micro.store slot op size x s := by
  rw [store, Micro.bind_run, operand_run, h]

theorem combineQuick_eq_combine (op : AluOp) {i j : Instruction} {n : UInt8} {src dst : Operand}
    (hi : i.operands = .quick n dst) (hj : j.operands = .full src dst) (hsize : j.size = i.size)
    (hmode : src.mode = .dataRegister)
    (hn : (s.element i.size (.data src.index)).toNat = n.toNat) :
    combineQuick op i s = combine op j s := by
  have hdst : i.operand? .second = some dst := by rw [Instruction.operand?, hi]
  have hdst' : j.operand? .second = some dst := by rw [Instruction.operand?, hj]
  have hsrc : j.operand? .first = some src := by rw [Instruction.operand?, hj]
  have hvalue : i.size.low (s.regs.d.get src.index) = i.data.toUInt32 := by
    rw [← UInt32.toNat_inj, Size.toNat_low, ← Size.toNat_trunc, Instruction.data, hi,
      UInt8.toNat_toUInt32]
    exact hn
  have hread : fill j .first j.size s = .ok i.data.toUInt32 s := by
    have hreg : src.mode.isRegister = true := by rw [hmode]; rfl
    rw [fill_of_operand? hsrc, Micro.fill, Micro.bind_of_ok (Micro.locate_register hreg),
      Operand.register, if_pos hmode, ← hvalue, hsize]
    rfl
  unfold combineQuick combine
  rw [Micro.bind_of_ok hread, Micro.bind_run, Micro.bind_run, fill_of_operand? hdst,
    fill_of_operand? hdst', hsize]
  simp only [Micro.bind_run, store_of_operand? hdst, store_of_operand? hdst']

end Microprogram

/-- The operation that does with two operands what this one does with an immediate and an operand. -/
def Opcode.ofImmediate? : Opcode → Option Opcode
  | addq => some add
  | subq => some sub
  | _ => none

namespace Datapath

variable {κ : Type} [Console κ]

/-- An operation with an immediate ends like the one that takes its source from a data register whose
low bits are the immediate, even if that register is the destination. A comparison faults where the
subtraction of the same operands does, and otherwise leaves its status bits, its notes and its pointers,
apart from an address register that the difference is stored to; it changes nothing else. -/
theorem forms_agree (s : Datapath κ) :
    (∀ short long : Opcode, short.ofImmediate? = some long →
      ∀ size count count' n src dst, src.mode = .dataRegister →
        (s.element size (.data src.index)).toNat = n.toNat →
        Instruction.execute ⟨short, size, count, .quick n dst⟩ s =
          Instruction.execute ⟨long, size, count', .full src dst⟩ s) ∧
    ∀ i : Instruction, i.opcode = .cmp →
      let sub : Instruction := { i with opcode := .sub }
      (∀ f t, i.execute s = .error f t ↔ sub.execute s = .error f t) ∧
      (∀ f t, i.execute s = .error f t → t.regs.flags = s.regs.flags ∧
        ∃ slots, slots <+: Slot.all ∧ s.Moved t i slots) ∧
      ∀ t, i.execute s = .ok () t → s.Moved t i Slot.all ∧ ∃ u, sub.execute s = .ok () u ∧
        u.regs.flags = t.regs.flags ∧ u.adjusted = t.adjusted ∧
        (∀ r, i.isPointer .second r = false → u.regs.a.get r = t.regs.a.get r) ∧
        ∃ l x, (s.look i .first i.size).find i .second i.size = .ok l ∧ u = t.poke i.size x l := by
  constructor
  · intro short long hforms size count count' n src dst hmode hn
    unfold Opcode.ofImmediate? at hforms
    split at hforms <;> cases hforms
    · exact Microprogram.combineQuick_eq_combine Alu.add rfl rfl rfl hmode hn
    · exact Microprogram.combineQuick_eq_combine Alu.sub rfl rfl rfl hmode hn
  · intro i hcmp sub
    have hi : i.execute s = Microprogram.compare Alu.sub i s := by rw [Instruction.execute, hcmp]
    -- the operation apart, the two instructions are the same
    have hsub : sub.execute s = Microprogram.combine Alu.sub i s := rfl
    rw [hi, hsub]
    rcases Microprogram.compare_and_combine Alu.sub i s with
      ⟨f, t, hcompare, hcombine, hflags, hmoved⟩ | ⟨t, l, x, hcompare, hcombine, hmoved, hl⟩
    · rw [hcompare, hcombine]
      refine ⟨fun _ _ => Iff.rfl, fun g u h => ?_, fun u h => ?_⟩
      · cases h
        exact ⟨hflags, hmoved⟩
      · cases h
    · rw [hcompare, hcombine]
      refine ⟨fun g u => ⟨fun h => ?_, fun h => ?_⟩, fun g u h => ?_, fun u h => ?_⟩
      · cases h
      · cases h
      · cases h
      · cases h
        refine ⟨hmoved, _, rfl, poke_flags .., poke_adjusted .., fun r hr => ?_, l, x, hl, rfl⟩
        rw [poke_a, if_neg]
        rintro rfl
        rw [isPointer_of_find hl] at hr
        cases hr

/-- `ADDQ.B #3,D0` and `ADD.B D0,D0` where the low byte of D0 is 3. `CMP.W (A0)+,A0` leaves A0 behind the
word that it has read, where `SUB.W (A0)+,A0` stores the difference. -/
theorem forms_agree_sameRegister :
    let s : Datapath Scripted :=
      { regs := { d := #v[0xFF03, 0], a := #v[2, 0] }, mem := Memory.empty.put 0 [0, 0, 0, 1]
        adjusted := {}, console := { replies := [] } }
    let cmp : Instruction := .full .cmp .word { mode := .postIncrement } (.addr 0)
    ({} : Operand).mode = .dataRegister ∧ (s.element .byte (.data 0)).toNat = (3 : UInt8).toNat ∧
      (∃ t, (Instruction.quick .addq .byte 3 {}).execute s = .ok () t ∧
        (Instruction.full .add .byte {} {}).execute s = .ok () t ∧ t.regs.d.get 0 = 0xFF06) ∧
      ∃ t u, cmp.execute s = .ok () t ∧ t.regs.a.get 0 = 4 ∧
        Instruction.execute { cmp with opcode := .sub } s = .ok () u ∧
        u.regs.flags = t.regs.flags ∧ u.regs.a.get 0 = 3 := by
  intro s cmp
  have hmode : ({} : Operand).mode = .dataRegister := rfl
  have hn : (s.element .byte (.data 0)).toNat = (3 : UInt8).toNat := by decide +kernel
  obtain ⟨hshort, hcompare⟩ := forms_agree s
  obtain ⟨-, -, hcmp⟩ := hcompare cmp rfl
  have hadd := hshort .addq .add rfl .byte 1 2 3 {} {} hmode hn
  refine ⟨hmode, hn, ⟨_, rfl, hadd.symm, ?_⟩, ?_⟩
  · decide +kernel
  · obtain ⟨hmoved, u, hsub, hflags, -⟩ := hcmp _ rfl
    refine ⟨_, u, rfl, (hmoved.pointer 0).trans (by decide), hsub, hflags, ?_⟩
    obtain ⟨-, rfl⟩ := EStateM.Result.ok.inj (hsub.symm.trans rfl)
    decide +kernel

end Datapath
end Micro68
