import Micro68.Console.Scripted
import Micro68.Proofs.Completion
import Micro68.Proofs.Elements

/-! Exchange. Both registers are read before either is written, so that each one receives what the other
one held: all of it between address registers, the low bits of the size between data registers, and a
word between one of each if the size is a word. What is exchanged so is exchanged back by doing it
again. -/
namespace Micro68

theorem Size.eq_of_trunc_eq {size : Size} {x y : UInt32} (hlow : size.trunc x = size.trunc y)
    (habove : ∀ k, size.bits ≤ k → x.toBitVec.getLsbD k = y.toBitVec.getLsbD k) : x = y := by
  apply UInt32.toBitVec_inj.mp
  apply BitVec.eq_of_getLsbD_eq
  intro k hk
  by_cases hsize : k < size.bits
  · have hbit := congrArg (fun w => w.getLsbD k) hlow
    rwa [Size.getLsbD_trunc, Size.getLsbD_trunc, decide_eq_true hsize, Bool.true_and,
      Bool.true_and] at hbit
  · exact habove k (Nat.le_of_not_lt hsize)

namespace Location

def sameKind : Location → Location → Bool
  | data _, data _ | address _, address _ => true
  | _, _ => false

end Location

namespace Datapath

variable {κ : Type}

theorem poke_d (s : Datapath κ) (size : Size) (x : UInt32) (l : Location) (n : Fin 2) :
    (s.poke size x l).regs.d.get n =
      if l = .data n then s.regs.d.get n &&& ~~~size.mask ||| size.low x else s.regs.d.get n := by
  cases l with
  | memory a => rfl
  | address r => rfl
  | data r =>
    by_cases hr : r = n
    · subst hr
      simp [poke]
    · simp [poke, hr]

/-- What an exchange of two registers at a size has done: V and C are clear, the two registers hold what
the other one held, a word of it if they are of different kinds and the size is a word, and nothing else
has changed. -/
structure Exchanged (s t : Datapath κ) (size : Size) (src dst : Location) : Prop where
  flags : t.regs.flags = s.regs.flags.setVC false false
  mem : t.mem = s.mem
  pc : t.regs.pc = s.regs.pc
  notes : t.adjusted = s.adjusted
  console : t.console = s.console
  otherData : ∀ n : Fin 2, src ≠ .data n → dst ≠ .data n → t.regs.d.get n = s.regs.d.get n
  otherAddress : ∀ n : Fin 2, src ≠ .address n → dst ≠ .address n →
    t.regs.a.get n = s.regs.a.get n
  above : ∀ (n : Fin 2) (k : Nat), size.bits ≤ k →
    (t.regs.d.get n).toBitVec.getLsbD k = (s.regs.d.get n).toBitVec.getLsbD k
  data : ∀ a b : Fin 2, src = .data a → dst = .data b →
    size.trunc (t.regs.d.get a) = size.trunc (s.regs.d.get b) ∧
    size.trunc (t.regs.d.get b) = size.trunc (s.regs.d.get a)
  address : ∀ a b : Fin 2, src = .address a → dst = .address b →
    t.regs.a.get a = s.regs.a.get b ∧ t.regs.a.get b = s.regs.a.get a
  mixed : size = .word → ∀ a b : Fin 2,
    src = .data a ∧ dst = .address b ∨ src = .address b ∧ dst = .data a →
    (t.regs.d.get a).toUInt16 = s.regs.a.get b ∧ t.regs.a.get b = (s.regs.d.get a).toUInt16

variable {s t u : Datapath κ} {size : Size} {src dst : Location}

theorem ext_registers (hd : ∀ n : Fin 2, t.regs.d.get n = s.regs.d.get n)
    (ha : ∀ n : Fin 2, t.regs.a.get n = s.regs.a.get n) (hpc : t.regs.pc = s.regs.pc)
    (hflags : t.regs.flags = s.regs.flags) (hmem : t.mem = s.mem) (hnotes : t.adjusted = s.adjusted)
    (hconsole : t.console = s.console) : t = s := by
  obtain ⟨⟨d, a, pc, flags⟩, mem, notes, console⟩ := s
  obtain ⟨⟨d', a', pc', flags'⟩, mem', notes', console'⟩ := t
  obtain rfl : d' = d := Vector.ext fun k hk => hd ⟨k, hk⟩
  obtain rfl : a' = a := Vector.ext fun k hk => ha ⟨k, hk⟩
  subst hpc hflags hmem hnotes hconsole
  rfl

namespace Exchanged

theorem symm (h : s.Exchanged t size src dst) : s.Exchanged t size dst src where
  flags := h.flags
  mem := h.mem
  pc := h.pc
  notes := h.notes
  console := h.console
  otherData n hdst hsrc := h.otherData n hsrc hdst
  otherAddress n hdst hsrc := h.otherAddress n hsrc hdst
  above := h.above
  data a b hdst hsrc := (h.data b a hsrc hdst).symm
  address a b hdst hsrc := (h.address b a hsrc hdst).symm
  mixed hsize a b hor := h.mixed hsize a b (hor.symm.imp And.symm And.symm)

theorem self (h : s.Exchanged t size src src) :
    t = s.setFlags (s.regs.flags.setVC false false) := by
  refine ext_registers (fun n => ?_) (fun n => ?_) h.pc h.flags h.mem h.notes h.console
  · by_cases hn : src = .data n
    · exact Size.eq_of_trunc_eq (h.data n n hn hn).1 (h.above n)
    · exact h.otherData n hn hn
  · by_cases hn : src = .address n
    · exact (h.address n n hn hn).1
    · exact h.otherAddress n hn hn

theorem twice_data {a b : Fin 2} (h : s.Exchanged t size (.data a) (.data b))
    (h' : t.Exchanged u size (.data a) (.data b)) (n : Fin 2) :
    size.trunc (u.regs.d.get n) = size.trunc (s.regs.d.get n) := by
  have hfirst := h.data a b rfl rfl
  have hagain := h'.data a b rfl rfl
  by_cases ha : a = n
  · subst ha
    exact hagain.1.trans hfirst.2
  · by_cases hb : b = n
    · subst hb
      exact hagain.2.trans hfirst.1
    · rw [h'.otherData n (by simpa using ha) (by simpa using hb),
        h.otherData n (by simpa using ha) (by simpa using hb)]

theorem twice_address {a b : Fin 2} (h : s.Exchanged t size (.address a) (.address b))
    (h' : t.Exchanged u size (.address a) (.address b)) (n : Fin 2) :
    u.regs.a.get n = s.regs.a.get n := by
  have hfirst := h.address a b rfl rfl
  have hagain := h'.address a b rfl rfl
  by_cases ha : a = n
  · subst ha
    exact hagain.1.trans hfirst.2
  · by_cases hb : b = n
    · subst hb
      exact hagain.2.trans hfirst.1
    · rw [h'.otherAddress n (by simpa using ha) (by simpa using hb),
        h.otherAddress n (by simpa using ha) (by simpa using hb)]

theorem twice_mixed {a b : Fin 2} (h : s.Exchanged t .word (.data a) (.address b))
    (h' : t.Exchanged u .word (.data a) (.address b)) (n : Fin 2) :
    u.regs.d.get n = s.regs.d.get n ∧ u.regs.a.get n = s.regs.a.get n := by
  obtain ⟨hdata, haddress⟩ := h.mixed rfl a b (.inl ⟨rfl, rfl⟩)
  obtain ⟨hdata', haddress'⟩ := h'.mixed rfl a b (.inl ⟨rfl, rfl⟩)
  constructor
  · by_cases ha : a = n
    · subst ha
      have hword : (u.regs.d.get a).toUInt16 = (s.regs.d.get a).toUInt16 := hdata'.trans haddress
      have hlow : Size.word.trunc (u.regs.d.get a) = Size.word.trunc (s.regs.d.get a) :=
        congrArg UInt16.toBitVec hword
      exact Size.eq_of_trunc_eq hlow fun k hk => (h'.above a k hk).trans (h.above a k hk)
    · rw [h'.otherData n (by simpa using ha) nofun, h.otherData n (by simpa using ha) nofun]
  · by_cases hb : b = n
    · subst hb
      exact haddress'.trans hdata
    · rw [h'.otherAddress n nofun (by simpa using hb), h.otherAddress n nofun (by simpa using hb)]

theorem twice (h : s.Exchanged t size src dst) (h' : t.Exchanged u size src dst)
    (hsrc : ∀ a, src ≠ .memory a) (hdst : ∀ a, dst ≠ .memory a)
    (hkind : size = .word ∨ src.sameKind dst = true) :
    u = s.setFlags (s.regs.flags.setVC false false) := by
  have hflags : u.regs.flags = s.regs.flags.setVC false false := by
    rw [h'.flags, h.flags]
    rfl
  have hregs : ∀ n : Fin 2, u.regs.d.get n = s.regs.d.get n ∧ u.regs.a.get n = s.regs.a.get n := by
    intro n
    have habove : ∀ k, size.bits ≤ k → (u.regs.d.get n).toBitVec.getLsbD k =
        (s.regs.d.get n).toBitVec.getLsbD k := fun k hk => (h'.above n k hk).trans (h.above n k hk)
    cases src with
    | memory a => exact absurd rfl (hsrc a)
    | data a =>
      cases dst with
      | memory b => exact absurd rfl (hdst b)
      | data b =>
        refine ⟨Size.eq_of_trunc_eq (twice_data h h' n) habove, ?_⟩
        rw [h'.otherAddress n nofun nofun, h.otherAddress n nofun nofun]
      | address b =>
        obtain rfl : size = .word := hkind.resolve_right nofun
        exact twice_mixed h h' n
    | address a =>
      cases dst with
      | memory b => exact absurd rfl (hdst b)
      | data b =>
        obtain rfl : size = .word := hkind.resolve_right nofun
        exact twice_mixed h.symm h'.symm n
      | address b =>
        refine ⟨?_, twice_address h h' n⟩
        rw [h'.otherData n nofun nofun, h.otherData n nofun nofun]
  exact ext_registers (fun n => (hregs n).1) (fun n => (hregs n).2) (h'.pc.trans h.pc) hflags
    (h'.mem.trans h.mem) (h'.notes.trans h.notes) (h'.console.trans h.console)

end Exchanged

theorem poke_mem_of_ne {l : Location} (h : ∀ a, l ≠ .memory a) (s : Datapath κ) (size : Size)
    (x : UInt32) : (s.poke size x l).mem = s.mem := by
  cases l with
  | memory a => exact absurd rfl (h a)
  | data n => rfl
  | address n => rfl

theorem above_poke (s : Datapath κ) (x : UInt32) (l : Location) (n : Fin 2) {k : Nat}
    (hk : size.bits ≤ k) : ((s.poke size x l).regs.d.get n).toBitVec.getLsbD k =
      (s.regs.d.get n).toBitVec.getLsbD k := by
  rw [poke_d]
  split
  · rw [getLsbD_merge, if_neg (Nat.not_lt.mpr hk)]
  · rfl

/-- Both registers are read, and then both are written. -/
theorem exchanged_poke (s : Datapath κ) (size : Size) {src dst : Location}
    (hsrc : ∀ a, src ≠ .memory a) (hdst : ∀ a, dst ≠ .memory a) :
    s.Exchanged (((s.poke size (s.peek size src) dst).poke size (s.peek size dst) src).setFlags
      (s.regs.flags.setVC false false)) size src dst where
  flags := rfl
  mem := by rw [setFlags_mem, poke_mem_of_ne hsrc, poke_mem_of_ne hdst]
  pc := by simp
  notes := by simp
  console := by simp
  otherData n hs hd := by rw [setFlags_d, poke_d, if_neg hs, poke_d, if_neg hd]
  otherAddress n hs hd := by rw [setFlags_a, poke_a, if_neg hs, poke_a, if_neg hd]
  above n k hk := by rw [setFlags_d, above_poke _ _ _ _ hk, above_poke _ _ _ _ hk]
  data a b hs hd := by
    subst hs hd
    simp only [setFlags_d, poke_d, peek, if_true, trunc_merge, Size.trunc_low, true_and]
    split
    · rename_i hab
      cases hab
      rw [trunc_merge, Size.trunc_low]
    · rw [trunc_merge, Size.trunc_low]
  address a b hs hd := by
    subst hs hd
    simp only [setFlags_a, poke_a, peek, if_true, UInt16.toUInt16_toUInt32, true_and]
    split
    · rename_i hab
      cases hab
      rfl
    · rfl
  mixed hsize a b hor := by
    subst hsize
    have hlow (x : UInt32) : (Size.word.low x).toUInt16 = x.toUInt16 :=
      UInt16.toBitVec_inj.mp (Size.word.trunc_low x)
    have hmerge (old x : UInt32) :
        (old &&& ~~~Size.word.mask ||| Size.word.low x).toUInt16 = x.toUInt16 :=
      UInt16.toBitVec_inj.mp (trunc_merge .word old x)
    rcases hor with ⟨hs, hd⟩ | ⟨hs, hd⟩ <;> subst hs hd <;>
      simp [poke_d, poke_a, peek, hlow, hmerge]

/-- EXG of two registers, whatever they hold: it never faults, and exchanges them; a register with itself
stays as it is; and doing it again undoes it, at any size between registers of one kind, and at the size
of a word between one of each. V and C are clear in the end, and nothing else has changed. -/
theorem execute_exchange [Console κ] {i : Instruction} {src dst : Operand} (s : Datapath κ)
    (ho : i.opcode = .exg) (hops : i.operands = .full src dst)
    (hsrc : src.mode.isRegister = true) (hdst : dst.mode.isRegister = true) :
    ∃ t, i.execute s = .ok () t ∧ s.Exchanged t i.size src.register dst.register ∧
      (src.register = dst.register → t = s.setFlags (s.regs.flags.setVC false false)) ∧
      (i.size = .word ∨ src.register.sameKind dst.register = true →
        i.execute t = .ok () (s.setFlags (s.regs.flags.setVC false false))) := by
  have hplace (op : Operand) : ∀ a, op.register ≠ .memory a := by
    intro a
    unfold Operand.register
    split <;> nofun
  have hrun (s : Datapath κ) : ∃ t, i.execute s = .ok () t ∧
      s.Exchanged t i.size src.register dst.register := by
    refine ⟨_, ?_, s.exchanged_poke i.size (hplace src) (hplace dst)⟩
    rw [Instruction.execute, ho]
    simp only [Microprogram.exchange_run, hops, hsrc, hdst, if_true]
  obtain ⟨t, ht, hexchanged⟩ := hrun s
  obtain ⟨u, hu, hagain⟩ := hrun t
  refine ⟨t, ht, hexchanged, fun hsame => ?_, fun hkind => ?_⟩
  · rw [hsame] at hexchanged
    exact hexchanged.self
  · rw [hu, hexchanged.twice hagain (hplace src) (hplace dst) hkind]

/-- `EXG.W A1,D0` exchanges A1 and the low word of D0, and exchanges them back. -/
theorem execute_exchange_mixed :
    let s : Datapath Scripted :=
      { regs := { d := #v[0x12345678, 0], a := #v[0, 0xABCD]
                  flags := { negative := true, carry := true } }
        mem := .empty, adjusted := {}, console := { replies := [] } }
    let i : Instruction := .full .exg .word (.addr 1) (.data 0)
    (Operand.addr 1).mode.isRegister = true ∧ (Operand.data 0).mode.isRegister = true ∧
      ∃ t, i.execute s = .ok () t ∧ t.regs.d.get 0 = 0x1234ABCD ∧ t.regs.a.get 1 = 0x5678 ∧
        i.execute t = .ok () (s.setFlags { negative := true }) := by
  intro s i
  have ho : i.opcode = .exg := rfl
  have hops : i.operands = .full (.addr 1) (.data 0) := rfl
  obtain ⟨t, ht, hexchanged, -, hback⟩ := execute_exchange s ho hops rfl rfl
  obtain ⟨-, haddress⟩ := hexchanged.mixed rfl 0 1 (.inr ⟨rfl, rfl⟩)
  refine ⟨rfl, rfl, t, ht, ?_, haddress.trans (by decide), hback (.inl rfl)⟩
  obtain ⟨-, rfl⟩ := EStateM.Result.ok.inj (ht.symm.trans rfl)
  decide +kernel

end Datapath
end Micro68
