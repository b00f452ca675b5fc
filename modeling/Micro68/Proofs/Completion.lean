import Micro68.Proofs.Accesses

/-! What a micro-program that ends without a fault has done: it has found its operands inside memory,
computed a result with its status bits, and put the result where an operand was found. -/
namespace Micro68

namespace Microprogram

variable {κ : Type} {s t : Datapath κ} {i : Instruction}

theorem combine_ok (hs : s.adjusted = {}) {op : AluOp} (h : combine op i s = .ok () t) :
    ∃ l₁ l₂ x flags, i.reach .first i.size s.regs.a = .ok l₁ ∧
      i.reach .second i.size (s.settle i .first i.size).regs.a = .ok l₂ ∧
      op i.size ((s.settle i .first i.size).peek i.size l₁)
        ((s.settleBoth i i.size i.size).peek i.size l₂) s.regs.flags = (x, flags) ∧
      t = ((s.settleBoth i i.size i.size).setFlags flags).poke i.size x l₂ := by
  rw [combine_run hs] at h
  split at h
  · cases h
  · rename_i l₁ hl₁
    split at h
    · cases h
    · rename_i l₂ hl₂
      cases h
      exact ⟨l₁, l₂, _, _, hl₁, hl₂, rfl, rfl⟩

theorem combineQuick_ok (hs : s.adjusted = {}) {op : AluOp} (h : combineQuick op i s = .ok () t) :
    ∃ l x flags, i.reach .second i.size s.regs.a = .ok l ∧
      op i.size i.data.toUInt32 ((s.settle i .second i.size).peek i.size l) s.regs.flags =
        (x, flags) ∧
      t = ((s.settle i .second i.size).setFlags flags).poke i.size x l := by
  rw [combineQuick_run hs] at h
  split at h
  · cases h
  · rename_i l hl
    cases h
    exact ⟨l, _, _, hl, rfl, rfl⟩

theorem change_ok (hs : s.adjusted = {}) {op : Size → UInt32 → Flags → UInt32 × Flags}
    (h : change op i s = .ok () t) :
    ∃ l x flags, i.reach .first i.size s.regs.a = .ok l ∧
      op i.size ((s.settle i .first i.size).peek i.size l) s.regs.flags = (x, flags) ∧
      t = ((s.settle i .first i.size).setFlags flags).poke i.size x l := by
  rw [change_run hs] at h
  split at h
  · cases h
  · rename_i l hl
    cases h
    exact ⟨l, _, _, hl, rfl, rfl⟩

theorem compare_ok (hs : s.adjusted = {}) {op : AluOp} (h : compare op i s = .ok () t) :
    ∃ l₁ l₂ x flags, i.reach .first i.size s.regs.a = .ok l₁ ∧
      i.reach .second i.size (s.settle i .first i.size).regs.a = .ok l₂ ∧
      op i.size ((s.settle i .first i.size).peek i.size l₁)
        ((s.settleBoth i i.size i.size).peek i.size l₂) s.regs.flags = (x, flags) ∧
      t = (s.settleBoth i i.size i.size).setFlags flags := by
  rw [compare_run hs] at h
  split at h
  · cases h
  · rename_i l₁ hl₁
    split at h
    · cases h
    · rename_i l₂ hl₂
      cases h
      exact ⟨l₁, l₂, _, _, hl₁, hl₂, rfl, rfl⟩

theorem test_ok (hs : s.adjusted = {}) (h : test i s = .ok () t) :
    ∃ l x flags, i.reach .first i.size s.regs.a = .ok l ∧
      Alu.logic i.size ((s.settle i .first i.size).peek i.size l) s.regs.flags = (x, flags) ∧
      t = (s.settle i .first i.size).setFlags flags := by
  rw [test_run hs] at h
  split at h
  · cases h
  · rename_i l hl
    cases h
    exact ⟨l, _, _, hl, rfl, rfl⟩

theorem clear_ok (hs : s.adjusted = {}) (h : clear i s = .ok () t) :
    ∃ l x flags, i.reach .first i.size s.regs.a = .ok l ∧
      Alu.logic i.size 0 s.regs.flags = (x, flags) ∧
      t = ((s.settle i .first i.size).setFlags flags).poke i.size x l := by
  rw [clear_run hs] at h
  dsimp only at h
  split at h
  · cases h
  · rename_i l hl
    cases h
    exact ⟨l, _, _, hl, rfl, rfl⟩

theorem moveQuick_ok (hs : s.adjusted = {}) (h : moveQuick i s = .ok () t) :
    ∃ l x flags, i.reach .second i.size s.regs.a = .ok l ∧
      Alu.logic i.size i.data.toUInt32 s.regs.flags = (x, flags) ∧
      t = ((s.settle i .second i.size).setFlags flags).poke i.size x l := by
  rw [moveQuick_run hs] at h
  dsimp only at h
  split at h
  · cases h
  · rename_i l hl
    cases h
    exact ⟨l, _, _, hl, rfl, rfl⟩

theorem move_ok (hs : s.adjusted = {}) (h : move i s = .ok () t) :
    ∃ l₁ l₂, i.reach .first i.size s.regs.a = .ok l₁ ∧
      i.reach .second i.size (s.settle i .first i.size).regs.a = .ok l₂ ∧
      t = (s.settleBoth i i.size i.size).poke i.size
        ((s.settle i .first i.size).peek i.size l₁) l₂ := by
  rw [move_run hs] at h
  split at h
  · cases h
  · rename_i l₁ hl₁
    split at h
    · cases h
    · rename_i l₂ hl₂
      cases h
      exact ⟨l₁, l₂, hl₁, hl₂, rfl⟩

theorem multiply_ok (hs : s.adjusted = {}) (h : multiply i s = .ok () t) :
    ∃ l₁ l₂ x flags, i.size = .word ∧ i.reach .first .word s.regs.a = .ok l₁ ∧
      i.reach .second .word (s.settle i .first .word).regs.a = .ok l₂ ∧
      l₂.fault? .long = none ∧
      Alu.logic .word (Alu.product ((s.settle i .first .word).peek .word l₁)
        ((s.settleBoth i .word .word).peek .word l₂)) s.regs.flags = (x, flags) ∧
      t = ((s.settleBoth i .word .word).setFlags flags).poke .long x l₂ := by
  rw [multiply_run hs] at h
  split at h
  · rename_i hw
    split at h
    · cases h
    · rename_i l₁ hl₁
      split at h
      · cases h
      · rename_i l₂ hl₂
        dsimp only at h
        split at h
        · rename_i hf
          cases h
          exact ⟨l₁, l₂, _, _, hw, hl₁, hl₂, hf, rfl, rfl⟩
        · cases h
  · cases h

theorem divide_ok (hs : s.adjusted = {}) (h : divide i s = .ok () t) :
    ∃ l₁ l₂ q x flags, i.size = .long ∧ i.reach .first .word s.regs.a = .ok l₁ ∧
      i.reach .second .long (s.settle i .first .word).regs.a = .ok l₂ ∧
      Alu.signExtendWord ((s.settle i .first .word).peek .word l₁) ≠ 0 ∧
      Alu.divide (Alu.signExtendWord ((s.settle i .first .word).peek .word l₁))
        ((s.settleBoth i .word .long).peek .long l₂).toInt32 = q ∧
      Alu.packQuotient q.1 q.2 s.regs.flags = (x, flags) ∧
      t = ((s.settleBoth i .word .long).setFlags flags).poke .long x l₂ := by
  rw [divide_run hs] at h
  split at h
  · rename_i hw
    split at h
    · cases h
    · rename_i l₁ hl₁
      dsimp only at h
      split at h
      · cases h
      · rename_i hd
        split at h
        · cases h
        · rename_i l₂ hl₂
          cases h
          exact ⟨l₁, l₂, _, _, _, hw, hl₁, hl₂, hd, rfl, rfl, rfl⟩
  · cases h

theorem exchange_ok (h : exchange i s = .ok () t) :
    ∃ src dst, i.operands = .full src dst ∧ src.mode.isRegister ∧ dst.mode.isRegister ∧
      t = ((s.poke i.size (s.peek i.size src.register) dst.register).poke i.size
        (s.peek i.size dst.register) src.register).setFlags (s.regs.flags.setVC false false) := by
  rw [exchange_run] at h
  split at h
  · cases h
  · rename_i src dst hops
    split at h
    · rename_i hsrc
      split at h
      · rename_i hdst
        cases h
        exact ⟨src, dst, hops, hsrc, hdst, rfl⟩
      · cases h
    · cases h

theorem moveAddress_ok (h : moveAddress i s = .ok () t) :
    ∃ src dst, i.operands = .full src dst ∧ src.mode = .absolute ∧ dst.mode = .addressRegister ∧
      i.size = .word ∧ t = s.poke .word src.address.toUInt32 (.address dst.index) := by
  rw [moveAddress_run] at h
  split at h
  · cases h
  · rename_i src dst hops
    split at h
    · rename_i hsrc
      split at h
      · rename_i hdst
        split at h
        · rename_i hw
          cases h
          exact ⟨src, dst, hops, hsrc, hdst, hw, rfl⟩
        · cases h
      · cases h
    · cases h

theorem branch_ok (h : branch i s = .ok () t) :
    ∃ target, i.operand? .first = some target ∧ target.mode = .absolute ∧ i.size = .word ∧
      t = if taken i.opcode s.regs.flags then s.jump target.address else s := by
  rw [branch_run] at h
  split at h
  · cases h
  · rename_i target hop
    split at h
    · rename_i hm
      split at h
      · rename_i hw
        cases h
        refine ⟨target, hop, hm, hw, ?_⟩
        cases taken i.opcode s.regs.flags <;> rfl
      · cases h
    · cases h

variable [Console κ]

theorem input_ok (hs : s.adjusted = {}) (h : input i s = .ok () t) :
    ∃ op l x console y flags, i.operand? .first = some op ∧ op.place i.size s.regs.a = some l ∧
      l.fault? i.size = none ∧
      Console.readValue s.console { size := i.size, target := l } = (.ok x, console) ∧
      Alu.logic i.size x.toUInt32 s.regs.flags = (y, flags) ∧
      t = ((({ s with console } : Datapath κ).settle i .first i.size).setFlags flags).poke
        i.size y l := by
  rw [input_run hs] at h
  split at h
  · cases h
  · rename_i op hop
    split at h
    · cases h
    · rename_i l hl
      dsimp only at h
      split at h
      · cases h
      · rename_i x hx
        split at h
        · cases h
        · rename_i hf
          cases h
          exact ⟨op, l, x, _, _, _, hop, hl, hf, Prod.ext hx rfl, rfl, rfl⟩

theorem display_ok (hs : s.adjusted = {}) (h : display i s = .ok () t) :
    ∃ l, i.reach .first i.size s.regs.a = .ok l ∧
      t = { s.settle i .first i.size with
        console := Console.writeLine s.console
          (displayLine l i.size ((s.settle i .first i.size).peek i.size l)) } := by
  rw [display_run hs] at h
  split at h
  · cases h
  · rename_i l hl
    cases h
    exact ⟨l, hl, rfl⟩

end Microprogram

namespace Opcode

/-- Operations that may move the program counter. -/
def isBranch : Opcode → Bool
  | bra | bvs | beq | bcs | bge | ble => true
  | _ => false

end Opcode

open Microprogram in
theorem execute_pc {κ : Type} [Console κ] {s t : Datapath κ} {i : Instruction}
    (hs : s.adjusted = {}) (h : i.execute s = .ok () t)
    (hb : (i.opcode.isBranch && taken i.opcode s.regs.flags) = false) : t.regs.pc = s.regs.pc := by
  unfold Instruction.execute at h
  cases ho : i.opcode <;> simp only [ho] at h hb
  case add | sub | and | or | eor =>
    obtain ⟨-, l, x, flags, -, -, -, rfl⟩ := combine_ok hs h
    simp [Datapath.settleBoth]
  case addq | subq | lsl | lsr | rol | ror =>
    obtain ⟨l, x, flags, -, -, rfl⟩ := combineQuick_ok hs h
    simp
  case neg | not =>
    obtain ⟨l, x, flags, -, -, rfl⟩ := change_ok hs h
    simp
  case clr =>
    obtain ⟨l, x, flags, -, -, rfl⟩ := clear_ok hs h
    simp
  case moveq =>
    obtain ⟨l, x, flags, -, -, rfl⟩ := moveQuick_ok hs h
    simp
  case move =>
    obtain ⟨-, l, -, -, rfl⟩ := move_ok hs h
    simp [Datapath.settleBoth]
  case muls =>
    obtain ⟨-, l, x, flags, -, -, -, -, -, rfl⟩ := multiply_ok hs h
    simp [Datapath.settleBoth]
  case divs =>
    obtain ⟨-, l, q, x, flags, -, -, -, -, -, -, rfl⟩ := divide_ok hs h
    simp [Datapath.settleBoth]
  case cmp =>
    obtain ⟨-, -, x, flags, -, -, -, rfl⟩ := compare_ok hs h
    simp [Datapath.settleBoth]
  case tst =>
    obtain ⟨-, x, flags, -, -, rfl⟩ := test_ok hs h
    simp
  case bra | bvs | beq | bcs | bge | ble =>
    obtain ⟨target, -, -, -, rfl⟩ := branch_ok h
    have hnot : taken i.opcode s.regs.flags = false := by simpa [ho, Opcode.isBranch] using hb
    rw [if_neg (by simp [hnot])]
  case exg =>
    obtain ⟨src, dst, -, -, -, rfl⟩ := exchange_ok h
    simp
  case movea =>
    obtain ⟨src, dst, -, -, -, -, rfl⟩ := moveAddress_ok h
    simp
  case inp =>
    obtain ⟨op, l, x, console, y, flags, -, -, -, -, -, rfl⟩ := input_ok hs h
    simp
  case dsp =>
    obtain ⟨l, -, rfl⟩ := display_ok hs h
    simp
  case dsr | hlt =>
    cases h
    rfl

end Micro68
