import Micro68.Proofs.OperandAccess

/-! What the micro-programs do, each as a whole. -/
namespace Micro68

namespace Datapath

variable {κ : Type}

def settleAll (s : Datapath κ) (i : Instruction) (accesses : List (Slot × Size)) : Datapath κ :=
  accesses.foldl (fun s access => s.settle i access.1 access.2) s

def settleBoth (s : Datapath κ) (i : Instruction) (m n : Size) : Datapath κ :=
  (s.settle i .first m).settle i .second n

end Datapath

namespace Microprogram

variable {κ β : Type} {s t : Datapath κ} {i : Instruction} {f : Fault}

theorem fillBoth_run (hs : s.adjusted = {}) (m n : Size) (g : UInt32 → UInt32 → Micro κ β) :
    (fill i .first m >>= fun x => fill i .second n >>= fun y => g x y) s =
      match i.reach .first m s.regs.a with
      | .error f => .error f (s.settle i .first m)
      | .ok l₁ => match i.reach .second n (s.settle i .first m).regs.a with
        | .error f => .error f (s.settleBoth i m n)
        | .ok l₂ => g ((s.settle i .first m).peek m l₁) ((s.settleBoth i m n).peek n l₂)
            (s.settleBoth i m n) := by
  have h₁ : s.adjusted.get .first = none := by simp [hs]
  have h₂ : (s.settle i .first m).adjusted.get .second = none := by
    rw [Datapath.settle_get_of_ne _ _ _ _ (by decide)]
    simp [hs]
  rw [Micro.bind_run, fill_run h₁]
  cases i.reach .first m s.regs.a with
  | error f => rfl
  | ok l₁ =>
    simp only [Micro.bind_run, fill_run h₂]
    cases i.reach .second n (s.settle i .first m).regs.a <;> rfl

/-- A computed value goes back where the operand was read; at another size it may not fit. -/
theorem storeBack_run {slot : Slot} {size : Size} {l : Location}
    (hl : i.reach slot size s.regs.a = .ok l) (wide : Size) (g : Flags → UInt32 × Flags) :
    (Micro.compute g >>= fun x => store i slot wide x) (s.settle i slot size) =
      match l.fault? wide with
      | none => .ok () (((s.settle i slot size).setFlags (g s.regs.flags).2).poke wide
          (g s.regs.flags).1 l)
      | some f => .error f ((s.settle i slot size).setFlags (g s.regs.flags).2) := by
  have hc : Micro.compute g (s.settle i slot size) = .ok (g s.regs.flags).1
      ((s.settle i slot size).setFlags (g s.regs.flags).2) := by
    simp [Micro.compute, Datapath.setFlags]
  rw [Micro.bind_of_ok hc]
  exact restore_run (t := (s.settle i slot size).setFlags (g s.regs.flags).2) hl rfl rfl wide _

theorem reach_fault?_eq_none {slot : Slot} {size : Size} {a : Vector UInt16 2} {l : Location}
    (hl : i.reach slot size a = .ok l) : l.fault? size = none := by
  obtain ⟨op, -, -, h⟩ := Instruction.reach_eq_ok.mp hl
  exact h

theorem combine_run (hs : s.adjusted = {}) (op : AluOp) : combine op i s =
    match i.reach .first i.size s.regs.a with
    | .error f => .error f (s.settle i .first i.size)
    | .ok l₁ => match i.reach .second i.size (s.settle i .first i.size).regs.a with
      | .error f => .error f (s.settleBoth i i.size i.size)
      | .ok l₂ =>
        let r := op i.size ((s.settle i .first i.size).peek i.size l₁)
          ((s.settleBoth i i.size i.size).peek i.size l₂) s.regs.flags
        .ok () (((s.settleBoth i i.size i.size).setFlags r.2).poke i.size r.1 l₂) := by
  unfold combine
  rw [fillBoth_run hs]
  cases i.reach .first i.size s.regs.a with
  | error f => rfl
  | ok l₁ =>
    cases hl : i.reach .second i.size (s.settle i .first i.size).regs.a with
    | error f => rfl
    | ok l₂ =>
      simp only [Datapath.settleBoth, storeBack_run hl, reach_fault?_eq_none hl, Datapath.settle_flags]

theorem fillStore_run (hs : s.adjusted = {}) (slot : Slot) (size : Size)
    (g : UInt32 → Flags → UInt32 × Flags) :
    (fill i slot size >>= fun x => Micro.compute (g x) >>= fun y => store i slot size y) s =
      match i.reach slot size s.regs.a with
      | .error f => .error f (s.settle i slot size)
      | .ok l =>
        let r := g ((s.settle i slot size).peek size l) s.regs.flags
        .ok () (((s.settle i slot size).setFlags r.2).poke size r.1 l) := by
  have h : s.adjusted.get slot = none := by simp [hs]
  rw [Micro.bind_run, fill_run h]
  cases hl : i.reach slot size s.regs.a with
  | error f => rfl
  | ok l => simp only [storeBack_run hl, reach_fault?_eq_none hl]

theorem computeStore_run (hs : s.adjusted = {}) (slot : Slot) (size : Size)
    (g : Flags → UInt32 × Flags) :
    (Micro.compute g >>= fun x => store i slot size x) s =
      let r := g s.regs.flags
      match i.reach slot size s.regs.a with
      | .error f => .error f ((s.settle i slot size).setFlags r.2)
      | .ok l => .ok () (((s.settle i slot size).setFlags r.2).poke size r.1 l) := by
  have hc : Micro.compute g s = .ok (g s.regs.flags).1 (s.setFlags (g s.regs.flags).2) := rfl
  have h : (s.setFlags (g s.regs.flags).2).adjusted.get slot = none := by simp [hs]
  rw [Micro.bind_of_ok hc, store_run h]
  simp only [Datapath.settle_setFlags, Datapath.setFlags_a]
  cases i.reach slot size s.regs.a <;> rfl

theorem combineQuick_run (hs : s.adjusted = {}) (op : AluOp) : combineQuick op i s =
    match i.reach .second i.size s.regs.a with
    | .error f => .error f (s.settle i .second i.size)
    | .ok l =>
      let r := op i.size i.data.toUInt32 ((s.settle i .second i.size).peek i.size l) s.regs.flags
      .ok () (((s.settle i .second i.size).setFlags r.2).poke i.size r.1 l) :=
  fillStore_run hs .second i.size (op i.size i.data.toUInt32)

theorem change_run (hs : s.adjusted = {}) (op : Size → UInt32 → Flags → UInt32 × Flags) :
    change op i s =
      match i.reach .first i.size s.regs.a with
      | .error f => .error f (s.settle i .first i.size)
      | .ok l =>
        let r := op i.size ((s.settle i .first i.size).peek i.size l) s.regs.flags
        .ok () (((s.settle i .first i.size).setFlags r.2).poke i.size r.1 l) :=
  fillStore_run hs .first i.size (op i.size)

theorem compare_run (hs : s.adjusted = {}) (op : AluOp) : compare op i s =
    match i.reach .first i.size s.regs.a with
    | .error f => .error f (s.settle i .first i.size)
    | .ok l₁ => match i.reach .second i.size (s.settle i .first i.size).regs.a with
      | .error f => .error f (s.settleBoth i i.size i.size)
      | .ok l₂ =>
        let r := op i.size ((s.settle i .first i.size).peek i.size l₁)
          ((s.settleBoth i i.size i.size).peek i.size l₂) s.regs.flags
        .ok () ((s.settleBoth i i.size i.size).setFlags r.2) := by
  unfold compare
  rw [fillBoth_run hs]
  cases i.reach .first i.size s.regs.a with
  | error f => rfl
  | ok l₁ =>
    cases i.reach .second i.size (s.settle i .first i.size).regs.a with
    | error f => rfl
    | ok l₂ =>
      simp only [Micro.discard_run, Micro.compute, Datapath.settleBoth, Datapath.settle_flags]
      rfl

theorem test_run (hs : s.adjusted = {}) : test i s =
    match i.reach .first i.size s.regs.a with
    | .error f => .error f (s.settle i .first i.size)
    | .ok l =>
      let r := Alu.logic i.size ((s.settle i .first i.size).peek i.size l) s.regs.flags
      .ok () ((s.settle i .first i.size).setFlags r.2) := by
  have h : s.adjusted.get .first = none := by simp [hs]
  unfold test
  rw [Micro.bind_run, fill_run h]
  cases i.reach .first i.size s.regs.a with
  | error f => rfl
  | ok l =>
    simp only [Micro.discard_run, Micro.compute, Datapath.settle_flags]
    rfl

theorem clear_run (hs : s.adjusted = {}) : clear i s =
    let r := Alu.logic i.size 0 s.regs.flags
    match i.reach .first i.size s.regs.a with
    | .error f => .error f ((s.settle i .first i.size).setFlags r.2)
    | .ok l => .ok () (((s.settle i .first i.size).setFlags r.2).poke i.size r.1 l) :=
  computeStore_run hs .first i.size _

theorem moveQuick_run (hs : s.adjusted = {}) : moveQuick i s =
    let r := Alu.logic i.size i.data.toUInt32 s.regs.flags
    match i.reach .second i.size s.regs.a with
    | .error f => .error f ((s.settle i .second i.size).setFlags r.2)
    | .ok l => .ok () (((s.settle i .second i.size).setFlags r.2).poke i.size r.1 l) :=
  computeStore_run hs .second i.size _

theorem move_run (hs : s.adjusted = {}) : move i s =
    match i.reach .first i.size s.regs.a with
    | .error f => .error f (s.settle i .first i.size)
    | .ok l₁ => match i.reach .second i.size (s.settle i .first i.size).regs.a with
      | .error f => .error f (s.settleBoth i i.size i.size)
      | .ok l₂ => .ok () ((s.settleBoth i i.size i.size).poke i.size
          ((s.settle i .first i.size).peek i.size l₁) l₂) := by
  have h₁ : s.adjusted.get .first = none := by simp [hs]
  have h₂ : (s.settle i .first i.size).adjusted.get .second = none := by
    rw [Datapath.settle_get_of_ne _ _ _ _ (by decide)]
    simp [hs]
  unfold move
  rw [Micro.bind_run, fill_run h₁]
  cases i.reach .first i.size s.regs.a with
  | error f => rfl
  | ok l₁ =>
    simp only [store_run h₂]
    cases i.reach .second i.size (s.settle i .first i.size).regs.a <;> rfl

theorem requireSize_run (size : Size) (s : Datapath κ) :
    requireSize i size s =
      if i.size = size then .ok () s else .error (.invalidSize i.size.code) s := by
  unfold requireSize
  split <;> rfl

theorem requireMode_run (op : Operand) (allowed : Mode → Bool) (s : Datapath κ) :
    requireMode op allowed s =
      if allowed op.mode then .ok () s else .error (.invalidMode op.mode.code) s := by
  unfold requireMode
  split <;> rfl

/-- The store is wider than the read before it, so it may fail after the status bits were set. -/
theorem multiply_run (hs : s.adjusted = {}) : multiply i s =
    if i.size = .word then
      match i.reach .first .word s.regs.a with
      | .error f => .error f (s.settle i .first .word)
      | .ok l₁ => match i.reach .second .word (s.settle i .first .word).regs.a with
        | .error f => .error f (s.settleBoth i .word .word)
        | .ok l₂ =>
          let r := Alu.logic .word (Alu.product ((s.settle i .first .word).peek .word l₁)
            ((s.settleBoth i .word .word).peek .word l₂)) s.regs.flags
          match l₂.fault? .long with
          | none => .ok () (((s.settleBoth i .word .word).setFlags r.2).poke .long r.1 l₂)
          | some f => .error f ((s.settleBoth i .word .word).setFlags r.2)
    else .error (.invalidSize i.size.code) s := by
  unfold multiply
  rw [Micro.bind_run, requireSize_run]
  by_cases hw : i.size = .word
  · simp only [if_pos hw, fillBoth_run hs]
    cases i.reach .first .word s.regs.a with
    | error f => rfl
    | ok l₁ =>
      cases hl : i.reach .second .word (s.settle i .first .word).regs.a with
      | error f => rfl
      | ok l₂ =>
        simp only [Datapath.settleBoth, storeBack_run hl, Datapath.settle_flags]
  · simp only [if_neg hw]

theorem divide_run (hs : s.adjusted = {}) : divide i s =
    if i.size = .long then
      match i.reach .first .word s.regs.a with
      | .error f => .error f (s.settle i .first .word)
      | .ok l₁ =>
        let divisor := Alu.signExtendWord ((s.settle i .first .word).peek .word l₁)
        if divisor = 0 then .error .divisionByZero (s.settle i .first .word) else
        match i.reach .second .long (s.settle i .first .word).regs.a with
        | .error f => .error f (s.settleBoth i .word .long)
        | .ok l₂ =>
          let q := Alu.divide divisor ((s.settleBoth i .word .long).peek .long l₂).toInt32
          let r := Alu.packQuotient q.1 q.2 s.regs.flags
          .ok () (((s.settleBoth i .word .long).setFlags r.2).poke .long r.1 l₂)
    else .error (.invalidSize i.size.code) s := by
  have h₁ : s.adjusted.get .first = none := by simp [hs]
  have h₂ : (s.settle i .first .word).adjusted.get .second = none := by
    rw [Datapath.settle_get_of_ne _ _ _ _ (by decide)]
    simp [hs]
  unfold divide
  rw [Micro.bind_run, requireSize_run]
  by_cases hw : i.size = .long
  · simp only [if_pos hw, Micro.bind_run (fill i .first .word), fill_run h₁]
    cases i.reach .first .word s.regs.a with
    | error f => rfl
    | ok l₁ =>
      dsimp only
      by_cases hd : Alu.signExtendWord ((s.settle i .first .word).peek .word l₁) = 0
      · simp only [if_pos hd]
        rfl
      · simp only [if_neg hd, Micro.bind_run (fill i .second .long), fill_run h₂]
        cases hl : i.reach .second .long (s.settle i .first .word).regs.a with
        | error f => rfl
        | ok l₂ =>
          simp only [Datapath.settleBoth, storeBack_run hl, reach_fault?_eq_none hl,
            Datapath.settle_flags]
  · simp only [if_neg hw]

theorem exchange_run (i : Instruction) (s : Datapath κ) : exchange i s =
    match i.operands with
    | .quick _ _ => .error (.invalidOperandCount i.operandCount) s
    | .full src dst =>
      if src.mode.isRegister then
        if dst.mode.isRegister then
          .ok () (((s.poke i.size (s.peek i.size src.register) dst.register).poke i.size
            (s.peek i.size dst.register) src.register).setFlags (s.regs.flags.setVC false false))
        else .error (.invalidMode dst.mode.code) s
      else .error (.invalidMode src.mode.code) s := by
  unfold exchange fill store
  simp only [Micro.bind_run, operand_run, requireMode_run, Instruction.operand?]
  cases i.operands with
  | quick data dst => rfl
  | full src dst =>
    by_cases hs : src.mode.isRegister
    · by_cases hd : dst.mode.isRegister
      · simp only [hs, hd, if_true, Micro.fill, Micro.store, Micro.bind_run,
          Micro.locate_register hs, Micro.locate_register hd, Micro.load_run, Micro.save_run,
          Operand.fault?_register, Micro.modifyRegs_run, Datapath.poke_flags]
        rfl
      · simp [hs, hd]
    · simp [hs]

theorem moveAddress_run (i : Instruction) (s : Datapath κ) : moveAddress i s =
    match i.operands with
    | .quick _ _ => .error (.invalidOperandCount i.operandCount) s
    | .full src dst =>
      if src.mode = .absolute then
        if dst.mode = .addressRegister then
          if i.size = .word then
            .ok () (s.poke .word src.address.toUInt32 (.address dst.index))
          else .error (.invalidSize i.size.code) s
        else .error (.invalidMode dst.mode.code) s
      else .error (.invalidMode src.mode.code) s := by
  unfold moveAddress store
  simp only [Micro.bind_run, operand_run, requireMode_run, requireSize_run, Instruction.operand?,
    decide_eq_true_eq]
  cases i.operands with
  | quick data dst => rfl
  | full src dst =>
    by_cases hs : src.mode = .absolute
    · by_cases hd : dst.mode = .addressRegister
      · by_cases hw : i.size = .word
        · simp [hs, hd, hw, Micro.store, Micro.bind_run, Micro.locate, Micro.save_run,
            Location.fault?]
        · simp [hs, hd, hw]
      · simp [hs, hd]
    · simp [hs]

theorem branch_run (i : Instruction) (s : Datapath κ) : branch i s =
    match i.operand? .first with
    | none => .error (.invalidOperandCount i.operandCount) s
    | some target =>
      if target.mode = .absolute then
        if i.size = .word then
          .ok () { s with
            regs := if taken i.opcode s.regs.flags then s.regs.jump target.address else s.regs }
        else .error (.invalidSize i.size.code) s
      else .error (.invalidMode target.mode.code) s := by
  unfold branch
  rw [Micro.bind_run, operand_run]
  cases i.operand? .first with
  | none => rfl
  | some target =>
    simp only [Micro.bind_run, requireMode_run, requireSize_run, decide_eq_true_eq]
    by_cases hm : target.mode = .absolute
    · by_cases hw : i.size = .word
      · cases ht : taken i.opcode s.regs.flags with
        | false => simp [hm, hw, ht]
        | true =>
          simp [hm, hw, ht]
          rfl
      · simp [hm, hw]
    · simp [hm]

theorem preview_run (op : Operand) (size : Size) (s : Datapath κ) :
    preview op size s = match op.place size s.regs.a with
      | some l => .ok l s
      | none => .error (.invalidMode op.mode.code) s := by
  unfold preview Operand.place
  cases hm : op.mode <;> simp [Micro.bind_run, Mode.code]

theorem review_run {slot : Slot} {op : Operand} {size : Size} {l : Location}
    (hl : op.place size s.regs.a = some l) :
    review slot op (s.settleOperand slot op size) = .ok l (s.settleOperand slot op size) := by
  unfold Operand.place at hl
  unfold review Datapath.settleOperand
  cases hm : op.mode <;> simp only [hm] at hl <;> cases hl <;> simp [Micro.bind_run]

section Dialogue

variable [Console κ]

/-- The reply is taken before the operand is looked for. -/
theorem input_run (hs : s.adjusted = {}) : input i s =
    match i.operand? .first with
    | none => .error (.invalidOperandCount i.operandCount) s
    | some op => match op.place i.size s.regs.a with
      | none => .error (.invalidMode op.mode.code) s
      | some l =>
        let answer := Console.readValue s.console { size := i.size, target := l }
        let u := { s with console := answer.2 }
        match answer.1 with
        | .error e => .error (.inputUnavailable e.message) u
        | .ok x =>
          let r := Alu.logic i.size x.toUInt32 s.regs.flags
          match l.fault? i.size with
          | some f => .error f ((u.settle i .first i.size).setFlags r.2)
          | none => .ok () (((u.settle i .first i.size).setFlags r.2).poke i.size r.1 l) := by
  unfold input
  rw [Micro.bind_run, operand_run]
  cases hop : i.operand? .first with
  | none => rfl
  | some op =>
    simp only [Micro.bind_run (preview _ _), preview_run]
    cases hl : op.place i.size s.regs.a with
    | none => rfl
    | some l =>
      simp only [Micro.bind_run (Micro.readValue _), Micro.readValue]
      rcases Console.readValue s.console { size := i.size, target := l } with ⟨e | x, c⟩
      · rfl
      · have hu : ({ s with console := c } : Datapath κ).adjusted = {} := hs
        simp only [computeStore_run hu, Instruction.reach, hop, hl]
        cases l.fault? i.size <;> rfl

theorem display_run (hs : s.adjusted = {}) : display i s =
    match i.reach .first i.size s.regs.a with
    | .error f => .error f (s.settle i .first i.size)
    | .ok l =>
      let u := s.settle i .first i.size
      .ok () { u with
        console := Console.writeLine s.console (displayLine l i.size (u.peek i.size l)) } := by
  have h : s.adjusted.get .first = none := by simp [hs]
  unfold display
  rw [Micro.bind_run, operand_run]
  cases hop : i.operand? .first with
  | none => simp [Instruction.reach, Datapath.settle, hop]
  | some op =>
    simp only [Micro.bind_run (fill i .first i.size), fill_run h]
    cases hl : i.reach .first i.size s.regs.a with
    | error f => rfl
    | ok l =>
      obtain ⟨op', hop', hp, -⟩ := Instruction.reach_eq_ok.mp hl
      cases hop.symm.trans hop'
      simp only [Micro.bind_run, Datapath.settle, hop, review_run hp, Micro.writeLine_run,
        Datapath.settleOperand_console]

end Dialogue

end Microprogram
end Micro68
