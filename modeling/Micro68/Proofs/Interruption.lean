import Micro68.Proofs.Accesses

/-! What a micro-program that ends in a fault has done: it has looked for some of its operands, which
moves pointers, and nothing else, apart from status bits that are set before a store and a value that
was asked for. -/
namespace Micro68

namespace Opcode

/-- Operations that set the status bits before a store that can still fail. -/
def flagsFirst : Opcode → Bool
  | clr | moveq | inp | muls => true
  | _ => false

end Opcode

namespace Datapath

variable {κ : Type} {s t : Datapath κ} {i : Instruction} {f : Fault}

/-- Some operands have been looked for, in their order, and nothing else has happened. -/
def SettledIn (s : Datapath κ) (i : Instruction) (accesses : List (Slot × Size))
    (t : Datapath κ) : Prop :=
  ∃ done, done <+: accesses ∧ t = s.settleAll i done

theorem settledIn_none (accesses : List (Slot × Size)) : s.SettledIn i accesses s :=
  ⟨[], List.nil_prefix, rfl⟩

theorem settledIn_first (slot : Slot) (size : Size) (accesses : List (Slot × Size)) :
    s.SettledIn i ((slot, size) :: accesses) (s.settle i slot size) :=
  ⟨[(slot, size)], ⟨accesses, rfl⟩, rfl⟩

theorem settledIn_both (m n : Size) :
    s.SettledIn i [(.first, m), (.second, n)] (s.settleBoth i m n) :=
  ⟨_, List.prefix_rfl, rfl⟩

end Datapath

namespace Microprogram

open Datapath

variable {κ : Type} {s t : Datapath κ} {i : Instruction} {f : Fault}

theorem combine_error (hs : s.adjusted = {}) {op : AluOp} (h : combine op i s = .error f t) :
    s.SettledIn i [(.first, i.size), (.second, i.size)] t := by
  rw [combine_run hs] at h
  split at h
  · cases h
    exact settledIn_first ..
  · split at h <;> cases h
    exact settledIn_both ..

theorem combineQuick_error (hs : s.adjusted = {}) {op : AluOp}
    (h : combineQuick op i s = .error f t) : s.SettledIn i [(.second, i.size)] t := by
  rw [combineQuick_run hs] at h
  split at h <;> cases h
  exact settledIn_first ..

theorem change_error (hs : s.adjusted = {}) {op : Size → UInt32 → Flags → UInt32 × Flags}
    (h : change op i s = .error f t) : s.SettledIn i [(.first, i.size)] t := by
  rw [change_run hs] at h
  split at h <;> cases h
  exact settledIn_first ..

theorem compare_error (hs : s.adjusted = {}) {op : AluOp} (h : compare op i s = .error f t) :
    s.SettledIn i [(.first, i.size), (.second, i.size)] t := by
  rw [compare_run hs] at h
  split at h
  · cases h
    exact settledIn_first ..
  · split at h <;> cases h
    exact settledIn_both ..

theorem test_error (hs : s.adjusted = {}) (h : test i s = .error f t) :
    s.SettledIn i [(.first, i.size)] t := by
  rw [test_run hs] at h
  split at h <;> cases h
  exact settledIn_first ..

theorem clear_error (hs : s.adjusted = {}) (h : clear i s = .error f t) :
    ∃ u flags, s.SettledIn i [(.first, i.size)] u ∧ t = u.setFlags flags := by
  rw [clear_run hs] at h
  dsimp only at h
  split at h <;> cases h
  exact ⟨_, _, settledIn_first .., rfl⟩

theorem moveQuick_error (hs : s.adjusted = {}) (h : moveQuick i s = .error f t) :
    ∃ u flags, s.SettledIn i [(.second, i.size)] u ∧ t = u.setFlags flags := by
  rw [moveQuick_run hs] at h
  dsimp only at h
  split at h <;> cases h
  exact ⟨_, _, settledIn_first .., rfl⟩

theorem move_error (hs : s.adjusted = {}) (h : move i s = .error f t) :
    s.SettledIn i [(.first, i.size), (.second, i.size)] t := by
  rw [move_run hs] at h
  split at h
  · cases h
    exact settledIn_first ..
  · split at h <;> cases h
    exact settledIn_both ..

theorem multiply_error (hs : s.adjusted = {}) (h : multiply i s = .error f t) :
    ∃ u flags, s.SettledIn i [(.first, .word), (.second, .word)] u ∧ t = u.setFlags flags := by
  rw [multiply_run hs] at h
  split at h
  · split at h
    · cases h
      exact ⟨_, s.regs.flags, settledIn_first .., by rw [← settle_flags]; rfl⟩
    · split at h
      · cases h
        exact ⟨_, (s.settleBoth i .word .word).regs.flags, settledIn_both .., rfl⟩
      · dsimp only at h
        split at h <;> cases h
        exact ⟨_, _, settledIn_both .., rfl⟩
  · cases h
    exact ⟨s, s.regs.flags, settledIn_none _, rfl⟩

theorem divide_error (hs : s.adjusted = {}) (h : divide i s = .error f t) :
    s.SettledIn i [(.first, .word), (.second, i.size)] t := by
  rw [divide_run hs] at h
  split at h
  · rename_i hw
    rw [hw]
    split at h
    · cases h
      exact settledIn_first ..
    · dsimp only at h
      split at h
      · cases h
        exact settledIn_first ..
      · split at h <;> cases h
        exact settledIn_both ..
  · cases h
    exact settledIn_none _

/-- Operations on registers alone, and branches, check everything before they change anything. -/
theorem exchange_error (h : exchange i s = .error f t) : t = s := by
  rw [exchange_run] at h
  split at h
  · cases h; rfl
  · split at h
    · split at h <;> cases h
      rfl
    · cases h; rfl

theorem moveAddress_error (h : moveAddress i s = .error f t) : t = s := by
  rw [moveAddress_run] at h
  split at h
  · cases h; rfl
  · split at h
    · split at h
      · split at h <;> cases h
        rfl
      · cases h; rfl
    · cases h; rfl

theorem branch_error (h : branch i s = .error f t) : t = s := by
  rw [branch_run] at h
  split at h
  · cases h; rfl
  · split at h
    · split at h <;> cases h
      rfl
    · cases h; rfl

variable [Console κ]

theorem input_error (hs : s.adjusted = {}) (h : input i s = .error f t) :
    ∃ u flags console, s.SettledIn i [(.first, i.size)] u ∧
      t = { u.setFlags flags with console } ∧
      (console = s.console ∨ ∃ request, console = (Console.readValue s.console request).2) := by
  rw [input_run hs] at h
  split at h
  · cases h
    exact ⟨s, s.regs.flags, s.console, settledIn_none _, rfl, .inl rfl⟩
  · split at h
    · cases h
      exact ⟨s, s.regs.flags, s.console, settledIn_none _, rfl, .inl rfl⟩
    · dsimp only at h
      split at h
      · cases h
        exact ⟨s, s.regs.flags, _, settledIn_none _, rfl, .inr ⟨_, rfl⟩⟩
      · split at h <;> cases h
        rw [settle_withConsole]
        exact ⟨_, _, _, settledIn_first .., rfl, .inr ⟨_, rfl⟩⟩

theorem display_error (hs : s.adjusted = {}) (h : display i s = .error f t) :
    s.SettledIn i [(.first, i.size)] t := by
  rw [display_run hs] at h
  split at h <;> cases h
  exact settledIn_first ..

end Microprogram

/-- What a fault during execution leaves: memory, data registers and program counter as they were, the
status bits too unless they are set before a store, and address registers moved for some operands, a
first part of those that the operation looks for, which the notes tell. -/
structure Interrupted {κ : Type} [Console κ] (s : Datapath κ) (i : Instruction)
    (t : Datapath κ) : Prop where
  mem : t.mem = s.mem
  data : t.regs.d = s.regs.d
  pc : t.regs.pc = s.regs.pc
  flags : i.opcode.flagsFirst = false → t.regs.flags = s.regs.flags
  console : t.console = s.console ∨
    i.opcode = .inp ∧ ∃ request, t.console = (Console.readValue s.console request).2
  pointers : ∃ done, done <+: i.accesses ∧
    (∀ slot, (t.adjusted.get slot).isSome = true ↔
      slot ∈ done.map Prod.fst ∧ i.adjusts slot = true) ∧
    ∀ r : Fin 2, t.regs.a.get r = s.regs.a.get r + i.totalShift done r

namespace Interrupted

open Datapath

variable {κ : Type} [Console κ] {s t u : Datapath κ} {i : Instruction}

theorem of_settledIn (hs : s.adjusted = {}) (h : s.SettledIn i i.accesses u) (flags : Flags)
    (console : κ) (hf : i.opcode.flagsFirst = false → flags = s.regs.flags)
    (hc : console = s.console ∨
      i.opcode = .inp ∧ ∃ request, console = (Console.readValue s.console request).2) :
    Interrupted s i { u.setFlags flags with console } := by
  obtain ⟨done, hdone, rfl⟩ := h
  refine ⟨by simp, by simp, by simp, hf, hc, done, hdone, fun slot => ?_, fun r => ?_⟩
  · simp [settleAll_get_isSome, hs]
  · exact settleAll_a s i done r

theorem of_setFlags (hs : s.adjusted = {}) (h : s.SettledIn i i.accesses u) (flags : Flags)
    (hf : i.opcode.flagsFirst = true) : Interrupted s i (u.setFlags flags) := by
  have hc : u.console = s.console := by
    obtain ⟨done, -, rfl⟩ := h
    simp
  exact of_settledIn hs h flags u.console (fun hn => by simp [hf] at hn) (.inl hc)

theorem of_only (hs : s.adjusted = {}) (h : s.SettledIn i i.accesses t) : Interrupted s i t := by
  have hc : t.console = s.console ∧ t.regs.flags = s.regs.flags := by
    obtain ⟨done, -, rfl⟩ := h
    simp
  exact of_settledIn hs h t.regs.flags t.console (fun _ => hc.2) (.inl hc.1)

theorem refl (hs : s.adjusted = {}) : Interrupted s i s := of_only hs (settledIn_none _)

end Interrupted

open Microprogram in
theorem execute_error {κ : Type} [Console κ] {s t : Datapath κ} {i : Instruction} {f : Fault}
    (hs : s.adjusted = {}) (h : i.execute s = .error f t) : Interrupted s i t := by
  unfold Instruction.execute at h
  have hacc : i.accesses = i.opcode.touched.map fun slot => (slot, i.accessSize slot) := rfl
  cases ho : i.opcode <;> simp only [ho] at h <;>
    simp only [ho, Opcode.touched, Instruction.accessSize, List.map_cons, List.map_nil] at hacc
  case add | sub | and | or | eor => exact .of_only hs (hacc ▸ combine_error hs h)
  case addq | subq | lsl | lsr | rol | ror => exact .of_only hs (hacc ▸ combineQuick_error hs h)
  case neg | not => exact .of_only hs (hacc ▸ change_error hs h)
  case cmp => exact .of_only hs (hacc ▸ compare_error hs h)
  case tst => exact .of_only hs (hacc ▸ test_error hs h)
  case divs => exact .of_only hs (hacc ▸ divide_error hs h)
  case move => exact .of_only hs (hacc ▸ move_error hs h)
  case dsp => exact .of_only hs (hacc ▸ display_error hs h)
  case bra | bvs | beq | bcs | bge | ble =>
    obtain rfl := branch_error h
    exact .refl hs
  case exg =>
    obtain rfl := exchange_error h
    exact .refl hs
  case movea =>
    obtain rfl := moveAddress_error h
    exact .refl hs
  case dsr | hlt => cases h
  case muls =>
    obtain ⟨u, flags, hu, rfl⟩ := multiply_error hs h
    exact .of_setFlags hs (hacc ▸ hu) flags (by rw [ho]; rfl)
  case clr =>
    obtain ⟨u, flags, hu, rfl⟩ := clear_error hs h
    exact .of_setFlags hs (hacc ▸ hu) flags (by rw [ho]; rfl)
  case moveq =>
    obtain ⟨u, flags, hu, rfl⟩ := moveQuick_error hs h
    exact .of_setFlags hs (hacc ▸ hu) flags (by rw [ho]; rfl)
  case inp =>
    obtain ⟨u, flags, console, hu, rfl, hc⟩ := input_error hs h
    exact .of_settledIn hs (hacc ▸ hu) flags console (fun hn => by simp [ho, Opcode.flagsFirst] at hn)
      (hc.imp_right fun hc => ⟨ho, hc⟩)

end Micro68
