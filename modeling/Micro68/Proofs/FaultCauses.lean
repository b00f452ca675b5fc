import Micro68.Proofs.CanonicalForms
import Micro68.Proofs.Completion
import Micro68.Proofs.Elements
import Micro68.Proofs.Steps

/-! Causes of faults. Every fault of a step tells what is wrong: in the early phases with the program
counter, the opcode word or an extension word, and in execution with an operand that the operation
examines, with the size, with a divisor or with the console. -/
namespace Micro68

namespace Mode

def isReserved : Mode → Bool
  | reserved _ => true
  | _ => false

end Mode

namespace Opcode

/-- The slots whose modes an operation looks at, first one first. Those that it does not read or write
it only checks. -/
def examined : Opcode → List Slot
  | bra | bvs | beq | bcs | bge | ble => [.first]
  | movea => [.first, .second]
  | o => o.touched

def admits : Opcode → Slot → Mode → Bool
  | bra, _, mode | bvs, _, mode | beq, _, mode | bcs, _, mode | bge, _, mode | ble, _, mode
  | movea, .first, mode => mode = .absolute
  | movea, .second, mode => mode = .addressRegister
  | exg, _, mode => mode.isRegister
  | _, _, mode => !mode.isReserved

def soleSize : Opcode → Option Size
  | muls | movea | bra | bvs | beq | bcs | bge | ble => some .word
  | divs => some .long
  | _ => none

theorem admits_reserved (o : Opcode) (slot : Slot) (c : UInt8) :
    o.admits slot (.reserved c) = false := by
  cases o <;> cases slot <;> rfl

end Opcode

namespace Alu

theorem signExtendWord_eq_zero {x : UInt32} : signExtendWord x = 0 ↔ Size.word.trunc x = 0 := by
  have hword : Size.word.trunc x = x.toUInt16.toBitVec := rfl
  rw [signExtendWord, hword, ← Int32.toInt_inj, Int16.toInt_toInt32]
  constructor
  · intro h
    have hsigned : x.toUInt16.toInt16 = 0 := Int16.toInt_inj.mp h
    exact congrArg Int16.toBitVec hsigned
  · intro h
    have hword : x.toUInt16 = 0 := UInt16.toBitVec_inj.mp h
    rw [hword]
    rfl

end Alu

namespace Instruction

/-- Every slot that the operation examines holds an operand. -/
def Furnished (i : Instruction) : Prop := ∀ slot ∈ i.opcode.examined, ∃ op, i.operand? slot = some op

theorem furnished_of_decode {w : UInt16} {i : Instruction} (h : decode w = .ok i) : i.Furnished := by
  intro slot hslot
  have hcanon := canonical_of_decode h
  cases hf : i.opcode.format with
  | full =>
    obtain ⟨src, dst, hops⟩ := hcanon.exists_full hf
    cases slot <;> simp [operand?, hops]
  | quick =>
    obtain ⟨data, dst, hops⟩ := hcanon.shape.mpr hf
    have hsecond : slot = .second := by
      cases ho : i.opcode <;> simp [ho, Opcode.format] at hf <;>
        simpa [ho, Opcode.examined, Opcode.touched] using hslot
    exact ⟨dst, by simp [operand?, hops, hsecond]⟩

theorem SameForm.furnished {i j : Instruction} (h : SameForm i j) (hi : i.Furnished) :
    j.Furnished := by
  intro slot hslot
  rw [h.opcode] at hslot
  obtain ⟨op, hop⟩ := hi slot hslot
  have ho := h.operand slot
  cases hj : j.operand? slot with
  | none => simp [hj, hop] at ho
  | some op' => exact ⟨op', rfl⟩

end Instruction

inductive FaultCause {κ : Type} [Console κ] (s : Datapath κ) (i : Instruction) : Fault → Prop where
  | outside (size : Size) (a : UInt16) (h : Memory.inRange size a = false) :
      FaultCause s i (.outOfRange (Memory.rangeError size a))
  | mode (slot : Slot) (op : Operand) (hslot : slot ∈ i.opcode.examined)
      (hop : i.operand? slot = some op) (h : i.opcode.admits slot op.mode = false) :
      FaultCause s i (.invalidMode op.mode.code)
  | size (sole : Size) (hsole : i.opcode.soleSize = some sole) (h : i.size ≠ sole) :
      FaultCause s i (.invalidSize i.size.code)
  | division (l : Location) (ho : i.opcode = .divs) (hsize : i.size = .long)
      (hl : i.reach .first .word s.regs.a = .ok l) (h : s.element .word l = 0) :
      FaultCause s i .divisionByZero
  | input (request : InputRequest) (e : ConsoleError) (ho : i.opcode = .inp)
      (h : (Console.readValue s.console request).1 = .error e) :
      FaultCause s i (.inputUnavailable e.message)

namespace FaultCause

variable {κ : Type} [Console κ] {s : Datapath κ} {i : Instruction} {slot : Slot} {op : Operand}
  {size : Size} {f : Fault}

theorem of_place (hslot : slot ∈ i.opcode.examined) (hop : i.operand? slot = some op)
    {a : Vector UInt16 2} (h : op.place size a = none) : FaultCause s i (.invalidMode op.mode.code) := by
  refine .mode slot op hslot hop ?_
  unfold Operand.place at h
  cases hm : op.mode <;> simp only [hm, reduceCtorEq] at h
  exact i.opcode.admits_reserved slot _

theorem of_fault? {l : Location} (h : l.fault? size = some f) : FaultCause s i f := by
  cases l with
  | data n => cases h
  | address n => cases h
  | memory a =>
    simp only [Location.fault?, Option.ite_none_left_eq_some] at h
    obtain ⟨hout, hf⟩ := h
    cases hf
    exact .outside size a (by simpa using hout)

theorem of_reach (hi : i.Furnished) (hslot : slot ∈ i.opcode.examined) {a : Vector UInt16 2}
    (h : i.reach slot size a = .error f) : FaultCause s i f := by
  obtain ⟨op, hop⟩ := hi slot hslot
  simp only [Instruction.reach, hop] at h
  split at h
  · rename_i hplace
    cases h
    exact .of_place hslot hop hplace
  · split at h <;> cases h
    exact .of_fault? ‹_›

end FaultCause

namespace Microprogram

variable {κ : Type} [Console κ] {s t : Datapath κ} {i : Instruction} {f : Fault}

theorem combine_cause (hs : s.adjusted = {}) (hi : i.Furnished)
    (hfirst : .first ∈ i.opcode.examined) (hsecond : .second ∈ i.opcode.examined) {op : AluOp}
    (h : combine op i s = .error f t) : FaultCause s i f := by
  rw [combine_run hs] at h
  split at h
  · cases h
    exact .of_reach hi hfirst ‹_›
  · split at h <;> cases h
    exact .of_reach hi hsecond ‹_›

theorem combineQuick_cause (hs : s.adjusted = {}) (hi : i.Furnished)
    (hsecond : .second ∈ i.opcode.examined) {op : AluOp} (h : combineQuick op i s = .error f t) :
    FaultCause s i f := by
  rw [combineQuick_run hs] at h
  split at h <;> cases h
  exact .of_reach hi hsecond ‹_›

theorem change_cause (hs : s.adjusted = {}) (hi : i.Furnished)
    (hfirst : .first ∈ i.opcode.examined) {op : Size → UInt32 → Flags → UInt32 × Flags}
    (h : change op i s = .error f t) : FaultCause s i f := by
  rw [change_run hs] at h
  split at h <;> cases h
  exact .of_reach hi hfirst ‹_›

theorem compare_cause (hs : s.adjusted = {}) (hi : i.Furnished)
    (hfirst : .first ∈ i.opcode.examined) (hsecond : .second ∈ i.opcode.examined) {op : AluOp}
    (h : compare op i s = .error f t) : FaultCause s i f := by
  rw [compare_run hs] at h
  split at h
  · cases h
    exact .of_reach hi hfirst ‹_›
  · split at h <;> cases h
    exact .of_reach hi hsecond ‹_›

theorem test_cause (hs : s.adjusted = {}) (hi : i.Furnished)
    (hfirst : .first ∈ i.opcode.examined) (h : test i s = .error f t) : FaultCause s i f := by
  rw [test_run hs] at h
  split at h <;> cases h
  exact .of_reach hi hfirst ‹_›

theorem clear_cause (hs : s.adjusted = {}) (hi : i.Furnished)
    (hfirst : .first ∈ i.opcode.examined) (h : clear i s = .error f t) : FaultCause s i f := by
  rw [clear_run hs] at h
  dsimp only at h
  split at h <;> cases h
  exact .of_reach hi hfirst ‹_›

theorem moveQuick_cause (hs : s.adjusted = {}) (hi : i.Furnished)
    (hsecond : .second ∈ i.opcode.examined) (h : moveQuick i s = .error f t) :
    FaultCause s i f := by
  rw [moveQuick_run hs] at h
  dsimp only at h
  split at h <;> cases h
  exact .of_reach hi hsecond ‹_›

theorem move_cause (hs : s.adjusted = {}) (hi : i.Furnished)
    (hfirst : .first ∈ i.opcode.examined) (hsecond : .second ∈ i.opcode.examined)
    (h : move i s = .error f t) : FaultCause s i f := by
  rw [move_run hs] at h
  split at h
  · cases h
    exact .of_reach hi hfirst ‹_›
  · split at h <;> cases h
    exact .of_reach hi hsecond ‹_›

/-- A product is stored as a long where a word was read, and may not fit there. -/
theorem multiply_cause (hs : s.adjusted = {}) (hi : i.Furnished) (ho : i.opcode = .muls)
    (h : multiply i s = .error f t) : FaultCause s i f := by
  have hslots : ∀ slot, slot ∈ i.opcode.examined := fun slot => by rw [ho]; cases slot <;> decide
  rw [multiply_run hs] at h
  split at h
  · split at h
    · cases h
      exact .of_reach hi (hslots _) ‹_›
    · split at h
      · cases h
        exact .of_reach hi (hslots _) ‹_›
      · dsimp only at h
        split at h <;> cases h
        exact .of_fault? ‹_›
  · rename_i hsize
    cases h
    exact .size .word (by rw [ho]; rfl) hsize

theorem divide_cause (hs : s.adjusted = {}) (hi : i.Furnished) (ho : i.opcode = .divs)
    (h : divide i s = .error f t) : FaultCause s i f := by
  have hslots : ∀ slot, slot ∈ i.opcode.examined := fun slot => by rw [ho]; cases slot <;> decide
  rw [divide_run hs] at h
  split at h
  · rename_i hsize
    split at h
    · cases h
      exact .of_reach hi (hslots _) ‹_›
    · rename_i l hl
      dsimp only at h
      split at h
      · rename_i hzero
        cases h
        rw [Alu.signExtendWord_eq_zero, Datapath.trunc_peek, Datapath.element_settle hl] at hzero
        exact .division l ho hsize hl hzero
      · split at h <;> cases h
        exact .of_reach hi (hslots _) ‹_›
  · rename_i hsize
    cases h
    exact .size .long (by rw [ho]; rfl) hsize

theorem exchange_cause (hi : i.Furnished) (ho : i.opcode = .exg) (h : exchange i s = .error f t) :
    FaultCause s i f := by
  obtain ⟨first, hfirst⟩ := hi .first (by rw [ho]; decide)
  rw [exchange_run] at h
  split at h
  · rename_i hops
    simp [Instruction.operand?, hops] at hfirst
  · rename_i src dst hops
    have hadmits : ∀ slot, i.opcode.admits slot = Mode.isRegister := by
      intro slot
      rw [ho]
      cases slot <;> rfl
    split at h
    · split at h <;> cases h
      rename_i hdst
      exact .mode .second dst (by rw [ho]; decide) (by simp [Instruction.operand?, hops])
        (by simpa [hadmits] using hdst)
    · rename_i hsrc
      cases h
      exact .mode .first src (by rw [ho]; decide) (by simp [Instruction.operand?, hops])
        (by simpa [hadmits] using hsrc)

theorem moveAddress_cause (hi : i.Furnished) (ho : i.opcode = .movea)
    (h : moveAddress i s = .error f t) : FaultCause s i f := by
  obtain ⟨first, hfirst⟩ := hi .first (by rw [ho]; decide)
  rw [moveAddress_run] at h
  split at h
  · rename_i hops
    simp [Instruction.operand?, hops] at hfirst
  · rename_i src dst hops
    split at h
    · split at h
      · split at h <;> cases h
        rename_i hsize
        exact .size .word (by rw [ho]; rfl) hsize
      · rename_i hdst
        cases h
        exact .mode .second dst (by rw [ho]; decide) (by simp [Instruction.operand?, hops])
          (by simpa [ho, Opcode.admits] using hdst)
    · rename_i hsrc
      cases h
      exact .mode .first src (by rw [ho]; decide) (by simp [Instruction.operand?, hops])
        (by simpa [ho, Opcode.admits] using hsrc)

/-- A branch checks its target even if it is not taken. -/
theorem branch_cause (hi : i.Furnished) (ho : i.opcode.isBranch = true)
    (h : branch i s = .error f t) : FaultCause s i f := by
  have hexamined : i.opcode.examined = [.first] := by
    cases hb : i.opcode <;> simp [hb, Opcode.isBranch] at ho <;> rfl
  obtain ⟨target, htarget⟩ := hi .first (by rw [hexamined]; decide)
  rw [branch_run] at h
  simp only [htarget] at h
  split at h
  · split at h <;> cases h
    rename_i hsize
    refine .size .word ?_ hsize
    cases hb : i.opcode <;> simp [hb, Opcode.isBranch] at ho <;> rfl
  · rename_i hmode
    cases h
    refine .mode .first target (by rw [hexamined]; decide) htarget ?_
    cases hb : i.opcode <;> simp [hb, Opcode.isBranch] at ho <;> simpa [Opcode.admits] using hmode

theorem input_cause (hs : s.adjusted = {}) (hi : i.Furnished) (ho : i.opcode = .inp)
    (h : input i s = .error f t) : FaultCause s i f := by
  have hfirst : .first ∈ i.opcode.examined := by rw [ho]; decide
  obtain ⟨op, hop⟩ := hi .first hfirst
  rw [input_run hs] at h
  simp only [hop] at h
  split at h
  · cases h
    exact .of_place hfirst hop ‹_›
  · split at h
    · rename_i e he
      cases h
      exact .input _ e ho he
    · split at h <;> cases h
      exact .of_fault? ‹_›

theorem display_cause (hs : s.adjusted = {}) (hi : i.Furnished)
    (hfirst : .first ∈ i.opcode.examined) (h : display i s = .error f t) : FaultCause s i f := by
  rw [display_run hs] at h
  split at h <;> cases h
  exact .of_reach hi hfirst ‹_›

end Microprogram

open Microprogram in
theorem execute_cause {κ : Type} [Console κ] {s t : Datapath κ} {i : Instruction} {f : Fault}
    (hs : s.adjusted = {}) (hi : i.Furnished) (h : i.execute s = .error f t) :
    FaultCause s i f := by
  have hexamined : ∀ o slot, i.opcode = o → slot ∈ o.examined → slot ∈ i.opcode.examined :=
    fun o slot ho hslot => ho ▸ hslot
  unfold Instruction.execute at h
  cases ho : i.opcode <;> simp only [ho] at h
  case add | sub | and | or | eor =>
    exact combine_cause hs hi (hexamined _ _ ho (by decide)) (hexamined _ _ ho (by decide)) h
  case addq | subq | lsl | lsr | rol | ror =>
    exact combineQuick_cause hs hi (hexamined _ _ ho (by decide)) h
  case neg | not => exact change_cause hs hi (hexamined _ _ ho (by decide)) h
  case clr => exact clear_cause hs hi (hexamined _ _ ho (by decide)) h
  case tst => exact test_cause hs hi (hexamined _ _ ho (by decide)) h
  case dsp => exact display_cause hs hi (hexamined _ _ ho (by decide)) h
  case cmp =>
    exact compare_cause hs hi (hexamined _ _ ho (by decide)) (hexamined _ _ ho (by decide)) h
  case move =>
    exact move_cause hs hi (hexamined _ _ ho (by decide)) (hexamined _ _ ho (by decide)) h
  case moveq => exact moveQuick_cause hs hi (hexamined _ _ ho (by decide)) h
  case muls => exact multiply_cause hs hi ho h
  case divs => exact divide_cause hs hi ho h
  case exg => exact exchange_cause hi ho h
  case movea => exact moveAddress_cause hi ho h
  case inp => exact input_cause hs hi ho h
  case bra | bvs | beq | bcs | bge | ble => exact branch_cause hi (by rw [ho]; rfl) h
  case dsr | hlt => cases h

end Micro68
