import Micro68.Proofs.Completion
import Micro68.Proofs.Elements
import Micro68.Proofs.HexDigits
import Micro68.Proofs.Steps

/-! What the machine tells its user about places. A prompt names the place that the value then goes to,
though it is written before the operand is looked for; an output line names the place that the value
was read from, though it is written after the pointer has moved. -/
namespace Micro68

namespace Location

/-- How prompts name a place. -/
inductive Described : Location → String → Prop
  | data (n : Fin 2) : Described (.data n) ("the register DR" ++ toString n.val)
  | address (n : Fin 2) : Described (.address n) ("the register AR" ++ toString n.val)
  | memory {a : UInt16} {digits : String} (h : Hex.Writes 4 digits a.toNat) :
    Described (.memory a) ("the memory address $" ++ digits)

inductive Labelled : Location → String → Prop
  | data (n : Fin 2) : Labelled (.data n) ("[ DR" ++ toString n.val ++ " ]")
  | address (n : Fin 2) : Labelled (.address n) ("[ AR" ++ toString n.val ++ " ]")
  | memory {a : UInt16} {digits : String} (h : Hex.Writes 4 digits a.toNat) :
    Labelled (.memory a) ("[$" ++ digits ++ "]")

theorem described (l : Location) : l.Described l.describe := by
  cases l with
  | data n => exact .data n
  | address n => exact .address n
  | memory a => exact .memory (Hex.writes_padded 4 a.toNat)

theorem labelled (l : Location) : l.Labelled l.label := by
  cases l with
  | data n => exact .data n
  | address n => exact .address n
  | memory a => exact .memory (Hex.writes_padded 4 a.toNat)

end Location

namespace Datapath

variable {κ : Type} [Console κ] {s t : Datapath κ} {op : Operand} {size : Size} {l : Location}

/-- A value was asked for under the name of a place, and that place has got it: cut to the size, or its
low 16 bits in an address register. Else memory and the data registers are the same, and the address
registers have moved as the mode says. -/
structure Received (s t : Datapath κ) (op : Operand) (size : Size) (l : Location) (x : Int32) :
    Prop where
  asked : ∃ request name, Console.readValue s.console request = (.ok x, t.console) ∧
    request.size = size ∧ l.Described name ∧
    request.prompt = "Enter a value (" ++ size.name ++ ") for " ++ name ++ ": "
  wrote : s.Wrote t size l (size.trunc x.toUInt32)
  pointer : ∀ r : Fin 2, t.regs.a.get r = if l = .address r then x.toUInt32.toUInt16
    else s.regs.a.get r + op.shift size r

/-- The element of a place was written in hexadecimal behind the name of the place. Memory and the data
registers are the same, and the address registers have moved as the mode says. -/
structure Shown (s t : Datapath κ) (op : Operand) (size : Size) (l : Location) : Prop where
  line : ∃ label digits, l.Labelled label ∧ Hex.Writes 0 digits (s.element size l).toNat ∧
    t.console = Console.writeLine s.console
      (label ++ " = $" ++ digits ++ " (" ++ size.name ++ ")")
  mem : t.mem = s.mem
  d : t.regs.d = s.regs.d
  pointer : ∀ r : Fin 2, t.regs.a.get r = s.regs.a.get r + op.shift size r

theorem Received.of_jump {pc : UInt16} {x : Int32}
    (h : (s.begin.jump pc).Received t op size l x) : s.Received t op size l x :=
  ⟨h.asked, h.wrote.of_eq (by rfl) (by rfl), h.pointer⟩

theorem Shown.of_jump {pc : UInt16} (h : (s.begin.jump pc).Shown t op size l) :
    s.Shown t op size l := by
  refine ⟨?_, h.mem, h.d, h.pointer⟩
  have hline := h.line
  rw [element_congr (s := s) (by rfl) (by rfl) (by rfl)] at hline
  exact hline

end Datapath

namespace Microprogram

variable {κ : Type} [Console κ] {s t : Datapath κ} {i : Instruction}

theorem input_received (hs : s.adjusted = {}) (h : input i s = .ok () t) :
    ∃ op l x, i.operand? .first = some op ∧ op.place i.size s.regs.a = some l ∧
      l.fault? i.size = none ∧ s.Received t op i.size l x := by
  obtain ⟨op, l, x, console, y, flags, hop, hl, hf, hread, hy, rfl⟩ := input_ok hs h
  cases hy
  refine ⟨op, l, x, hop, hl, hf,
    ⟨{ size := i.size, target := l }, l.describe, ?_, rfl, l.described, rfl⟩, ?_, fun r => ?_⟩
  · simpa using hread
  · exact (Datapath.wrote_poke hf _).of_eq (by simp) (by simp)
  · rw [Datapath.poke_a]
    simp [Datapath.settle_a, Instruction.shift, hop]

theorem display_shown (hs : s.adjusted = {}) (h : display i s = .ok () t) :
    ∃ op l, i.operand? .first = some op ∧ op.place i.size s.regs.a = some l ∧
      l.fault? i.size = none ∧ s.Shown t op i.size l := by
  obtain ⟨l, hl, rfl⟩ := display_ok hs h
  obtain ⟨op, hop, hp, hf⟩ := Instruction.reach_eq_ok.mp hl
  refine ⟨op, l, hop, hp, hf, ⟨_, _, l.labelled, ?_, rfl⟩, by simp, by simp, fun r => ?_⟩
  · rw [← Datapath.element_settle hl, ← Datapath.trunc_peek, Size.toNat_trunc, ← Size.toNat_low]
    exact Hex.writes_padded 0 _
  · simp [Datapath.settle_a, Instruction.shift, hop]

end Microprogram

namespace Machine

/-- An input step asks for the very place that it then writes: the register, or the address of the first
byte, of the first operand. A display step shows that place, with what it held. -/
theorem step_names_place {κ : Type} [Console κ] {m : Machine κ} {i : Instruction}
    (hrun : m.isHalted = false) (hok : m.toDatapath.cycle.fault = none)
    (hi : m.step.lastInstruction = some i) :
    (i.opcode = .inp → ∃ op l x, i.operand? .first = some op ∧
      op.place i.size m.regs.a = some l ∧ l.fault? i.size = none ∧
      m.toDatapath.Received m.step.toDatapath op i.size l x) ∧
    (i.opcode = .dsp → ∃ op l, i.operand? .first = some op ∧
      op.place i.size m.regs.a = some l ∧ l.fault? i.size = none ∧
      m.toDatapath.Shown m.step.toDatapath op i.size l) := by
  obtain ⟨k, j, pc, -, -, hj, he⟩ := step_executed hrun hok
  obtain rfl : j = i := Option.some.inj (hj.symm.trans hi)
  unfold Instruction.execute at he
  constructor
  · intro ho
    rw [ho] at he
    obtain ⟨op, l, x, hop, hl, hf, h⟩ := Microprogram.input_received rfl he
    exact ⟨op, l, x, hop, hl, hf, h.of_jump⟩
  · intro ho
    rw [ho] at he
    obtain ⟨op, l, hop, hl, hf, h⟩ := Microprogram.display_shown rfl he
    exact ⟨op, l, hop, hl, hf, h.of_jump⟩

/-- `INP.W -(A1)` asks for the last word of memory before A1 has moved there; `DSP.L (A0)+` shows the
address that A0 has moved away from; `DSP.B D0` shows a zero by one digit. -/
theorem step_names_place_decremented :
    let m := { holding [0xE2, 0xF0] { a := #v[0, 0x1001] } with
      console := ({ replies := ["4660"] } : Scripted) }
    let n := holding [0xEC, 0xC0, 0xAB, 0xCD] { a := #v[2, 0] }
    let z := holding [0xE8, 0x00] {}
    m.isHalted = false ∧ m.toDatapath.cycle.fault = none ∧
      n.isHalted = false ∧ n.toDatapath.cycle.fault = none ∧
      (∃ name request, (Location.memory 0xFFF).Described name ∧
        request.prompt = "Enter a value (" ++ "word" ++ ") for " ++ name ++ ": " ∧
        ∃ x, Console.readValue m.console request = (.ok x, m.step.console) ∧
          m.step.mem.element .word 0xFFF = Size.trunc .word x.toUInt32) ∧
      (∃ label digits, (Location.memory 2).Labelled label ∧ Hex.Writes 0 digits 0xABCD0000 ∧
        n.step.console = Console.writeLine n.console
          (label ++ " = $" ++ digits ++ " (" ++ "long" ++ ")")) ∧
      n.step.regs.a.get 0 = 6 ∧
      z.isHalted = false ∧ z.toDatapath.cycle.fault = none ∧
      ∃ digits, digits.length = 1 ∧ Hex.ofDigits digits.toList = 0 ∧
        z.step.console = Console.writeLine z.console
          ("[ DR0 ]" ++ " = $" ++ digits ++ " (" ++ "byte" ++ ")") := by
  intro m n z
  have hrun : m.isHalted = false := by decide
  have hok : m.toDatapath.cycle.fault = none := by decide +kernel
  have hi : m.step.lastInstruction =
      some (.unary .inp .word { mode := .preDecrement, reg := 1 }) := by decide +kernel
  have hrun' : n.isHalted = false := by decide
  have hok' : n.toDatapath.cycle.fault = none := by decide +kernel
  have hi' : n.step.lastInstruction =
      some (.unary .dsp .long { mode := .postIncrement }) := by decide +kernel
  have hrunz : z.isHalted = false := by decide
  have hokz : z.toDatapath.cycle.fault = none := by decide +kernel
  have hiz : z.step.lastInstruction = some (.unary .dsp .byte (.data 0)) := by decide +kernel
  obtain ⟨op, l, x, hop, hl, -, hasked⟩ := (step_names_place hrun hok hi).1 rfl
  obtain ⟨op', l', hop', hl', -, hshown⟩ := (step_names_place hrun' hok' hi').2 rfl
  obtain ⟨opz, lz, hopz, hlz, -, hzero⟩ := (step_names_place hrunz hokz hiz).2 rfl
  cases hop
  cases hop'
  cases hopz
  obtain rfl : l = .memory 0xFFF := (Option.some.inj hl).symm.trans (by decide)
  obtain rfl : l' = .memory 2 := (Option.some.inj hl').symm.trans (by decide)
  obtain rfl : lz = .data 0 := (Option.some.inj hlz).symm.trans (by decide)
  obtain ⟨request, name, hread, -, hname, hprompt⟩ := hasked.asked
  obtain ⟨label, digits, hlabel, hdigits, hline⟩ := hshown.line
  obtain ⟨labelz, digitsz, hlabelz, hdigitsz, hlinez⟩ := hzero.line
  cases hlabelz
  have hzeroed : (z.toDatapath.element .byte (.data 0)).toNat = 0 := by decide +kernel
  have hone : digitsz.length = 1 :=
    Nat.le_antisymm (hdigitsz.short 1 (by decide) (by decide) (hzeroed ▸ by decide)) hdigitsz.nonempty
  have hvalue := hasked.wrote.value (by simp)
  have helement : (n.toDatapath.element .long (.memory 2)).toNat = 0xABCD0000 := by decide +kernel
  exact ⟨hrun, hok, hrun', hok', ⟨name, request, hname, hprompt, x, hread, hvalue⟩,
    ⟨label, digits, hlabel, helement ▸ hdigits, hline⟩, hshown.pointer 0, hrunz, hokz,
    digitsz, hone, hdigitsz.value.trans hzeroed, hlinez⟩

end Machine
end Micro68
