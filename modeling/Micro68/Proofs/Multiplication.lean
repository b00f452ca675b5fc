import Micro68.Proofs.Division
import Micro68.Proofs.Results

/-! Multiplication. Two words with a sign have a product that a long has room for, so nothing is lost when
the machine multiplies in 32 bits. The product is written as a long to the place where the second word
was read, while Z and N look at its low word only. Sizes other than a word are refused before any operand
is looked for. -/
namespace Micro68

namespace Alu

/-- An outcome is right for a multiplication of integers: the product fits into a long and is the result,
V and C are clear, and Z and N are those of its low word. -/
structure Multiplies (x y : Int) (f : Flags) (r : UInt32 × Flags) : Prop where
  product : signed? (x * y) = some r.1.toInt32
  overflow : r.2.overflow = false
  carry : r.2.carry = false
  zero : r.2.zero = decide (BitVec.ofInt Size.word.bits (x * y) = 0)
  negative : r.2.negative = (BitVec.ofInt Size.word.bits (x * y)).msb
  halt : r.2.halt = f.halt

theorem natAbs_mul_le {x y : Int} (hx : FitsWord x) (hy : FitsWord y) :
    (x * y).natAbs ≤ 2 ^ 15 * 2 ^ 15 := by
  unfold FitsWord at hx hy
  rw [Int.natAbs_mul]
  exact Nat.mul_le_mul (by omega) (by omega)

theorem toInt_product (src dst : UInt32) : (product src dst).toInt32.toInt =
    (Size.word.trunc src).toInt * (Size.word.trunc dst).toInt := by
  have hsmall := natAbs_mul_le (fitsWord_toInt (Size.word.trunc src))
    (fitsWord_toInt (Size.word.trunc dst))
  change (signExtendWord src * signExtendWord dst).toInt = _
  rw [Int32.toInt_mul, toInt_signExtendWord, toInt_signExtendWord]
  exact Int.bmod_eq_of_le (by omega) (by omega)

theorem trunc_product (src dst : UInt32) : Size.word.trunc (product src dst) =
    BitVec.ofInt Size.word.bits ((Size.word.trunc src).toInt * (Size.word.trunc dst).toInt) := by
  apply BitVec.eq_of_toInt_eq
  rw [← toInt_product, BitVec.toInt_ofInt]
  exact toInt_trunc_word (product src dst).toInt32

theorem logic_multiplies (src dst : UInt32) (f : Flags) :
    Multiplies (Size.word.trunc src).toInt (Size.word.trunc dst).toInt f
      (logic .word (product src dst) f) := by
  have hy := logic_yields .word f (product src dst)
  rw [trunc_product] at hy
  refine ⟨?_, rfl, rfl, hy.zero, hy.negative, hy.halt⟩
  rw [← toInt_product, signed?_toInt]
  rfl

end Alu

/-- Between two states an instruction has multiplied the words at two places. The product replaces a long
at the second of them, or, if that is an address register, its low word does. -/
structure Instruction.Multiplied {κ : Type} (i : Instruction) (s t : Datapath κ) (src dst : Location)
    (p : UInt32) : Prop where
  first : i.reach .first .word s.regs.a = .ok src
  second : i.reach .second .word (i.advance .first .word s.regs.a) = .ok dst
  product : Alu.Multiplies (s.element .word src).toInt
    ((s.withPointers (i.advance .first .word s.regs.a)).element .word dst).toInt
    s.regs.flags (p, t.regs.flags)
  wrote : s.Wrote t .long dst (Size.long.trunc p)
  address : ∀ n, dst = .address n → t.regs.a.get n = p.toUInt16

namespace Microprogram

open Datapath

variable {κ : Type} {s t : Datapath κ} {i : Instruction}

theorem multiply_result (hs : s.adjusted = {}) (h : multiply i s = .ok () t) :
    ∃ l₁ l₂ p, i.Multiplied s t l₁ l₂ p := by
  obtain ⟨l₁, l₂, p, flags, -, h₁, h₂, hroom, hp, rfl⟩ := multiply_ok hs h
  have hproduct := Alu.logic_multiplies ((s.settle i .first .word).peek .word l₁)
    ((s.settleBoth i .word .word).peek .word l₂) s.regs.flags
  rw [hp, trunc_peek_settle h₁, trunc_peek_second h₂] at hproduct
  have hwrote := (wrote_poke (s := (s.settleBoth i .word .word).setFlags flags) hroom p).of_eq
    (s := s) (by simp [settleBoth]) (by simp [settleBoth])
  rw [settle_pointers] at h₂
  refine ⟨l₁, l₂, p, h₁, h₂, ?_, hwrote, fun n hn => ?_⟩
  · rw [poke_flags, setFlags_flags]
    exact hproduct
  · rw [poke_a, if_pos hn]

end Microprogram

namespace Datapath

variable {κ : Type} [Console κ] {s : Datapath κ} {i : Instruction}

theorem cycle_multiplication_size (hrun : s.regs.flags.halt = false)
    (hi : s.cycle.instruction = some i) (hfetch : s.fetchFault? = none) (ho : i.opcode = .muls)
    (hsize : i.size ≠ .word) :
    s.cycle.fault = some (.invalidSize i.size.code) ∧ ∃ pc, s.cycle.state = s.begin.jump pc := by
  obtain ⟨pc, hend⟩ := cycle_executes hrun hi hfetch
  have he : i.execute (s.begin.jump pc) = .error (.invalidSize i.size.code) (s.begin.jump pc) := by
    rw [Instruction.execute, ho]
    exact (Microprogram.multiply_run rfl).trans (if_neg hsize)
  rcases hend with ⟨hok, -⟩ | ⟨f, herror, hf⟩
  · cases hok.symm.trans he
  · obtain ⟨rfl, hstate⟩ := EStateM.Result.error.inj (herror.symm.trans he)
    exact ⟨hf, pc, hstate⟩

end Datapath

namespace Machine

variable {κ : Type} [Console κ] {m : Machine κ} {i : Instruction}

/-- Multiplication as a whole. Of two words it stores the exact product, as a long; of any other size it
faults, and then keeps memory, the registers of operands and all status bits but H. -/
theorem step_multiplication (hrun : m.isHalted = false) (hi : m.step.lastInstruction = some i)
    (ho : i.opcode = .muls) :
    (i.size = .word → m.toDatapath.cycle.fault = none →
      ∃ src dst p, i.Multiplied m.toDatapath m.step.toDatapath src dst p) ∧
    (i.size ≠ .word → m.toDatapath.fetchFault? = none →
      m.step.lastFault = some ⟨.invalidSize i.size.code, some .muls, m.regs.pc⟩ ∧
      m.step.regs.d = m.regs.d ∧ m.step.regs.a = m.regs.a ∧
      m.step.regs.flags = m.regs.flags.setHalt ∧ m.step.mem = m.mem) := by
  constructor
  · intro _ hok
    obtain ⟨-, j, pc, -, -, hj, he⟩ := step_executed hrun hok
    obtain rfl : j = i := Option.some.inj (hj.symm.trans hi)
    have hmultiply : Microprogram.multiply j (m.toDatapath.begin.jump pc) =
        .ok () m.step.toDatapath := by
      rw [Instruction.execute, ho] at he
      exact he
    obtain ⟨src, dst, p, h⟩ := Microprogram.multiply_result (by rfl) hmultiply
    have hwrote := h.wrote.of_eq (u := m.toDatapath.begin.jump pc) (s := m.toDatapath) rfl rfl
    exact ⟨src, dst, p, h.first, h.second, h.product, hwrote, h.address⟩
  · intro hsize hfetch
    have hc : m.toDatapath.cycle.instruction = some i := by rw [← step_lastInstruction hrun, hi]
    obtain ⟨hf, pc, hstate⟩ := Datapath.cycle_multiplication_size hrun hc hfetch ho hsize
    rw [step_of_fault hrun hf, hstate, hc, ← ho]
    exact ⟨rfl, rfl, rfl, rfl, rfl⟩

/-- `MULS.W D0,(A0)+` squares the least word. The long that it stores has a low word of zero, so that Z is
set. `MULS.L D0,D0` is refused. -/
theorem step_multiplication_least :
    let m := holding [0x23, 0x0C, 0x80, 0x00, 0x12, 0x34] { d := #v[0x8000, 0], a := #v[2, 0] }
    let n := holding [0x25, 0x00] { d := #v[3, 0] }
    m.isHalted = false ∧ m.toDatapath.cycle.fault = none ∧ m.step.mem.element .long 2 = 0x40000000 ∧
      m.step.regs.flags.zero = true ∧ n.isHalted = false ∧ n.toDatapath.fetchFault? = none ∧
      n.step.lastFault = some ⟨.invalidSize 2, some .muls, 0⟩ ∧ n.step.regs.d = #v[3, 0] := by
  intro m n
  have hrun : m.isHalted = false := by decide
  have hok : m.toDatapath.cycle.fault = none := by decide +kernel
  have hi : m.step.lastInstruction =
      some (.full .muls .word (.data 0) { mode := .postIncrement }) := by decide +kernel
  have hrun' : n.isHalted = false := by decide
  have hfetch' : n.toDatapath.fetchFault? = none := by decide +kernel
  have hi' : n.step.lastInstruction = some (.full .muls .long (.data 0) (.data 0)) := by
    decide +kernel
  obtain ⟨src, dst, p, h⟩ := (step_multiplication hrun hi rfl).1 rfl hok
  obtain ⟨hfault, hd, -⟩ := (step_multiplication hrun' hi' rfl).2 (by decide) hfetch'
  have hfirst := h.first
  have hsecond := h.second
  cases hfirst
  cases hsecond
  have hp : p.toInt32 = 0x40000000 := by
    have hproduct := h.product.product
    refine (Option.some.inj (hproduct.symm.trans ?_))
    decide +kernel
  refine ⟨hrun, hok, ?_, ?_, hrun', hfetch', hfault, hd⟩
  · exact (h.wrote.value nofun).trans (congrArg Int32.toBitVec hp)
  · exact h.product.zero.trans (by decide +kernel)

end Machine
end Micro68
