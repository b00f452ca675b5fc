import Micro68.Proofs.Completion
import Micro68.Proofs.Steps

/-! Pointer accounting. An instruction that ends without a fault has moved each address register by the
widths of its own `(An)+` and `-(An)` operands, each counted once, however often the operand was read
or written; only a store to the register itself hides that. -/
namespace Micro68

def Opcode.stored : Opcode → List Slot
  | exg => [.first, .second]
  | neg | clr | not | inp => [.first]
  | add | addq | sub | subq | muls | divs | and | or | eor | lsl | lsr | rol | ror
  | move | moveq | movea => [.second]
  | cmp | tst | bra | bvs | beq | bcs | bge | ble | dsp | dsr | hlt => []

namespace Instruction

def isPointer (i : Instruction) (slot : Slot) (r : Fin 2) : Bool :=
  (i.operand? slot).any fun op => op.mode = .addressRegister ∧ op.index = r

def storesPointer (i : Instruction) (r : Fin 2) : Bool :=
  i.opcode.stored.any fun slot => i.isPointer slot r

theorem SameForm.isPointer {i j : Instruction} (h : SameForm i j) (slot : Slot) (r : Fin 2) :
    j.isPointer slot r = i.isPointer slot r := by
  have ho := h.operand slot
  unfold Instruction.isPointer
  cases hi : i.operand? slot <;> cases hj : j.operand? slot <;> simp [hi, hj] at ho ⊢
  rename_i op op'
  have hindex : op'.index = op.index := by rw [Operand.index, ho.2, Operand.index]
  simp only [ho.1, hindex]

theorem SameForm.storesPointer {i j : Instruction} (h : SameForm i j) (r : Fin 2) :
    j.storesPointer r = i.storesPointer r := by
  simp [Instruction.storesPointer, h.opcode, h.isPointer]

theorem isPointer_of_reach {i : Instruction} {slot : Slot} {size : Size} {a : Vector UInt16 2}
    {r : Fin 2} (h : i.reach slot size a = .ok (.address r)) : i.isPointer slot r = true := by
  obtain ⟨op, hop, hp, -⟩ := reach_eq_ok.mp h
  unfold Operand.place at hp
  cases hm : op.mode <;> simp [hm] at hp
  simp [isPointer, hop, hm, hp]

end Instruction

namespace Datapath

variable {κ : Type} {s : Datapath κ} {i : Instruction} {slot : Slot} {size : Size} {l : Location}

theorem poke_a_of_reach {a : Vector UInt16 2} {r : Fin 2} (hl : i.reach slot size a = .ok l)
    (hr : i.isPointer slot r = false) (s : Datapath κ) (wide : Size) (x : UInt32) :
    (s.poke wide x l).regs.a.get r = s.regs.a.get r := by
  rw [poke_a, if_neg]
  rintro rfl
  rw [Instruction.isPointer_of_reach hl] at hr
  cases hr

end Datapath

open Microprogram in
theorem execute_a {κ : Type} [Console κ] {s t : Datapath κ} {i : Instruction} {r : Fin 2}
    (hs : s.adjusted = {}) (h : i.execute s = .ok () t) (hr : i.storesPointer r = false) :
    t.regs.a.get r = s.regs.a.get r + i.totalShift i.accesses r := by
  rw [← Datapath.settleAll_a]
  have hstored : ∀ slot ∈ i.opcode.stored, i.isPointer slot r = false := by
    simpa [Instruction.storesPointer] using hr
  have hacc : i.accesses = i.opcode.touched.map fun slot => (slot, i.accessSize slot) := rfl
  unfold Instruction.execute at h
  cases ho : i.opcode <;> simp only [ho] at h hstored <;>
    simp only [ho, Opcode.touched, Instruction.accessSize, List.map_cons, List.map_nil] at hacc <;>
    rw [hacc]
  case add | sub | and | or | eor =>
    obtain ⟨-, l, x, flags, -, hl, -, rfl⟩ := combine_ok hs h
    exact Datapath.poke_a_of_reach hl (hstored .second (by decide)) ..
  case addq | subq | lsl | lsr | rol | ror =>
    obtain ⟨l, x, flags, hl, -, rfl⟩ := combineQuick_ok hs h
    exact Datapath.poke_a_of_reach hl (hstored .second (by decide)) ..
  case neg | not =>
    obtain ⟨l, x, flags, hl, -, rfl⟩ := change_ok hs h
    exact Datapath.poke_a_of_reach hl (hstored .first (by decide)) ..
  case clr =>
    obtain ⟨l, x, flags, hl, -, rfl⟩ := clear_ok hs h
    exact Datapath.poke_a_of_reach hl (hstored .first (by decide)) ..
  case moveq =>
    obtain ⟨l, x, flags, hl, -, rfl⟩ := moveQuick_ok hs h
    exact Datapath.poke_a_of_reach hl (hstored .second (by decide)) ..
  case move =>
    obtain ⟨-, l, -, hl, rfl⟩ := move_ok hs h
    exact Datapath.poke_a_of_reach hl (hstored .second (by decide)) ..
  case muls =>
    obtain ⟨-, l, x, flags, -, -, hl, -, -, rfl⟩ := multiply_ok hs h
    exact Datapath.poke_a_of_reach hl (hstored .second (by decide)) ..
  case divs =>
    obtain ⟨-, l, q, x, flags, hw, -, hl, -, -, -, rfl⟩ := divide_ok hs h
    rw [hw]
    exact Datapath.poke_a_of_reach hl (hstored .second (by decide)) ..
  case cmp =>
    obtain ⟨-, -, x, flags, -, -, -, rfl⟩ := compare_ok hs h
    rfl
  case tst =>
    obtain ⟨-, x, flags, -, -, rfl⟩ := test_ok hs h
    rfl
  case bra | bvs | beq | bcs | bge | ble =>
    obtain ⟨target, -, -, -, rfl⟩ := branch_ok h
    split <;> rfl
  case exg =>
    obtain ⟨src, dst, hops, hsrc, hdst, rfl⟩ := exchange_ok h
    have hfirst : i.operand? .first = some src := by rw [Instruction.operand?, hops]
    have hsecond : i.operand? .second = some dst := by rw [Instruction.operand?, hops]
    simp only [Datapath.settleAll_cons, Datapath.settle_register hfirst hsrc,
      Datapath.settle_register hsecond hdst, Datapath.settleAll_nil, Datapath.setFlags_a]
    rw [Datapath.poke_a_of_reach (Instruction.reach_register hfirst hsrc i.size s.regs.a)
        (hstored .first (by decide)),
      Datapath.poke_a_of_reach (Instruction.reach_register hsecond hdst i.size s.regs.a)
        (hstored .second (by decide))]
  case movea =>
    obtain ⟨src, dst, hops, -, hdst, -, rfl⟩ := moveAddress_ok h
    have hsecond : i.operand? .second = some dst := by rw [Instruction.operand?, hops]
    have hreg : dst.mode.isRegister = true := by rw [hdst]; rfl
    have hplace : dst.register = .address dst.index := by
      rw [Operand.register, hdst, if_neg (by decide)]
    simp only [Datapath.settleAll_cons, Datapath.settle_register hsecond hreg,
      Datapath.settleAll_nil, ← hplace]
    exact Datapath.poke_a_of_reach (Instruction.reach_register hsecond hreg i.size s.regs.a)
      (hstored .second (by decide)) ..
  case inp =>
    obtain ⟨op, l, x, console, y, flags, hop, hl, hf, -, -, rfl⟩ := input_ok hs h
    rw [Datapath.settle_withConsole]
    exact Datapath.poke_a_of_reach (Instruction.reach_eq_ok.mpr ⟨op, hop, hl, hf⟩)
      (hstored .first (by decide)) ..
  case dsp =>
    obtain ⟨l, -, rfl⟩ := display_ok hs h
    rfl
  case dsr | hlt =>
    cases h
    rfl

namespace Machine

variable {κ : Type} [Console κ] {m : Machine κ}

end Machine
end Micro68
