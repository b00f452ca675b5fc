import Micro68.Proofs.Elements
import Micro68.Proofs.Steps

/-! Stacks. Values of any sizes that are written through `-(An)`, one cycle each, lie below each other
without gaps, and reading them through `(An)+` gives them back, the last one first. -/
namespace Micro68

theorem Memory.slice_congr {m m' : Memory} {a n : Nat}
    (h : ∀ c, a ≤ c → c < a + n → m'.cell c = m.cell c) : m'.slice a n = m.slice a n := by
  refine List.map_congr_left fun k hk => h (a + k) (Nat.le_add_right a k) ?_
  exact Nat.add_lt_add_left (List.mem_range.mp hk) a

namespace Registers

@[simp] theorem setA_setA (r : Registers) (n : Fin 2) (x y : UInt16) :
    (r.setA n x).setA n y = r.setA n y := by
  simp [setA]

@[simp] theorem setA_self (r : Registers) (n : Fin 2) : r.setA n (r.a.get n) = r := by
  have ha : r.a.set n (r.a.get n) = r.a := Vector.set_getElem_self n.isLt
  rw [setA, ha]

end Registers

namespace Datapath

variable {κ : Type} {s t u : Datapath κ} {n : Fin 2} {v w : Nat}

/-- Between two states some bytes were put right below where an address register points to, which now
points to the first one of them; nothing else has changed. -/
structure PutBelow (s t : Datapath κ) (n : Fin 2) (width : Nat) : Prop where
  regs : t.regs = s.regs.setA n (s.regs.a.get n - UInt16.ofNat width)
  cell : ∀ c, c < (s.regs.a.get n).toNat - width ∨ (s.regs.a.get n).toNat ≤ c →
    t.mem.cell c = s.mem.cell c
  imageLen : t.mem.imageLen = s.mem.imageLen
  console : t.console = s.console

namespace PutBelow

theorem refl (s : Datapath κ) (n : Fin 2) : s.PutBelow s n 0 := by
  refine ⟨?_, fun _ _ => rfl, rfl, rfl⟩
  change s.regs = s.regs.setA n (s.regs.a.get n - 0)
  rw [UInt16.sub_zero, Registers.setA_self]

theorem pointer (h : s.PutBelow t n w) :
    t.regs.a.get n = s.regs.a.get n - UInt16.ofNat w := by
  rw [h.regs, Registers.setA_a, if_pos rfl]

theorem toNat_pointer (h : s.PutBelow t n w) (hw : w ≤ (s.regs.a.get n).toNat) :
    (t.regs.a.get n).toNat = (s.regs.a.get n).toNat - w := by
  have hlt : (s.regs.a.get n).toNat < 2 ^ 16 := (s.regs.a.get n).toNat_lt
  have hwidth : (UInt16.ofNat w).toNat = w :=
    UInt16.toNat_ofNat_of_lt' (Nat.lt_of_le_of_lt hw hlt)
  rw [h.pointer, UInt16.toNat_sub_of_le _ _ (UInt16.le_iff_toNat_le.mpr (by rwa [hwidth])), hwidth]

theorem trans (h : s.PutBelow t n v) (h' : t.PutBelow u n w)
    (hfit : v + w ≤ (s.regs.a.get n).toNat) : s.PutBelow u n (v + w) := by
  have hp := h.toNat_pointer (Nat.le_trans (Nat.le_add_right v w) hfit)
  refine ⟨?_, fun c hc => ?_, h'.imageLen.trans h.imageLen, h'.console.trans h.console⟩
  · rw [h'.regs, h.pointer, h.regs, Registers.setA_setA]
    simp only [UInt16.ofNat_add, UInt16.sub_eq_add_neg, UInt16.neg_add, UInt16.add_assoc]
  · rw [h'.cell c (by omega), h.cell c (by omega)]

end PutBelow

end Datapath

namespace Micro

variable {κ : Type} {s t u : Datapath κ}

/-- Writes values through an operand, each in a cycle of its own. -/
def pushAll (slot : Slot) (op : Operand) : List (Size × UInt32) → Micro κ Unit
  | [] => return ()
  | (size, x) :: items => do
    modify Datapath.begin
    store slot op size x
    pushAll slot op items

def popAll (slot : Slot) (op : Operand) : List Size → Micro κ (List UInt32)
  | [] => return []
  | size :: sizes => do
    modify Datapath.begin
    let x ← fill slot op size
    return x :: (← popAll slot op sizes)

def totalBytes : List (Size × UInt32) → Nat
  | [] => 0
  | (size, _) :: items => size.bytes + totalBytes items

theorem modify_run (g : Datapath κ → Datapath κ) (s : Datapath κ) :
    (modify g : Micro κ Unit) s = .ok () (g s) := rfl

theorem store_preDecrement {op : Operand} (hop : op.mode = .preDecrement) (slot : Slot) (size : Size)
    (x : UInt32) (hfit : size.bytes ≤ (s.regs.a.get op.index).toNat)
    (hcap : (s.regs.a.get op.index).toNat ≤ Memory.capacity) :
    ∃ t, store slot op size x s.begin = .ok () t ∧ s.PutBelow t op.index size.bytes ∧
      t.mem.slice (t.regs.a.get op.index).toNat size.bytes = BigEndian.bytes size x := by
  have hnone : s.begin.adjusted.get slot = none := Adjusted.get_none slot
  have hle : size.stride ≤ s.regs.a.get op.index := by
    rwa [UInt16.le_iff_toNat_le, Size.stride_toNat]
  have hlow : (s.regs.a.get op.index - size.stride).toNat =
      (s.regs.a.get op.index).toNat - size.bytes := by
    rw [UInt16.toNat_sub_of_le _ _ hle, Size.stride_toNat]
  have hplace : op.place size s.begin.regs.a =
      some (.memory (s.regs.a.get op.index - size.stride)) := by
    simp [Operand.place, hop]
  have hin : (s.regs.a.get op.index - size.stride).toNat + size.bytes ≤ Memory.capacity := by
    rw [hlow]
    omega
  have hinside : Location.fault? size (.memory (s.regs.a.get op.index - size.stride)) = none :=
    if_pos (decide_eq_true hin)
  have hbytes : (BigEndian.bytes size x).length = size.bytes := BigEndian.bytes_length size x
  refine ⟨(s.begin.settleOperand slot op size).poke size x
    (.memory (s.regs.a.get op.index - size.stride)), ?_, ⟨?_, fun c hc => ?_, ?_, by simp⟩, ?_⟩
  · rw [store, bind_run, locate_run hnone, hplace]
    simp only [save_run, hinside]
  · simp [Datapath.poke, Datapath.settleOperand, hop, Size.stride]
  · have hput := s.mem.cell_put _ c (BigEndian.bytes size x) (by rwa [hbytes])
    rw [hbytes, if_neg (by omega)] at hput
    simpa [Datapath.poke] using hput
  · simp [Datapath.poke]
  · have hslice := s.mem.slice_put _ (BigEndian.bytes size x) (by rwa [hbytes])
    rw [hbytes] at hslice
    simpa [Datapath.poke, Datapath.settleOperand, hop] using hslice

theorem fill_postIncrement {op : Operand} (hop : op.mode = .postIncrement) (slot : Slot) (size : Size)
    (hcap : (s.regs.a.get op.index).toNat + size.bytes ≤ Memory.capacity) :
    ∃ t, fill slot op size s.begin =
        .ok (BigEndian.value (s.mem.slice (s.regs.a.get op.index).toNat size.bytes)) t ∧
      t.regs = s.regs.setA op.index (s.regs.a.get op.index + size.stride) ∧ t.mem = s.mem ∧
      t.console = s.console := by
  have hnone : s.begin.adjusted.get slot = none := Adjusted.get_none slot
  have hplace : op.place size s.begin.regs.a = some (.memory (s.regs.a.get op.index)) := by
    simp [Operand.place, hop]
  have hinside : Location.fault? size (.memory (s.regs.a.get op.index)) = none :=
    if_pos (decide_eq_true hcap)
  refine ⟨s.begin.settleOperand slot op size, ?_, ?_, by simp, by simp⟩
  · rw [fill, bind_run, locate_run hnone, hplace]
    simp only [load_run, hinside]
    simp [Datapath.peek]
  · simp [Datapath.settleOperand, hop]

theorem popAll_concat {slot : Slot} {op : Operand} {sizes : List Size} {size : Size}
    {xs : List UInt32} {x : UInt32} (hall : popAll slot op sizes s = .ok xs t)
    (hlast : fill slot op size t.begin = .ok x u) :
    popAll slot op (sizes ++ [size]) s = .ok (xs ++ [x]) u := by
  induction sizes generalizing s xs with
  | nil =>
    cases hall
    simp only [List.nil_append, popAll, bind_run, modify_run, hlast, pure_run]
  | cons size' sizes ih =>
    rw [popAll, bind_of_ok (modify_run ..)] at hall
    obtain ⟨x', s₂, hfill, hall⟩ := bind_eq_ok.mp hall
    obtain ⟨xs', s₃, hrest, hxs⟩ := bind_eq_ok.mp hall
    cases hxs
    rw [List.cons_append, popAll, bind_of_ok (modify_run ..), bind_of_ok hfill,
      bind_of_ok (ih hrest)]
    rfl

variable {push pop : Operand}

/-- Values of any sizes that have room below the pointer can be written there, which moves the pointer
by their width and keeps everything but the cells that it passes. Reading as many values of the same
sizes, the last one first, gives the values cut to their sizes, and moves the pointer back, and changes
nothing else. -/
theorem pushAll_popAll (hpush : push.mode = .preDecrement) (hpop : pop.mode = .postIncrement)
    (hreg : pop.index = push.index) (slot slot' : Slot) (items : List (Size × UInt32))
    (s : Datapath κ) (hfit : totalBytes items ≤ (s.regs.a.get push.index).toNat)
    (hcap : (s.regs.a.get push.index).toNat ≤ 0x1001) :
    ∃ t, pushAll slot push items s = .ok () t ∧ s.PutBelow t push.index (totalBytes items) ∧
      ∃ u, popAll slot' pop (items.reverse.map (·.1)) t =
          .ok (items.reverse.map fun item => item.1.low item.2) u ∧
        u.regs = s.regs ∧ u.mem = t.mem ∧ u.console = t.console := by
  induction items generalizing s with
  | nil => exact ⟨s, rfl, .refl s push.index, s, rfl, rfl, rfl, rfl⟩
  | cons item items ih =>
    obtain ⟨size, x⟩ := item
    rw [totalBytes] at hfit ⊢
    obtain ⟨s₁, hstore, hput, hbytes⟩ := store_preDecrement hpush slot size x (by omega) hcap
    have hlow := hput.toNat_pointer (by omega)
    -- the other values go below this one, and are read back before it
    obtain ⟨t, hpushes, hputs, u₁, hpops, hregs₁, hmem₁, hconsole₁⟩ :=
      ih s₁ (by omega) (by omega)
    have hpointer : u₁.regs.a.get pop.index = s₁.regs.a.get push.index := by rw [hregs₁, hreg]
    have hvalue : BigEndian.value (u₁.mem.slice (u₁.regs.a.get pop.index).toNat size.bytes) =
        size.low x := by
      rw [hmem₁, hpointer, Memory.slice_congr fun c hc _ => hputs.cell c (.inr hc), hbytes,
        BigEndian.value_bytes]
    obtain ⟨u, hfill, hregs, hmem, hconsole⟩ := fill_postIncrement (s := u₁) hpop slot' size
      (by rw [hpointer, hlow]; change _ ≤ 0x1001; omega)
    rw [hvalue] at hfill
    refine ⟨t, ?_, hput.trans hputs hfit, u, ?_, ?_, hmem.trans hmem₁, hconsole.trans hconsole₁⟩
    · rw [pushAll, bind_of_ok (modify_run ..), bind_of_ok hstore, hpushes]
    · rw [List.reverse_cons, List.map_append, List.map_append]
      exact popAll_concat hpops hfill
    · rw [hregs, hregs₁, hreg, hput.pointer, hput.regs, Registers.setA_setA]
      change s.regs.setA push.index (s.regs.a.get push.index - size.stride + size.stride) = s.regs
      rw [UInt16.sub_add_cancel, Registers.setA_self]

/-- A long, a byte with something above it, and a word, right below the end of memory. -/
theorem pushAll_popAll_mixedSizes :
    let s := (Machine.holding [] { a := #v[0, 0x1001] }).toDatapath
    let push : Operand := { mode := .preDecrement, reg := 1 }
    let pop : Operand := { mode := .postIncrement, reg := 1 }
    let items := [(.long, 0x11223344), (.byte, 0x1FF), (.word, 0xABCD)]
    pop.index = push.index ∧ totalBytes items ≤ (s.regs.a.get push.index).toNat ∧
      (s.regs.a.get push.index).toNat ≤ 0x1001 ∧
      ∃ t u, pushAll .second push items s = .ok () t ∧ t.regs.a.get 1 = 0xFFA ∧
        popAll .first pop [.word, .byte, .long] t = .ok [0xABCD, 0xFF, 0x11223344] u ∧
        u.regs = s.regs := by
  intro s push pop items
  have hfit : totalBytes items ≤ (s.regs.a.get push.index).toNat := by decide
  have hpush : push.mode = .preDecrement := rfl
  have hpop : pop.mode = .postIncrement := rfl
  have hreg : pop.index = push.index := rfl
  obtain ⟨t, hpushes, hput, u, hpops, hregs, -⟩ :=
    pushAll_popAll hpush hpop hreg .second .first items s hfit (by decide)
  exact ⟨hreg, hfit, by decide, t, u, hpushes, hput.pointer.trans (by decide), hpops, hregs⟩

end Micro
end Micro68
