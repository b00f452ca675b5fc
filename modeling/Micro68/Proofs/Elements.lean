import Micro68.Proofs.Arithmetic
import Micro68.Proofs.OperandAccess

/-! Elements: the word of some size that a place holds, in memory most significant byte first. Reading
a place gives its element, and writing one changes that element and nothing else. -/
namespace Micro68

namespace BigEndian

def number (bs : List UInt8) : Nat := bs.foldl (fun n b => 256 * n + b.toNat) 0

theorem toNat_shiftIn (x : UInt32) (b : UInt8) :
    (x <<< 8 ||| b.toUInt32).toNat = (256 * x.toNat + b.toNat) % 2 ^ 32 := by
  have hb : b.toNat < 2 ^ 8 := b.toNat_lt
  have hshift : (x <<< 8).toNat = (x.toNat % 2 ^ 24) <<< 8 := by
    rw [UInt32.toNat_shiftLeft, Nat.shiftLeft_eq, Nat.shiftLeft_eq]
    change x.toNat * 2 ^ 8 % 2 ^ 32 = _
    omega
  rw [UInt32.toNat_or, hshift, UInt8.toNat_toUInt32, ← Nat.shiftLeft_add_eq_or_of_lt hb,
    Nat.shiftLeft_eq]
  omega

theorem toNat_value (bs : List UInt8) : (value bs).toNat = number bs % 2 ^ 32 := by
  have hfold : ∀ (x : UInt32) (n : Nat), x.toNat = n % 2 ^ 32 →
      (bs.foldl (fun (x : UInt32) b => x <<< 8 ||| b.toUInt32) x).toNat =
        bs.foldl (fun n b => 256 * n + b.toNat) n % 2 ^ 32 := by
    induction bs with
    | nil =>
      intro x n h
      exact h
    | cons b bs ih =>
      intro x n h
      refine ih _ _ ?_
      rw [toNat_shiftIn, h]
      show (256 * (n % 2 ^ 32) + b.toNat) % 2 ^ 32 = (256 * n + b.toNat) % 2 ^ 32
      omega
  exact hfold 0 0 rfl

theorem number_bytes (s : Size) (x : UInt32) : number (bytes s x) = x.toNat % 2 ^ s.bits := by
  have hx : x.toNat < 2 ^ 32 := x.toNat_lt
  cases s <;> simp [number, bytes, Size.bytes, List.range_succ, Nat.shiftRight_eq_div_pow] <;> omega

theorem value_bytes (s : Size) (x : UInt32) : value (bytes s x) = s.low x := by
  apply UInt32.toNat_inj.mp
  rw [toNat_value, number_bytes, Size.toNat_low, Nat.mod_eq_of_lt]
  exact Nat.lt_of_lt_of_le (Nat.mod_lt _ (Nat.two_pow_pos _))
    (Nat.pow_le_pow_right (by decide) s.bits_le)

end BigEndian

namespace Memory

def element (m : Memory) (s : Size) (a : Nat) : BitVec s.bits :=
  BitVec.ofNat s.bits (BigEndian.number (m.slice a s.bytes))

theorem trunc_value (m : Memory) (s : Size) (a : Nat) :
    s.trunc (BigEndian.value (m.slice a s.bytes)) = m.element s a := by
  apply BitVec.eq_of_toNat_eq
  rw [Size.toNat_trunc, BigEndian.toNat_value, element, BitVec.toNat_ofNat,
    Nat.mod_mod_of_dvd _ (Nat.pow_dvd_pow 2 s.bits_le)]

theorem slice_put (m : Memory) (a : Nat) (bs : List UInt8) (h : a + bs.length ≤ capacity) :
    (m.put a bs).slice a bs.length = bs := by
  apply List.ext_getElem
  · simp
  · intro k hk hk'
    simp [slice, cell_put _ _ _ _ h, hk']

theorem element_put (m : Memory) (s : Size) (a : Nat) (x : UInt32) (h : a + s.bytes ≤ capacity) :
    (m.put a (BigEndian.bytes s x)).element s a = s.trunc x := by
  have hslice : (m.put a (BigEndian.bytes s x)).slice a s.bytes = BigEndian.bytes s x := by
    have := m.slice_put a (BigEndian.bytes s x) (by simpa using h)
    simpa using this
  apply BitVec.eq_of_toNat_eq
  rw [element, hslice, BitVec.toNat_ofNat, BigEndian.number_bytes, Nat.mod_mod, Size.toNat_trunc]

end Memory

namespace Datapath

variable {κ : Type}

/-- The element of a place. An address register has 16 bits, which are cut or extended by zeros. -/
def element (s : Datapath κ) (size : Size) : Location → BitVec size.bits
  | .data n => size.trunc (s.regs.d.get n)
  | .address n => (s.regs.a.get n).toBitVec.setWidth size.bits
  | .memory a => s.mem.element size a.toNat

/-- Between two states a place has been given a value, and the rest of memory and of the data
registers is the same. -/
structure Wrote (s t : Datapath κ) (size : Size) (l : Location) (x : BitVec size.bits) : Prop where
  value : (∀ n, l ≠ .address n) → t.element size l = x
  imageLen : t.mem.imageLen = s.mem.imageLen
  cell : ∀ c, (∀ a, l = .memory a → c < a.toNat ∨ a.toNat + size.bytes ≤ c) →
    t.mem.cell c = s.mem.cell c
  bit : ∀ (n : Fin 2) (k : Nat), (l = .data n → size.bits ≤ k) →
    (t.regs.d.get n).toBitVec.getLsbD k = (s.regs.d.get n).toBitVec.getLsbD k

variable {s t u : Datapath κ} {size : Size} {l : Location} {x : BitVec size.bits}

theorem element_congr (hm : t.mem = s.mem) (hd : t.regs.d = s.regs.d) (ha : t.regs.a = s.regs.a)
    (size : Size) (l : Location) : t.element size l = s.element size l := by
  cases l <;> simp only [element, hm, hd, ha]

theorem Wrote.of_eq (hm : u.mem = s.mem) (hd : u.regs.d = s.regs.d) (h : u.Wrote t size l x) :
    s.Wrote t size l x := by
  refine ⟨h.value, ?_, ?_, ?_⟩
  · rw [← hm]
    exact h.imageLen
  · rw [← hm]
    exact h.cell
  · rw [← hd]
    exact h.bit

theorem trunc_peek (s : Datapath κ) (size : Size) (l : Location) :
    size.trunc (s.peek size l) = s.element size l := by
  cases l with
  | data n => exact size.trunc_low _
  | address n =>
    change ((s.regs.a.get n).toBitVec.setWidth 32).setWidth size.bits = _
    rw [BitVec.setWidth_setWidth (by omega)]
    rfl
  | memory a => exact s.mem.trunc_value size a.toNat

theorem getLsbD_merge (size : Size) (old x : UInt32) (k : Nat) :
    (old &&& ~~~size.mask ||| size.low x).toBitVec.getLsbD k =
      if k < size.bits then x.toBitVec.getLsbD k else old.toBitVec.getLsbD k := by
  have hmask : size.mask.toBitVec.getLsbD k = decide (k < size.bits) := by
    rw [← BitVec.testBit_toNat, UInt32.toNat_toBitVec, Size.toNat_mask, Nat.testBit_two_pow_sub_one]
  have hbits := size.bits_le
  rw [UInt32.toBitVec_or, UInt32.toBitVec_and, UInt32.toBitVec_not, BitVec.getLsbD_or,
    BitVec.getLsbD_and, BitVec.getLsbD_not, hmask, Size.getLsbD_low]
  by_cases hk : k < size.bits
  · simp [hk]
  · by_cases hk32 : k < 32
    · simp [hk, hk32]
    · simp [hk, BitVec.getLsbD_of_ge _ _ (Nat.le_of_not_lt hk32)]

theorem trunc_merge (size : Size) (old x : UInt32) :
    size.trunc (old &&& ~~~size.mask ||| size.low x) = size.trunc x := by
  apply BitVec.eq_of_getLsbD_eq
  intro k hk
  rw [Size.getLsbD_trunc, Size.getLsbD_trunc, getLsbD_merge, if_pos hk]

theorem wrote_poke (hl : l.fault? size = none) (x : UInt32) :
    s.Wrote (s.poke size x l) size l (size.trunc x) := by
  cases l with
  | data n =>
    refine ⟨fun _ => ?_, rfl, fun _ _ => rfl, fun k b hb => ?_⟩
    · simp [element, poke, trunc_merge]
    · by_cases hn : n = k
      · subst hn
        have hlow : ¬ b < size.bits := Nat.not_lt.mpr (hb rfl)
        have hmerge := getLsbD_merge size (s.regs.d.get n) x b
        rw [if_neg hlow] at hmerge
        simpa [poke] using hmerge
      · simp [poke, hn]
  | address n => exact ⟨fun h => absurd rfl (h n), rfl, fun _ _ => rfl, fun _ _ _ => rfl⟩
  | memory a =>
    have hrange : a.toNat + size.bytes ≤ Memory.capacity := by
      simpa [Location.fault?, Memory.inRange] using hl
    refine ⟨fun _ => s.mem.element_put size a.toNat x hrange, by simp [poke], fun c hc => ?_,
      fun _ _ _ => rfl⟩
    have hput := s.mem.cell_put a.toNat c (BigEndian.bytes size x) (by simpa using hrange)
    rw [BigEndian.bytes_length, if_neg] at hput
    · exact hput
    · have := hc a rfl
      omega

theorem element_settle {i : Instruction} {slot : Slot} (hl : i.reach slot size s.regs.a = .ok l) :
    (s.settle i slot size).element size l = s.element size l := by
  obtain ⟨op, hop, hp, -⟩ := Instruction.reach_eq_ok.mp hl
  cases l with
  | data n => simp [element]
  | memory a => simp [element]
  | address n =>
    have hreg : op.mode.isRegister = true := by
      unfold Operand.place at hp
      cases hm : op.mode <;> simp [hm, Mode.isRegister] at hp ⊢
    rw [settle_register hop hreg]

end Datapath
end Micro68
