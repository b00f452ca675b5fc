import Micro68.Machine
import Micro68.Proofs.Elements

/-! Program images in memory: a machine that has loaded an image finds its bytes from address 0 on, and
zeros behind them. -/
namespace Micro68

namespace BigEndian

theorem toNat_word (hi lo : UInt8) : (word hi lo).toNat = 256 * hi.toNat + lo.toNat := by
  have hhi : hi.toNat < 2 ^ 8 := hi.toNat_lt
  have hlo : lo.toNat < 2 ^ 8 := lo.toNat_lt
  have hshift : (hi.toUInt16 <<< 8).toNat = hi.toNat <<< 8 := by
    rw [UInt16.toNat_shiftLeft, UInt8.toNat_toUInt16, Nat.shiftLeft_eq, Nat.shiftLeft_eq]
    change hi.toNat * 2 ^ 8 % 2 ^ 16 = _
    omega
  rw [word, UInt16.toNat_or, hshift, UInt8.toNat_toUInt16, ← Nat.shiftLeft_add_eq_or_of_lt hlo,
    Nat.shiftLeft_eq]
  omega

theorem value_pair (hi lo : UInt8) : (value [hi, lo]).toUInt16 = word hi lo := by
  have hhi : hi.toNat < 2 ^ 8 := hi.toNat_lt
  have hlo : lo.toNat < 2 ^ 8 := lo.toNat_lt
  apply UInt16.toNat_inj.mp
  rw [UInt32.toNat_toUInt16, toNat_value, toNat_word]
  show (256 * (256 * 0 + hi.toNat) + lo.toNat) % 2 ^ 32 % 2 ^ 16 = _
  omega

end BigEndian

namespace Memory

theorem read_word (m : Memory) (a : UInt16) :
    m.read .word a = if a.toNat + 2 ≤ capacity then
      .ok (BigEndian.value [m.cell a.toNat, m.cell (a.toNat + 1)])
    else .error (rangeError .word a) := by
  have hslice : m.slice a.toNat 2 = [m.cell a.toNat, m.cell (a.toNat + 1)] := rfl
  unfold read inRange
  rw [Size.bytes, hslice]
  split <;> simp_all

theorem put_withLength (m : Memory) (n a : Nat) (bs : List UInt8) :
    ({ m with imageLen := n } : Memory).put a bs = { m.put a bs with imageLen := n } := by
  induction bs generalizing m a with
  | nil => rfl
  | cons b bs ih => exact ih (m.setCell a b) (a + 1)

theorem toNat_address {a : Nat} (h : a < capacity) : (UInt16.ofNat a).toNat = a :=
  UInt16.toNat_ofNat_of_lt' (Nat.lt_trans h (by decide))

/-- A byte that has a cell is never refused. -/
theorem place_eq (m : Memory) {a : Nat} (h : a < capacity) (b : UInt8) :
    place (UInt16.ofNat a) b m =
      .ok () { m.setCell a b with imageLen := max m.imageLen (a + 1) } := by
  have hrange : inRange .byte (UInt16.ofNat a) = true := by
    rw [inRange, toNat_address h, decide_eq_true_eq, Size.bytes]
    exact h
  rw [place_run, if_pos hrange, toNat_address h]

theorem placeFrom_of_place {m m' : Memory} {a : Nat} {b : UInt8}
    (h : place (UInt16.ofNat a) b m = .ok () m') (bs : List UInt8) :
    placeFrom a (b :: bs) m = placeFrom (a + 1) bs m' := by
  simp only [placeFrom, bind, EStateM.bind, h]

theorem placeFrom_eq (m : Memory) (a : Nat) (bs : List UInt8) (h : a + bs.length ≤ capacity)
    (ha : a ≤ m.imageLen) :
    placeFrom a bs m =
      .ok () { m.put a bs with imageLen := max m.imageLen (a + bs.length) } := by
  induction bs generalizing m a with
  | nil =>
    have hmax : max m.imageLen (a + 0) = m.imageLen := Nat.max_eq_left ha
    rw [placeFrom, List.length_nil, hmax]
    rfl
  | cons b bs ih =>
    rw [List.length_cons] at h ⊢
    have hnext := ih { m.setCell a b with imageLen := max m.imageLen (a + 1) } (a + 1) (by omega)
      (Nat.le_max_right _ _)
    have hmax : max (max m.imageLen (a + 1)) (a + 1 + bs.length) =
        max m.imageLen (a + (bs.length + 1)) := by omega
    rw [put_withLength, hmax] at hnext
    rw [placeFrom_of_place (place_eq m (by omega) b)]
    exact hnext

theorem placeImage_of_placeFrom {m m' : Memory} {image : List UInt8}
    (hfits : image.length ≤ capacity) (h : placeFrom 0 image m.clear = .ok () m') :
    placeImage image m = .ok m'.imageLen m' := by
  have hrest : (placeFrom 0 image >>= fun _ => return (← get).imageLen) m.clear =
      .ok m'.imageLen m' := by
    simp only [bind, EStateM.bind, h]
    rfl
  rw [placeImage, if_pos hfits]
  exact hrest

theorem placeImage_eq (m : Memory) {image : List UInt8} (h : image.length ≤ capacity) :
    placeImage image m =
      .ok image.length { empty.put 0 image with imageLen := image.length } := by
  have hplaced := placeFrom_eq m.clear 0 image (by omega) (Nat.zero_le _)
  rw [Nat.zero_add, show m.clear.imageLen = 0 from rfl, Nat.zero_max] at hplaced
  exact placeImage_of_placeFrom h hplaced

theorem placeImage_of_excess (m : Memory) {image : List UInt8} (h : capacity < image.length) :
    placeImage image m =
      .error ⟨UInt64.ofNat capacity, UInt64.ofNat (image.length - capacity)⟩ m := by
  rw [placeImage, if_neg (Nat.not_le.mpr h)]
  rfl

/-- Memory holds an image, and nothing else. -/
def Holds (m : Memory) (image : List UInt8) : Prop := ∀ c, m.cell c = image.getD c 0

theorem holds_loaded {image : List UInt8} (h : image.length ≤ capacity) (n : Nat) :
    Holds { empty.put 0 image with imageLen := n } image := by
  intro c
  have hput := cell_put empty 0 c image (by omega)
  change (empty.put 0 image).cell c = _
  rw [hput, cell_empty, Nat.zero_add, Nat.sub_zero]
  split
  · rfl
  · rename_i hc
    have hlen : image.length ≤ c := by omega
    rw [List.getD_eq_getElem?_getD, List.getElem?_eq_none hlen]
    rfl

end Memory

namespace Machine

variable {κ : Type} (m : Machine κ) {image : List UInt8}

theorem loadInPlace_eq (h : image.length ≤ Memory.capacity) :
    loadInPlace image m = .ok image.length
      { m with mem := { Memory.empty.put 0 image with imageLen := image.length } } := by
  rw [loadInPlace, Memory.placeImage_eq _ h]

/-- An image that does not fit is refused before anything has changed. -/
theorem loadInPlace_of_excess (h : Memory.capacity < image.length) :
    loadInPlace image m = .error ⟨0x1001, UInt64.ofNat (image.length - 0x1001)⟩ m := by
  have hcap : UInt64.ofNat Memory.capacity = 0x1001 := by decide
  rw [loadInPlace, Memory.placeImage_of_excess _ h, hcap, Memory.capacity]

theorem loadProgram_eq (h : image.length ≤ Memory.capacity) : m.loadProgram image =
    .ok { m with mem := { Memory.empty.put 0 image with imageLen := image.length } } := by
  rw [loadProgram, outcome, loadInPlace_eq m h]

theorem loadProgram_of_excess (h : Memory.capacity < image.length) :
    m.loadProgram image = .error ⟨0x1001, UInt64.ofNat (image.length - 0x1001)⟩ := by
  rw [loadProgram, outcome, loadInPlace_of_excess m h]

end Machine
end Micro68
