import Micro68.Console.Scripted
import Micro68.Proofs.LoadedImage

/-! The loader in place. Bytes are deposited one after the other in a memory that keeps those already
there, also where a later one is refused, so that loading could leave a part of an image behind. It never
does: an image that is too long is refused before memory is cleared, and no byte of any other is
refused. -/
namespace Micro68

namespace Memory

variable {m m' : Memory} {xs : List UInt8}

theorem placeFrom_append (a : Nat) (xs ys : List UInt8) :
    placeFrom a (xs ++ ys) = placeFrom a xs >>= fun _ => placeFrom (a + xs.length) ys := by
  induction xs generalizing a with
  | nil => simp [placeFrom]
  | cons b bs ih =>
    have hnext : a + 1 + bs.length = a + (bs.length + 1) := by omega
    simp [placeFrom, ih, hnext]

/-- Memory after an image: its bytes from address 0 on, zeros behind them, and its length on record. -/
structure Loaded (m : Memory) (image : List UInt8) : Prop where
  cells : m.cells.toList = image ++ List.replicate (capacity - image.length) 0
  imageLen : m.imageLen = image.length

theorem loaded_clear (m : Memory) : m.clear.Loaded [] where
  cells := Vector.toList_replicate
  imageLen := rfl

theorem Loaded.place (h : m.Loaded xs) (hfits : xs.length < capacity) (b : UInt8) :
    ∃ m', Memory.place (UInt16.ofNat xs.length) b m = .ok () m' ∧ m'.Loaded (xs ++ [b]) := by
  refine ⟨{ m.setCell xs.length b with imageLen := max m.imageLen (xs.length + 1) },
    place_eq m hfits b, ?_, ?_⟩
  · have hzeros : capacity - xs.length = capacity - (xs ++ [b]).length + 1 := by
      rw [List.length_append, List.length_singleton]
      omega
    change (m.cells.setIfInBounds xs.length b).toList = _
    rw [Vector.toList_setIfInBounds, h.cells, List.set_append_right _ _ (Nat.le_refl _), Nat.sub_self,
      hzeros, List.replicate_succ, List.set_cons_zero, List.append_assoc, List.singleton_append]
  · change max m.imageLen (xs.length + 1) = _
    rw [h.imageLen, List.length_append, List.length_singleton]
    exact Nat.max_eq_right (Nat.le_succ _)

/-- By induction on the bytes to come: while they have cells, none of them is refused. -/
theorem Loaded.placeFrom (h : m.Loaded xs) (bs : List UInt8) (hfits : (xs ++ bs).length ≤ capacity) :
    ∃ m', Memory.placeFrom xs.length bs m = .ok () m' ∧ m'.Loaded (xs ++ bs) := by
  induction bs generalizing m xs with
  | nil => exact ⟨m, rfl, by rwa [List.append_nil]⟩
  | cons b bs ih =>
    have hroom : xs.length < capacity := by
      rw [List.length_append, List.length_cons] at hfits
      omega
    obtain ⟨m', hplace, hnext⟩ := h.place hroom b
    rw [List.append_cons] at hfits ⊢
    obtain ⟨final, hrest, hfinal⟩ := ih hnext hfits
    rw [List.length_append, List.length_singleton] at hrest
    exact ⟨final, (placeFrom_of_place hplace bs).trans hrest, hfinal⟩

theorem placeFrom_clear (m : Memory) {image : List UInt8} (hfits : image.length ≤ capacity) :
    ∃ m', placeFrom 0 image m.clear = .ok () m' ∧ m'.Loaded image :=
  (loaded_clear m).placeFrom image hfits

theorem place_byte (m : Memory) {image : List UInt8} (hfits : image.length ≤ capacity) {k : Nat}
    (hk : k < image.length) :
    (UInt16.ofNat k).toNat = k ∧ ∃ before after,
      placeFrom 0 (image.take k) m.clear = .ok () before ∧
      place (UInt16.ofNat k) image[k] before = .ok () after ∧
      placeFrom 0 (image.take (k + 1)) m.clear = .ok () after := by
  have hlen : (image.take k).length = k := List.length_take_of_le (Nat.le_of_lt hk)
  have htake : (image.take k).length ≤ capacity := by omega
  obtain ⟨before, hbefore, hloaded⟩ := placeFrom_clear m htake
  obtain ⟨after, hplace, -⟩ := hloaded.place (by omega) image[k]
  rw [hlen] at hplace
  have hlast : placeFrom k [image[k]] before = .ok () after := placeFrom_of_place hplace []
  refine ⟨toNat_address (by omega), before, after, hbefore, hplace, ?_⟩
  rw [List.take_succ_eq_append_getElem hk, placeFrom_append, hlen, Nat.zero_add]
  simp only [bind, EStateM.bind, hbefore, hlast]

end Memory

namespace Machine

variable {κ : Type}

theorem loadInPlace_of_fits (m : Machine κ) {image : List UInt8}
    (hfits : image.length ≤ Memory.capacity) :
    ∃ mem, mem.Loaded image ∧ loadInPlace image m = .ok image.length { m with mem } := by
  obtain ⟨mem, hplaced, hloaded⟩ := Memory.placeFrom_clear m.mem hfits
  refine ⟨mem, hloaded, ?_⟩
  rw [loadInPlace, Memory.placeImage_of_placeFrom hfits hplaced, hloaded.imageLen]

/-- A program is loaded as a whole or not at all. It is loaded if it has at most $1001 bytes; then its
length is given, memory holds it and zeros only, and none of its bytes was refused or went to a cell
other than its own. Otherwise the machine is what it was. -/
theorem load_allOrNothing (m : Machine κ) (image : List UInt8) :
    ((∃ m', m.loadProgram image = .ok m') ↔ image.length ≤ 0x1001) ∧
    (image.length ≤ 0x1001 →
      (∃ mem, mem.Loaded image ∧ loadInPlace image m = .ok image.length { m with mem } ∧
        m.loadProgram image = .ok { m with mem }) ∧
      ∀ k (hk : k < image.length), (UInt16.ofNat k).toNat = k ∧ ∃ before after,
        Memory.placeFrom 0 (image.take k) m.mem.clear = .ok () before ∧
        Memory.place (UInt16.ofNat k) image[k] before = .ok () after ∧
        Memory.placeFrom 0 (image.take (k + 1)) m.mem.clear = .ok () after) ∧
    (0x1001 < image.length →
      loadInPlace image m = .error ⟨0x1001, UInt64.ofNat (image.length - 0x1001)⟩ m ∧
      m.loadProgram image = .error ⟨0x1001, UInt64.ofNat (image.length - 0x1001)⟩) := by
  have hloads (hfits : image.length ≤ Memory.capacity) : ∃ mem, mem.Loaded image ∧
      loadInPlace image m = .ok image.length { m with mem } ∧
      m.loadProgram image = .ok { m with mem } := by
    obtain ⟨mem, hloaded, hin⟩ := m.loadInPlace_of_fits hfits
    exact ⟨mem, hloaded, hin, by rw [loadProgram, outcome, hin]⟩
  refine ⟨⟨?_, fun hfits => ?_⟩, fun hfits => ?_, fun hexcess => ?_⟩
  · rintro ⟨m', hload⟩
    refine Nat.not_lt.mp fun hexcess => ?_
    cases (m.loadProgram_of_excess hexcess).symm.trans hload
  · obtain ⟨mem, -, -, hload⟩ := hloads hfits
    exact ⟨_, hload⟩
  · exact ⟨hloads hfits, fun k hk => Memory.place_byte m.mem hfits hk⟩
  · exact ⟨m.loadInPlace_of_excess hexcess, m.loadProgram_of_excess hexcess⟩

/-- Over a full memory, two bytes leave no trace of what was there. An image that is two bytes too long
leaves all of it. -/
theorem load_allOrNothing_full :
    let m : Machine Scripted :=
      { new { replies := ["7"] } with
        mem := ⟨Vector.replicate Memory.capacity 0xAA, Memory.capacity⟩
        regs := { pc := 6 }, cycles := 3 }
    (∃ mem, mem.cells.toList = 0xF8 :: List.replicate 0x1000 0 ∧ mem.imageLen = 2 ∧
      loadInPlace [0xF8, 0x00] m = .ok 2 { m with mem }) ∧
    loadInPlace (List.replicate 0x1003 0xF8) m = .error ⟨0x1001, 2⟩ m := by
  intro m
  obtain ⟨⟨mem, hloaded, hin, -⟩, -⟩ := (load_allOrNothing m [0xF8, 0x00]).2.1 (by decide)
  have hlen : (List.replicate 0x1003 (0xF8 : UInt8)).length = 0x1003 := List.length_replicate
  have hrefused := ((load_allOrNothing m (List.replicate 0x1003 0xF8)).2.2 (by rw [hlen]; decide)).1
  rw [hlen] at hrefused
  exact ⟨⟨mem, hloaded.cells, hloaded.imageLen, hin⟩, hrefused⟩

end Machine
end Micro68
