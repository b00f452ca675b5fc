import Mathlib.Algebra.BigOperators.Group.Finset.Basic
import Micro68.Proofs.Histories

/-! Histories of a memory, cell by cell. An operation succeeds if all its bytes lie inside memory and
otherwise changes nothing, so after any sequence of operations a cell holds the byte that the last
successful operation on it gave it; and a read composes the cells it covers. -/
namespace Micro68

theorem BigEndian.getD_bytes (s : Size) (x : UInt32) {k : Nat} (hk : k < s.bytes) :
    (bytes s x).getD k 0 = UInt8.ofNat (x.toNat / 256 ^ (s.bytes - 1 - k)) := by
  have hbytes : s.bytes ≤ 4 := by cases s <;> decide
  have hbyte : (bytes s x).getD k 0 = (x >>> UInt32.ofNat (8 * (s.bytes - 1 - k))).toUInt8 := by
    rw [bytes, List.getD_eq_getElem?_getD, List.getElem?_map,
      List.getElem?_reverse (by rw [List.length_range]; exact hk), List.length_range,
      List.getElem?_range (by omega)]
    rfl
  have hplace : (UInt32.ofNat (8 * (s.bytes - 1 - k))).toNat = 8 * (s.bytes - 1 - k) :=
    UInt32.toNat_ofNat_of_lt' (show 8 * (s.bytes - 1 - k) < 2 ^ 32 by omega)
  have hshift : 8 * (s.bytes - 1 - k) % 32 = 8 * (s.bytes - 1 - k) := Nat.mod_eq_of_lt (by omega)
  rw [hbyte]
  apply UInt8.toNat_inj.mp
  rw [UInt32.toNat_toUInt8, UInt32.toNat_shiftRight, hplace, hshift, Nat.shiftRight_eq_div_pow,
    Nat.pow_mul, UInt8.toNat_ofNat']

namespace Memory

namespace Operation

def address : Operation → UInt16
  | read _ a | write _ a _ | access _ _ a _ | load a _ => a
  | clear => 0

def length : Operation → Nat
  | read s _ | write s _ _ | access _ s _ _ => s.bytes
  | load _ _ => 1
  | clear => 0

def inside (op : Operation) : Bool := op.address.toNat + op.length ≤ 0x1001

/-- The byte that an operation gives to a cell, if the cell is among those it changes. -/
def given : Operation → Nat → Option UInt8
  | write s a x, c | access .write s a x, c =>
    if a.toNat ≤ c ∧ c < a.toNat + s.bytes then
      some (UInt8.ofNat (x.toNat / 256 ^ (a.toNat + s.bytes - 1 - c)))
    else none
  | load a b, c => if a.toNat = c then some b else none
  | clear, _ => some 0
  | read _ _, _ | access .read _ _ _, _ => none

def imageLen : Operation → Nat → Nat
  | load a _, n => max n (a.toNat + 1)
  | clear, _ => 0
  | _, n => n

end Operation

def afterAll (m : Memory) (ops : List Operation) : Memory := ops.foldl after m

/-- The byte that the last successful operation on a cell gave it. -/
def lastGiven (ops : List Operation) (c : Nat) : Option UInt8 :=
  (ops.filter (·.inside)).reverse.findSome? (·.given c)

variable (m : Memory) (op : Operation) (ops : List Operation)

theorem cell_write {s : Size} {a : UInt16} (x : UInt32) (c : Nat) (h : inRange s a = true) :
    (m.put a.toNat (BigEndian.bytes s x)).cell c =
      ((Operation.write s a x).given c).getD (m.cell c) := by
  have hin : a.toNat + (BigEndian.bytes s x).length ≤ capacity := by
    rw [BigEndian.bytes_length]
    exact of_decide_eq_true h
  rw [cell_put m a.toNat c _ hin, BigEndian.bytes_length, Operation.given]
  split
  · rename_i hc
    rw [BigEndian.getD_bytes s x (by omega), Option.getD_some]
    congr 3
    omega
  · rfl

theorem perform_of_inside (h : op.inside = true) :
    ∃ m', perform op m = .ok () m' ∧ m'.imageLen = op.imageLen m.imageLen ∧
      ∀ c < capacity, m'.cell c = (op.given c).getD (m.cell c) := by
  cases op with
  | read s a =>
    have hin : inRange s a = true := h
    exact ⟨m, by simp only [perform, read, hin, if_true], rfl, fun _ _ => rfl⟩
  | write s a x =>
    have hin : inRange s a = true := h
    exact ⟨_, by rw [perform, store_run, if_pos hin], imageLen_put .., fun c _ =>
      m.cell_write x c hin⟩
  | access dir s a x =>
    have hin : inRange s a = true := h
    cases dir with
    | read => exact ⟨m, by simp only [perform, move, read, hin, if_true], rfl, fun _ _ => rfl⟩
    | write =>
      exact ⟨_, by simp only [perform, move, store_run, hin, if_true], imageLen_put .., fun c _ =>
        m.cell_write x c hin⟩
  | load a b =>
    have hin : inRange .byte a = true := h
    refine ⟨{ m.setCell a.toNat b with imageLen := max m.imageLen (a.toNat + 1) },
      by rw [perform, place_run, if_pos hin], rfl, fun c hc => ?_⟩
    change (m.setCell a.toNat b).cell c = _
    rw [cell_setCell, Operation.given]
    by_cases hac : a.toNat = c <;> simp [hac, hc]
  | clear => exact ⟨_, rfl, rfl, fun c _ => cell_empty c⟩

theorem perform_of_not_inside (h : op.inside = false) :
    perform op m = .error ⟨op.address.toUInt64, UInt64.ofNat op.length⟩ m := by
  cases op with
  | read s a =>
    have hout : inRange s a = false := h
    simp only [perform, read, hout, if_false, Bool.false_eq_true]
    rfl
  | write s a x =>
    have hout : inRange s a = false := h
    rw [perform, store_run, hout, if_neg Bool.false_ne_true]
    rfl
  | access dir s a x =>
    have hout : inRange s a = false := h
    cases dir <;> simp only [perform, move, read, store_run, hout, if_false, Bool.false_eq_true] <;>
      rfl
  | load a b =>
    have hout : inRange .byte a = false := h
    rw [perform, place_run, hout, if_neg Bool.false_ne_true]
    rfl
  | clear => cases h

theorem after_of_not_inside (h : op.inside = false) : m.after op = m := by
  rw [after, stateAfter, perform_of_not_inside m op h]

/-- What one operation does to the cells, whether it succeeds or not. -/
theorem cell_after {c : Nat} (hc : c < capacity) :
    (m.after op).cell c = (lastGiven [op] c).getD (m.cell c) := by
  cases h : op.inside with
  | true =>
    obtain ⟨m', hm', -, hcell⟩ := m.perform_of_inside op h
    rw [after, stateAfter, hm']
    simpa [lastGiven, h] using hcell c hc
  | false => simp [m.after_of_not_inside op h, lastGiven, h]

theorem imageLen_after : (m.after op).imageLen =
    ([op].filter (·.inside)).foldl (fun n op => op.imageLen n) m.imageLen := by
  cases h : op.inside with
  | true =>
    obtain ⟨m', hm', hlen, -⟩ := m.perform_of_inside op h
    rw [after, stateAfter, hm']
    simpa [h] using hlen
  | false => simp [m.after_of_not_inside op h, h]

theorem lastGiven_cons (c : Nat) : lastGiven (op :: ops) c = (lastGiven ops c).or (lastGiven [op] c) := by
  rw [lastGiven, lastGiven, lastGiven, ← List.singleton_append, List.filter_append,
    List.reverse_append, List.findSome?_append]

theorem cell_afterAll {c : Nat} (hc : c < capacity) :
    (m.afterAll ops).cell c = (lastGiven ops c).getD (m.cell c) := by
  induction ops generalizing m with
  | nil => rfl
  | cons op ops ih =>
    change ((m.after op).afterAll ops).cell c = _
    rw [ih, cell_after m op hc, lastGiven_cons op ops]
    cases lastGiven ops c <;> rfl

theorem imageLen_afterAll : (m.afterAll ops).imageLen =
    (ops.filter (·.inside)).foldl (fun n op => op.imageLen n) m.imageLen := by
  induction ops generalizing m with
  | nil => rfl
  | cons op ops ih =>
    change ((m.after op).afterAll ops).imageLen = _
    rw [ih, imageLen_after, ← List.foldl_append, ← List.filter_append]
    rfl

/-- A read composes the cells it covers, the first one most significant. -/
theorem read_eq {s : Size} {a : UInt16} (h : a.toNat + s.bytes ≤ capacity) :
    ∃ x, m.read s a = .ok x ∧ x.toNat =
      ∑ k ∈ Finset.range s.bytes, (m.cell (a.toNat + k)).toNat * 256 ^ (s.bytes - 1 - k) := by
  have hin : inRange s a = true := decide_eq_true h
  refine ⟨_, by rw [read, if_pos hin], ?_⟩
  have hbyte (c : Nat) : (m.cell c).toNat < 256 := (m.cell c).toNat_lt
  have h0 := hbyte a.toNat
  have h1 := hbyte (a.toNat + 1)
  have h2 := hbyte (a.toNat + 2)
  have h3 := hbyte (a.toNat + 3)
  rw [BigEndian.toNat_value]
  cases s <;>
    simp [Size.bytes, slice, BigEndian.number, Finset.sum_range_succ, List.range_succ] <;> omega

/-- Memory is a map from addresses to bytes. Operations that lie inside memory succeed, the others
change nothing; each cell holds what the last successful operation on it gave it, or what it held at
the start; reads compose cells; and only loads and clearing change how much counts as loaded. -/
theorem afterAll_refines (m : Memory) (ops : List Operation) :
    let m' := m.afterAll ops
    (∀ c < 0x1001, m'.cell c = (lastGiven ops c).getD (m.cell c)) ∧
    m'.imageLen = (ops.filter (·.inside)).foldl (fun n op => op.imageLen n) m.imageLen ∧
    (∀ op : Operation,
      (op.inside = true → perform op m' = .ok () (m'.after op)) ∧
      (op.inside = false → perform op m' =
        .error ⟨op.address.toUInt64, UInt64.ofNat op.length⟩ m' ∧ m'.after op = m')) ∧
    ∀ (s : Size) (a : UInt16) (data : UInt32),
      (a.toNat + s.bytes ≤ 0x1001 → ∃ x, m'.read s a = .ok x ∧
        move .read s a (data, m') = .ok () (x, m') ∧
        move .write s a (data, m') = .ok () (data, m'.after (.write s a data)) ∧
        x.toNat =
          ∑ k ∈ Finset.range s.bytes, (m'.cell (a.toNat + k)).toNat * 256 ^ (s.bytes - 1 - k)) ∧
      (0x1001 < a.toNat + s.bytes → m'.read s a = .error ⟨a.toUInt64, UInt64.ofNat s.bytes⟩ ∧
        ∀ dir, move dir s a (data, m') =
          .error ⟨a.toUInt64, UInt64.ofNat s.bytes⟩ (data, m')) := by
  intro m'
  refine ⟨fun c hc => m.cell_afterAll ops hc, m.imageLen_afterAll ops,
    fun op => ⟨fun h => ?_, fun h => ⟨m'.perform_of_not_inside op h, m'.after_of_not_inside op h⟩⟩,
    fun s a data => ⟨fun h => ?_, fun h => ?_⟩⟩
  · obtain ⟨m'', hm'', -⟩ := m'.perform_of_inside op h
    rw [after, stateAfter, hm'']
  · obtain ⟨x, hx, hvalue⟩ := m'.read_eq h
    have hin : inRange s a = true := decide_eq_true h
    refine ⟨x, hx, ?_, ?_, hvalue⟩
    · simp only [move, hx]
    · simp only [move, after, stateAfter, perform, store_run, hin, if_true]
  · have hout : inRange s a = false := decide_eq_false (Nat.not_le_of_lt h)
    have hread : m'.read s a = .error ⟨a.toUInt64, UInt64.ofNat s.bytes⟩ := by
      rw [read, hout, if_neg Bool.false_ne_true]
      rfl
    refine ⟨hread, fun dir => ?_⟩
    cases dir with
    | read => simp only [move, hread]
    | write =>
      simp only [move, store_run, hout, if_false, Bool.false_eq_true]
      rfl

/-- A long up to the last cell, a long that does not fit, a word over the middle of the first one, and
a byte in the last cell. -/
theorem afterAll_refines_overlapping :
    let m := empty.afterAll [.write .long 0xFFD 0x11223344, .write .long 0xFFE 0xFFFFFFFF,
      .access .write .word 0xFFE 0xAABBCCDD, .load 0x1000 0xEE]
    m.cell 0xFFD = 0x11 ∧ m.cell 0xFFE = 0xCC ∧ m.cell 0xFFF = 0xDD ∧ m.cell 0x1000 = 0xEE ∧
      m.imageLen = 0x1001 ∧
      (∃ x, move .read .long 0xFFD (0, m) = .ok () (x, m) ∧ x.toNat = 0x11CCDDEE) ∧
      perform (.write .long 0xFFE 0xFFFFFFFF) m = .error ⟨0xFFE, 4⟩ m ∧
      move .read .word 0x1000 (7, m) = .error ⟨0x1000, 2⟩ (7, m) := by
  intro m
  obtain ⟨hcell, hlen, hop, haccess⟩ := afterAll_refines empty
    [.write .long 0xFFD 0x11223344, .write .long 0xFFE 0xFFFFFFFF,
      .access .write .word 0xFFE 0xAABBCCDD, .load 0x1000 0xEE]
  have h₀ : m.cell 0xFFD = 0x11 := (hcell 0xFFD (by decide)).trans (by decide)
  have h₁ : m.cell 0xFFE = 0xCC := (hcell 0xFFE (by decide)).trans (by decide)
  have h₂ : m.cell 0xFFF = 0xDD := (hcell 0xFFF (by decide)).trans (by decide)
  have h₃ : m.cell 0x1000 = 0xEE := (hcell 0x1000 (by decide)).trans (by decide)
  obtain ⟨x, -, hread, -, hvalue⟩ := (haccess .long 0xFFD 0).1 (by decide)
  refine ⟨h₀, h₁, h₂, h₃, hlen, ⟨x, hread, hvalue.trans ?_⟩, ((hop _).2 (by decide)).1,
    ((haccess .word 0x1000 7).2 (by decide)).2 .read⟩
  change ∑ k ∈ Finset.range 4, (m.cell (0xFFD + k)).toNat * 256 ^ (4 - 1 - k) = 0x11CCDDEE
  simp [Finset.sum_range_succ, h₀, h₁, h₂, h₃]

end Memory
end Micro68
