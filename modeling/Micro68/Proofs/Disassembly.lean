import Micro68.Proofs.Branches
import Micro68.Proofs.Decoding
import Micro68.Proofs.Interruption
import Micro68.Proofs.ListingItems
import Micro68.Proofs.LoadedImage
import Micro68.Proofs.TextLines

/-! Listings and the machine. At every address that the listing of an image shows, a machine that has
loaded the image finds the same instruction, with the same extension words, and goes on to the address
that the listing shows next. -/
namespace Micro68

namespace Listing

theorem sameForm_completeSlots (slots : List Slot) (p : Instruction × List UInt8) :
    p.1.SameForm (slots.foldl completeSlot p).1 := by
  induction slots generalizing p with
  | nil => exact .refl p.1
  | cons slot slots ih =>
    exact (Instruction.sameForm_setAddress p.1 slot (frontWord p.2)).trans (ih (completeSlot p slot))

theorem sameForm_complete (i : Instruction) (rest : List UInt8) : i.SameForm (complete i rest) := by
  rw [complete_eq]
  exact sameForm_completeSlots i.absoluteSlots (i, rest)

end Listing

/-- A word that lies inside an image, or behind it, is the same in memory and in the image. -/
theorem Memory.Holds.read_word {m : Memory} {image : List UInt8} (h : m.Holds image) {a : UInt16}
    {x : UInt32} (hwhole : a.toNat + 2 ≤ image.length ∨ image.length ≤ a.toNat)
    (hx : m.read .word a = .ok x) : x.toUInt16 = Listing.frontWord (image.drop a.toNat) := by
  rw [Memory.read_word] at hx
  split at hx
  · cases hx
    rw [BigEndian.value_pair, h, h]
    rcases hwhole with hin | hpast
    · rw [Listing.drop_eq_word hin]
      rfl
    · have hnext : image.length ≤ a.toNat + 1 := Nat.le_succ_of_le hpast
      rw [List.drop_eq_nil_of_le hpast, List.getD_eq_getElem?_getD, List.getD_eq_getElem?_getD,
        List.getElem?_eq_none hpast, List.getElem?_eq_none hnext]
      decide
  · cases hx

namespace Micro

variable {κ : Type}

theorem fetchAddresses_eq_complete {slots : List Slot} {i j : Instruction} {s t : Datapath κ}
    {rest : List UInt8}
    (hwords : ∀ k < slots.length, ∀ x,
      s.mem.read .word (s.regs.pc + UInt16.ofNat (2 * k)) = .ok x →
        x.toUInt16 = Listing.frontWord (rest.drop (2 * k)))
    (h : slots.foldlM fetchAddress i s = .ok j t) :
    j = (slots.foldl Listing.completeSlot (i, rest)).1 := by
  induction slots generalizing i s rest with
  | nil =>
    cases h
    rfl
  | cons slot slots ih =>
    rw [List.foldlM_cons] at h
    obtain ⟨k, u, hk, hu⟩ := bind_eq_ok.mp h
    rw [fetchAddress_run] at hk
    split at hk
    · rename_i x hx
      cases hk
      have hfirst : x.toUInt16 = Listing.frontWord rest := by
        refine hwords 0 (Nat.zero_lt_succ _) x ?_
        simpa using hx
      rw [hfirst] at hu
      -- one word further on in memory and in the bytes
      have hrest : ∀ n < slots.length, ∀ y,
          (s.jump (s.regs.pc + 2)).mem.read .word
              ((s.jump (s.regs.pc + 2)).regs.pc + UInt16.ofNat (2 * n)) = .ok y →
            y.toUInt16 = Listing.frontWord ((rest.drop 2).drop (2 * n)) := by
        intro n hn y hy
        have hstep : 2 * (n + 1) = 2 + 2 * n := by omega
        have hword := hwords (n + 1) (Nat.succ_lt_succ hn) y
        rw [hstep, UInt16.ofNat_add, ← UInt16.add_assoc] at hword
        rw [List.drop_drop]
        exact hword hy
      exact ih hrest hu
    · cases hk

end Micro

namespace Datapath

variable {κ : Type} {s t : Datapath κ} {image : List UInt8} {a : Nat} {i j : Instruction}

theorem toNat_behind {pc : UInt16} {k : Nat} (hpc : pc.toNat = a) (ha : a ≤ Memory.capacity)
    (hk : k ≤ 2) : (pc + 2 + UInt16.ofNat (2 * k)).toNat = a + 2 + 2 * k := by
  have hcap : Memory.capacity = 0x1001 := rfl
  have hoffset : (UInt16.ofNat (2 * k)).toNat = 2 * k :=
    UInt16.toNat_ofNat_of_lt' (show 2 * k < 2 ^ 16 by omega)
  rw [UInt16.toNat_add, UInt16.toNat_add, hoffset, hpc]
  change ((a + 2) % 2 ^ 16 + 2 * k) % 2 ^ 16 = a + 2 + 2 * k
  omega

theorem opcodePhase_of_holds (hm : s.mem.Holds image) (hlen : image.length ≤ Memory.capacity)
    (hpc : s.regs.pc.toNat = a) (hword : a + 1 < image.length) :
    s.opcodePhase = Instruction.decode (BigEndian.word (image.getD a 0) (image.getD (a + 1) 0)) := by
  unfold opcodePhase
  rw [Memory.read_word, hpc, if_pos (by omega)]
  dsimp only
  rw [BigEndian.value_pair, hm, hm]

theorem fetchOperands_eq_complete (hm : s.mem.Holds image) (hpc : s.regs.pc.toNat = a)
    (ha : a ≤ Memory.capacity)
    (hwhole : ∀ k < i.extensionWords, a + 2 + 2 * k + 2 ≤ image.length ∨
      image.length ≤ a + 2 + 2 * k)
    (h : Micro.fetchOperands i (s.begin.jump (s.regs.pc + 2)) = .ok j t) :
    j = Listing.complete i (image.drop (a + 2)) := by
  rw [Listing.complete_eq]
  refine Micro.fetchAddresses_eq_complete (fun k hk x hx => ?_)
    (Micro.fetchAddresses_of_fetchOperands h)
  have hk' : k < i.extensionWords := hk
  have haddr := toNat_behind hpc ha (Nat.le_trans (Nat.le_of_lt hk') i.extensionWords_le)
  have hread := hm.read_word (a := s.regs.pc + 2 + UInt16.ofNat (2 * k))
    (by rw [haddr]; exact hwhole k hk') hx
  rw [hread, haddr, List.drop_drop]

end Datapath

namespace Machine

variable {κ : Type} [Console κ] {m : Machine κ} {image : List UInt8} {n a : Nat}
  {item : ListingItem}

/-- A line of the listing that shows no instruction is a word that the machine cannot decode. -/
theorem unknown_iff (hrun : m.isHalted = false) (hm : m.mem.Holds image)
    (hlen : image.length ≤ Memory.capacity) (hpc : m.regs.pc.toNat = a)
    (hword : a + 1 < image.length)
    (hitem : item = Listing.itemAt (image.getD a 0) (image.getD (a + 1) 0) (image.drop (a + 2))) :
    item.text = (ListingItem.unknown (BigEndian.word (image.getD a 0) (image.getD (a + 1) 0))).text ↔
      m.toDatapath.cycle.fault = some (.invalidSize 3) ∧ m.step.lastInstruction = none := by
  have hphase := Datapath.opcodePhase_of_holds hm hlen hpc hword
  rw [hitem, Listing.itemAt, step_lastInstruction hrun]
  cases hd : Instruction.decode (BigEndian.word (image.getD a 0) (image.getD (a + 1) 0)) with
  | error f =>
    rw [hd, Instruction.decode_error hd] at hphase
    have hcycle := Datapath.cycle_of_opcodePhase_error hrun hphase
    exact ⟨fun _ => hcycle, fun _ => rfl⟩
  | ok i =>
    rw [hd] at hphase
    constructor
    · intro htext
      exact absurd htext (Instruction.text_ne_unknown _ _)
    · rintro ⟨-, hnone⟩
      obtain ⟨j, hj, -⟩ := Datapath.cycle_instruction hrun hphase
      rw [hj] at hnone
      cases hnone

/-- An instruction whose words can be fetched is the one that the listing shows, and the machine goes
on behind its words unless it takes a branch. -/
theorem instruction_atLine (hrun : m.isHalted = false) (hm : m.mem.Holds image)
    (hlen : image.length ≤ Memory.capacity) (hpc : m.regs.pc.toNat = a)
    (hword : a + 1 < image.length)
    (hitem : item = Listing.itemAt (image.getD a 0) (image.getD (a + 1) 0) (image.drop (a + 2)))
    (hknown : ¬ (m.toDatapath.cycle.fault = some (.invalidSize 3) ∧ m.step.lastInstruction = none))
    (hfetch : m.toDatapath.fetchFault? = none) :
    ∃ i, m.step.lastInstruction = some i ∧ item.length = 2 + 2 * i.extensionWords ∧
      ((∀ k < i.extensionWords, a + 2 + 2 * k + 2 ≤ image.length ∨ image.length ≤ a + 2 + 2 * k) →
        item.text = i.text) ∧
      (m.takesBranch = false → m.step.regs.pc.toNat = a + 2 + 2 * i.extensionWords) := by
  have hphase := Datapath.opcodePhase_of_holds hm hlen hpc hword
  rw [step_lastInstruction hrun] at hknown ⊢
  cases hd : Instruction.decode (BigEndian.word (image.getD a 0) (image.getD (a + 1) 0)) with
  | error f =>
    rw [hd, Instruction.decode_error hd] at hphase
    exact absurd (Datapath.cycle_of_opcodePhase_error hrun hphase) hknown
  | ok i =>
    rw [hd] at hphase
    obtain ⟨j, t, hj, hinstr, hend⟩ := Datapath.cycle_completed hrun hphase hfetch
    obtain ⟨hform, ht⟩ := Micro.fetchOperands_ok hj
    have hext := hform.extensionWords
    have hshown : item = .instruction (Listing.complete i (image.drop (a + 2))) := by
      rw [hitem, Listing.itemAt, hd]
    refine ⟨j, hinstr, ?_, fun hwhole => ?_, fun hb => ?_⟩
    · rw [hshown, hext]
      exact congrArg (2 + 2 * ·) (Listing.sameForm_complete i (image.drop (a + 2))).extensionWords
    · rw [hext] at hwhole
      rw [hshown, Datapath.fetchOperands_eq_complete hm hpc (by omega) hwhole hj]
      rfl
    · have hstay : m.toDatapath.cycle.state.regs.pc = t.regs.pc := by
        rcases hend with ⟨he, hok⟩ | ⟨f, he, -⟩
        · refine execute_pc (by rw [ht]; rfl) he ?_
          rw [takesBranch, hok, hinstr] at hb
          rw [ht]
          exact hb
        · exact (execute_error (by rw [ht]; rfl) he).pc
      rw [step_pc hrun, hstay, ht, hext]
      exact Datapath.toNat_behind hpc (by omega) i.extensionWords_le

/-- A new machine with an image in memory and the program counter at an address. -/
def loadedAt (console : κ) (image : List UInt8) (a : Nat) : Except RangeError (Machine κ) :=
  ((new console).loadProgram image).map fun m =>
    { m with regs := m.regs.jump (UInt16.ofNat a) }

/-- The text of a listing and the machine that has loaded the image agree at every line that begins with
the address of a whole word: on what no instruction is, and otherwise, where the words of the instruction
can be fetched, on the instruction and on the address of the next line. -/
theorem step_listed (console : κ) (hlen : image.length ≤ 0x1001) :
    ∃ lines, Lines (Listing.text image) lines ∧ ∀ n a shown,
      lines[n]? = some (Hex.padded 4 a ++ ": " ++ shown) → a + 1 < image.length →
      ∃ m, loadedAt console image a = .ok m ∧
        (shown = "??? $" ++ Hex.padded 4
            (BigEndian.word (image.getD a 0) (image.getD (a + 1) 0)).toNat ↔
          m.step.lastFault.map (·.fault) = some (.invalidSize 3) ∧ m.step.lastInstruction = none) ∧
        (¬ (m.step.lastFault.map (·.fault) = some (.invalidSize 3) ∧
              m.step.lastInstruction = none) →
          m.toDatapath.fetchFault? = none →
          ∃ i, m.step.lastInstruction = some i ∧
            ((∀ k < i.extensionWords,
                a + 2 + 2 * k + 2 ≤ image.length ∨ image.length ≤ a + 2 + 2 * k) →
              shown = i.text) ∧
            (∀ next, lines[n + 1]? = some next →
              ∃ rest, next = Hex.padded 4 (a + 2 + 2 * i.extensionWords) ++ ": " ++ rest) ∧
            (m.takesBranch = false → m.step.regs.pc.toNat = a + 2 + 2 * i.extensionWords)) := by
  refine ⟨_, Listing.lines_text image, fun n a shown hline hword => ?_⟩
  obtain ⟨item, hat, rfl⟩ := Listing.getElem?_items_of_line (Listing.lines_text image) hline
  obtain ⟨hitem, hnext⟩ := Listing.getElem?_items hat hword
  have hm := Memory.holds_loaded hlen image.length
  have hpc : (UInt16.ofNat a).toNat = a :=
    UInt16.toNat_ofNat_of_lt' (show a < 2 ^ 16 by omega)
  refine ⟨{ new console with
    mem := { Memory.empty.put 0 image with imageLen := image.length }
    regs := { pc := UInt16.ofNat a } }, ?_, ?_, fun hknown hfetch => ?_⟩
  · rw [loadedAt, loadProgram_eq _ hlen]
    rfl
  · rw [step_lastFault rfl rfl]
    exact unknown_iff rfl hm hlen hpc hword hitem
  · rw [step_lastFault rfl rfl] at hknown
    obtain ⟨i, hi, hlength, htext, hstep⟩ :=
      instruction_atLine rfl hm hlen hpc hword hitem hknown hfetch
    refine ⟨i, hi, htext, fun next h => ?_, hstep⟩
    rw [List.getElem?_map] at h
    obtain ⟨⟨address, following⟩, hfollowing, rfl⟩ := Option.map_eq_some_iff.mp h
    obtain rfl : address = a + item.length := hnext _ hfollowing
    refine ⟨following.text, ?_⟩
    rw [hlength, ← Nat.add_assoc]
    rfl

/-- `ADD.W D0,$0100`, a word that is no instruction, and `HLT`. -/
theorem step_listed_absolute :
    let image : List UInt8 := [0x03, 0x06, 0x01, 0x00, 0x06, 0x00, 0xF8, 0x00]
    Listing.text image = "0000: ADD.W D0,$0100\n0004: ??? $0600\n0006: HLT\n" ∧
      (∃ m, loadedAt ({ replies := [] } : Scripted) image 0 = .ok m ∧
        m.step.lastInstruction.map (·.text) = some "ADD.W D0,$0100" ∧
        m.step.regs.pc.toNat = 4) ∧
      ∃ m, loadedAt ({ replies := [] } : Scripted) image 4 = .ok m ∧
        m.step.lastFault.map (·.fault) = some (.invalidSize 3) ∧
        m.step.lastInstruction = none := by
  intro image
  have htext : Listing.text image = "0000: ADD.W D0,$0100\n0004: ??? $0600\n0006: HLT\n" := by
    decide +kernel
  obtain ⟨lines, hlines, hstep⟩ := step_listed ({ replies := [] } : Scripted)
    (show image.length ≤ 0x1001 by decide)
  obtain rfl : lines = ["0000: ADD.W D0,$0100", "0004: ??? $0600", "0006: HLT"] :=
    hlines.unique ⟨htext, by decide⟩
  refine ⟨htext, ?_, ?_⟩
  · obtain ⟨m, hm, hunknown, hknown⟩ := hstep 0 0 "ADD.W D0,$0100" (by decide) (by decide)
    have hcycle : (loadedAt ({ replies := [] } : Scripted) image 0).toOption.map (fun m =>
        (m.toDatapath.fetchFault?, m.takesBranch)) = some (none, false) := by decide +kernel
    rw [hm] at hcycle
    obtain ⟨hfetch, hstay⟩ := Prod.mk.inj (Option.some.inj hcycle)
    obtain ⟨i, hi, hshown, hnext, hpc⟩ := hknown (mt hunknown.mpr (by decide)) hfetch
    -- the next line begins with the address of the next instruction
    obtain ⟨rest, hrest⟩ := hnext "0004: ??? $0600" rfl
    have hnextLine : Hex.padded 4 4 ++ ": " ++ "??? $0600" =
        Hex.padded 4 (0 + 2 + 2 * i.extensionWords) ++ ": " ++ rest := hrest
    have hfour : 0 + 2 + 2 * i.extensionWords = 4 := (Listing.line_inj hnextLine).1.symm
    refine ⟨m, hm, ?_, (hpc hstay).trans hfour⟩
    rw [hi, hshown fun k hk => .inl (by change _ ≤ 8; omega)]
    rfl
  · obtain ⟨m, hm, hunknown, -⟩ := hstep 1 4 "??? $0600" (by decide) (by decide)
    exact ⟨m, hm, hunknown.mp (by decide)⟩

end Machine
end Micro68
