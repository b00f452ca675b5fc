import Micro68.Image
import Micro68.Proofs.Halting
import Micro68.Proofs.LoadedImage

/-! Histories. Whatever is done to a new machine from outside, in whatever order: memory keeps its
size, the last fault is the last one reported and has halted the machine, the counter tells how many
steps the machine has run since the last reset, and only a reset makes a halted machine run again. -/
namespace Micro68

namespace Memory

/-- What can be done to a memory from outside. -/
inductive Operation where
  | read (size : Size) (address : UInt16)
  | write (size : Size) (address : UInt16) (data : UInt32)
  | access (direction : Direction) (size : Size) (address : UInt16) (data : UInt32)
  | load (address : UInt16) (byte : UInt8)
  | clear
  deriving DecidableEq

def perform : Operation → EStateM RangeError Memory Unit
  | .read size address => fun m =>
    match m.read size address with
    | .ok _ => .ok () m
    | .error e => .error e m
  | .write size address data => store size address data
  | .access direction size address data => fun m =>
    match move direction size address (data, m) with
    | .ok _ (_, m') => .ok () m'
    | .error e (_, m') => .error e m'
  | .load address byte => place address byte
  | .clear => modify clear

/-- The memory after an operation, which may have failed. -/
def after (m : Memory) (op : Operation) : Memory := stateAfter (perform op) m

def afterImage (m : Memory) (image : List UInt8) : Memory := stateAfter (placeImage image) m

/-- What has been loaded lies inside memory. -/
def Fits (m : Memory) : Prop := m.imageLen ≤ capacity

variable {m : Memory}

theorem stateAfter_store (m : Memory) (s : Size) (a : UInt16) (x : UInt32) :
    stateAfter (store s a x) m =
      if inRange s a then m.put a.toNat (BigEndian.bytes s x) else m := by
  rw [stateAfter, store_run]
  cases inRange s a <;> rfl

theorem stateAfter_place (m : Memory) (a : UInt16) (b : UInt8) :
    stateAfter (place a b) m = if inRange .byte a then
      { m.setCell a.toNat b with imageLen := max m.imageLen (a.toNat + 1) } else m := by
  rw [stateAfter, place_run]
  cases inRange .byte a <;> rfl

theorem Fits.store (hm : m.Fits) (s : Size) (a : UInt16) (x : UInt32) :
    (stateAfter (Memory.store s a x) m).Fits := by
  rw [stateAfter_store]
  split
  · rw [Fits, imageLen_put]
    exact hm
  · exact hm

theorem Fits.after (hm : m.Fits) (op : Operation) : (m.after op).Fits := by
  cases op with
  | read size address =>
    simp only [Memory.after, stateAfter, Memory.perform]
    cases m.read size address <;> exact hm
  | write size address data => exact hm.store size address data
  | access direction size address data =>
    cases direction with
    | read =>
      simp only [Memory.after, stateAfter, Memory.perform, move]
      cases m.read size address <;> exact hm
    | write =>
      have hstore := hm.store size address data
      simp only [Memory.after, stateAfter, Memory.perform, move] at hstore ⊢
      cases hs : Memory.store size address data m <;> rw [hs] at hstore <;> exact hstore
  | load address byte =>
    rw [Memory.after, Memory.perform, stateAfter_place]
    split
    · rename_i hin
      exact Nat.max_le.mpr ⟨hm, of_decide_eq_true hin⟩
    · exact hm
  | clear => exact Nat.zero_le _

theorem Fits.afterImage (hm : m.Fits) (image : List UInt8) : (m.afterImage image).Fits := by
  rw [Memory.afterImage, stateAfter]
  by_cases hfits : image.length ≤ capacity
  · rw [placeImage_eq m hfits]
    exact hfits
  · rw [placeImage_of_excess m (Nat.not_le.mp hfits)]
    exact hm

end Memory

/-- What can be done to a machine from outside. -/
inductive Operation where
  | memory (op : Memory.Operation)
  | loadProgram (image : List UInt8)
  /-- Loads the program that a text gives the image of. -/
  | loadImage (text : String)
  | setRegisters (regs : Registers)
  | step
  | runLimited (limit : UInt64)
  | requestHalt
  | reset
  deriving DecidableEq

namespace Machine

section AnyConsole

variable {κ : Type}

theorem stateAfter_loadInPlace (m : Machine κ) (image : List UInt8) :
    stateAfter (loadInPlace image) m = { m with mem := m.mem.afterImage image } := by
  simp only [stateAfter, loadInPlace, Memory.afterImage]
  cases Memory.placeImage image m.mem <;> rfl

variable [Console κ]

def perform (m : Machine κ) : Operation → Machine κ
  | .memory op => { m with mem := m.mem.after op }
  | .loadProgram image => stateAfter (loadInPlace image) m
  | .loadImage text =>
    match Image.parse text with
    | .ok image => stateAfter (loadInPlace image) m
    | .error _ => m
  | .setRegisters regs => { m with regs := regs.withFlags { regs.flags with halt := m.isHalted } }
  | .step => m.step
  | .runLimited limit => (m.runLimited limit).2
  | .requestHalt => m.requestHalt
  | .reset => m.reset

/-- How many steps have found the machine running since the last reset, after an operation before
which there were `count` of them. -/
def tally (m : Machine κ) (count : Nat) : Operation → Nat
  | .step => count + m.executed 1
  | .runLimited limit => count + m.executed (min limit.toNat m.room)
  | .reset => 0
  | _ => count

def performAll (m : Machine κ) (ops : List Operation) : Machine κ := ops.foldl perform m

def tallyAll (m : Machine κ) (count : Nat) : List Operation → Nat
  | [] => count
  | op :: ops => (m.perform op).tallyAll (m.tally count op) ops

/-- An operation replaces memory, or registers without clearing H, or takes steps, or is a reset. -/
theorem perform_cases (m : Machine κ) (op : Operation) :
    (∃ mem, m.perform op = { m with mem } ∧ (m.mem.Fits → mem.Fits) ∧
      ∀ count, m.tally count op = count) ∨
    (∃ regs, m.perform op = { m with regs } ∧ (m.isHalted = true → regs.flags.halt = true) ∧
      ∀ count, m.tally count op = count) ∨
    (∃ n, m.perform op = step^[n] m ∧ ∀ count, m.tally count op = count + m.executed n) ∨
    op = .reset := by
  cases op with
  | memory op => exact .inl ⟨_, rfl, fun hm => hm.after op, fun _ => rfl⟩
  | loadProgram image =>
    exact .inl ⟨_, m.stateAfter_loadInPlace image, fun hm => hm.afterImage image, fun _ => rfl⟩
  | loadImage text =>
    rw [perform]
    cases Image.parse text with
    | ok image =>
      exact .inl ⟨_, m.stateAfter_loadInPlace image, fun hm => hm.afterImage image, fun _ => rfl⟩
    | error e => exact .inl ⟨m.mem, rfl, id, fun _ => rfl⟩
  | setRegisters regs => exact .inr (.inl ⟨_, rfl, id, fun _ => rfl⟩)
  | step => exact .inr (.inr (.inl ⟨1, rfl, fun _ => rfl⟩))
  | runLimited limit =>
    exact .inr (.inr (.inl ⟨_, congrArg Prod.snd (runLimited_eq limit m), fun _ => rfl⟩))
  | requestHalt => exact .inr (.inl ⟨_, rfl, fun _ => rfl, fun _ => rfl⟩)
  | reset => exact .inr (.inr (.inr rfl))

theorem isHalted_performAll {m : Machine κ} (hm : m.isHalted = true) {ops : List Operation}
    (hops : .reset ∉ ops) : (m.performAll ops).isHalted = true := by
  induction ops generalizing m with
  | nil => exact hm
  | cons op ops ih =>
    refine ih ?_ fun h => hops (List.mem_cons_of_mem _ h)
    rcases m.perform_cases op with ⟨mem, hp, -⟩ | ⟨regs, hp, hh, -⟩ | ⟨n, hp, -⟩ | rfl
    · rw [hp]; exact hm
    · rw [hp]; exact hh hm
    · rw [hp, iterate_step_of_halted hm]; exact hm
    · exact absurd List.mem_cons_self hops

end AnyConsole

/-- What holds after every history, for a machine that `count` steps have found running since the
last reset. -/
structure Controlled (m : Machine Scripted) (count : Nat) : Prop where
  /-- The type of memory already says so: no operation could change the number of cells. -/
  cells : m.mem.cells.toArray.size = 0x1001
  imageLen : m.mem.imageLen ≤ 0x1001
  /-- The machine stops at a fault, and the fault it keeps is the last one that was reported. -/
  fault : ∀ d, m.lastFault = some d → m.isHalted = true ∧ m.console.faults.back? = some d
  /-- The counter has 64 bits, and so tells the number of steps only up to multiples of 2^64; the number
  itself as long as there have been fewer. -/
  cycles : m.cycles.toNat = count % 2 ^ 64

namespace Controlled

variable {m : Machine Scripted} {count : Nat}

theorem initial (console : Scripted) : Controlled (new console) 0 where
  cells := (new console).mem.cells.size_toArray
  imageLen := Nat.zero_le _
  fault _ := nofun
  cycles := rfl

theorem lastFault_eq_none (h : Controlled m count) (hrun : m.isHalted = false) :
    m.lastFault = none := by
  refine Option.eq_none_iff_forall_ne_some.mpr fun d hd => ?_
  rw [(h.fault d hd).1] at hrun
  cases hrun

theorem step (h : Controlled m count) : Controlled m.step (count + m.executed 1) := by
  cases hrun : m.isHalted with
  | true => simpa [step_of_halted hrun, executed_of_halted hrun] using h
  | false =>
    refine ⟨m.step.mem.cells.size_toArray, ?_, fun d hd => ?_, ?_⟩
    · rw [step_imageLen]
      exact h.imageLen
    · cases hf : m.toDatapath.cycle.fault with
      | none =>
        rw [step_of_ok hrun hf, h.lastFault_eq_none hrun] at hd
        cases hd
      | some f =>
        obtain ⟨last, hlast, hpush⟩ := step_faults_of_fault hrun hf
        rw [hlast] at hd
        cases hd
        exact ⟨(step_isHalted hrun).mpr (.inr (by simp [hf])), by rw [hpush, Array.back?_push]⟩
    · have hone : m.executed 1 = 1 := executed_succ 0 hrun
      rw [step_cycles hrun, hone, UInt64.toNat_add, h.cycles, UInt64.toNat_one]
      omega

theorem iterate_step (h : Controlled m count) (n : Nat) :
    Controlled (Machine.step^[n] m) (count + m.executed n) := by
  induction n generalizing m count with
  | zero => exact h
  | succ n ih =>
    have hsplit : m.executed (n + 1) = m.executed 1 + m.step.executed n := by
      rw [Nat.add_comm, executed_add]
      rfl
    rw [hsplit, ← Nat.add_assoc, Function.iterate_succ_apply]
    exact ih h.step

theorem perform (h : Controlled m count) (op : Operation) :
    Controlled (m.perform op) (m.tally count op) := by
  rcases m.perform_cases op with ⟨mem, hp, hfits, ht⟩ | ⟨regs, hp, hh, ht⟩ | ⟨n, hp, ht⟩ | rfl
  · rw [hp, ht]
    exact ⟨mem.cells.size_toArray, hfits h.imageLen, h.fault, h.cycles⟩
  · rw [hp, ht]
    exact ⟨h.cells, h.imageLen, fun d hd => (h.fault d hd).imp_left hh, h.cycles⟩
  · rw [hp, ht]
    exact h.iterate_step n
  · exact ⟨h.cells, h.imageLen, fun _ => nofun, rfl⟩

theorem performAll (h : Controlled m count) (ops : List Operation) :
    Controlled (m.performAll ops) (m.tallyAll count ops) := by
  induction ops generalizing m count with
  | nil => exact h
  | cons op ops ih => exact ih (h.perform op)

end Controlled

/-- Whatever was done to a new machine, it is controlled. If it has halted then steps change it no
more and it stays halted until a reset; if not then its next step halts it by HLT, or by a fault,
which is reported, or not at all. -/
theorem performAll_controlled (console : Scripted) (ops : List Operation) :
    let m := (new console).performAll ops
    Controlled m ((new console).tallyAll 0 ops) ∧
    (m.isHalted = true → (∀ later, .reset ∉ later → (m.performAll later).isHalted = true) ∧
      m.step = m ∧ ∀ limit, m.runLimited limit = (0, m)) ∧
    (m.isHalted = false → (m.step.isHalted = true ↔
      m.Executes .hlt ∨ ∃ d, m.step.console.faults = m.console.faults.push d)) := by
  intro m
  refine ⟨(Controlled.initial console).performAll ops, fun hm => ⟨fun _ => isHalted_performAll hm,
    step_of_halted hm, fun limit => ?_⟩, step_isHalted_iff⟩
  rw [runLimited_eq, iterate_step_of_halted hm, executed_of_halted hm]
  rfl

/-- `DSR` and `HLT`, step by step. -/
theorem performAll_controlled_halting :
    let start := new ({ replies := [] } : Scripted)
    let first := start.performAll [.loadProgram [0xF0, 0x00, 0xF8, 0x00], .step]
    let second := start.performAll [.loadProgram [0xF0, 0x00, 0xF8, 0x00], .step, .step]
    first.isHalted = false ∧ first.cycles.toNat = 1 ∧ first.Executes .hlt ∧
      second.isHalted = true ∧ second.runLimited 7 = (0, second) := by
  intro start first second
  have hfirst := performAll_controlled { replies := [] }
    [.loadProgram [0xF0, 0x00, 0xF8, 0x00], .step]
  have hsecond := performAll_controlled { replies := [] }
    [.loadProgram [0xF0, 0x00, 0xF8, 0x00], .step, .step]
  have hrun : first.isHalted = false := by decide +kernel
  have hnext : first.step.isHalted = true := by decide +kernel
  have hhalted : second.isHalted = true := by decide +kernel
  have hfaults : first.step.console.faults.size = first.console.faults.size := by decide +kernel
  obtain ⟨hcontrolled, -, hhalts⟩ := hfirst
  refine ⟨hrun, ?_, ?_, hhalted, (hsecond.2.1 hhalted).2.2 7⟩
  · rw [hcontrolled.cycles]
    decide +kernel
  · refine ((hhalts hrun).mp hnext).resolve_right ?_
    rintro ⟨d, hd⟩
    have hsize := congrArg Array.size hd
    dsimp only [first, start] at hfaults
    rw [Array.size_push, hfaults] at hsize
    omega

end Machine
end Micro68
