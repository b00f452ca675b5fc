import Micro68.Proofs.Assembly
import Micro68.Proofs.ConsoleAccounts
import Micro68.Proofs.FetchedWords
import Micro68.Proofs.Sessions

/-! Traces and reports. Whether a session is traced, and how it reports, makes no difference to the
machine that it runs. A traced session notes the fault of every cycle and then the instruction that
the cycle has decoded, if it has decoded one; without a trace the same faults are noted. Every note is
one line. -/
namespace Micro68

def Note.trace? : Note → Option (UInt16 × Instruction)
  | fault _ => none
  | trace pc i => some (pc, i)

def Note.lines (notes : List Note) : String := String.join (notes.map fun n => n.text ++ "\n")

/-- The instruction that the next cycle decodes, if it can fetch and decode one, with the words behind
it where all of them can be fetched. -/
def Datapath.decoded? {κ : Type} (s : Datapath κ) : Option Instruction :=
  s.opcodePhase.toOption.map fun i =>
    if s.fetchFault?.isSome then i
    else i.withWords fun k => s.mem.wordAt (s.regs.pc.toNat + 2 + 2 * k)

section Cycles

variable {κ : Type} [Console κ]

theorem Datapath.cycle_decoded {s : Datapath κ} (hrun : s.regs.flags.halt = false) :
    s.cycle.instruction = s.decoded? := by
  unfold decoded?
  cases hi : s.opcodePhase with
  | error f => exact (cycle_of_opcodePhase_error hrun hi).2
  | ok i =>
    cases hf : s.fetchFault? with
    | some f => exact (cycle_of_fetchFault hrun hi hf).2
    | none => exact (cycle_fetched hrun hi hf).1

namespace Machine

/-- What a traced session notes of the next cycle, its fault before its instruction. -/
def notes (m : Machine κ) : List Note :=
  (m.report?.map .fault).toList ++ (m.toDatapath.decoded?.map (.trace m.regs.pc)).toList

theorem notes_filter (m : Machine κ) :
    m.notes.filter (fun n => n.trace?.isNone) = (m.report?.map .fault).toList := by
  unfold notes
  cases m.report? <;> cases m.toDatapath.decoded? <;> simp [Note.trace?]

theorem notes_filterMap (m : Machine κ) :
    m.notes.filterMap Note.trace? = (m.toDatapath.decoded?.map fun i => (m.regs.pc, i)).toList := by
  unfold notes
  cases m.report? <;> cases m.toDatapath.decoded? <;> rfl

end Machine

end Cycles

section Lines

theorem OneLine.quote (cs : List Char) : OneLine (Text.quote cs) := by
  have hdigits : ∀ n, '\n' ∉ Nat.toDigits 16 n := by
    intro n h
    obtain ⟨d, hd, hc⟩ := Hex.mem_toDigits (by decide) h
    have hnone : ∀ d < 16, Nat.digitChar d ≠ '\n' := by decide
    exact hnone d hd hc.symm
  have hchar : ∀ c, '\n' ∉ Text.quoteChar c := by
    intro c
    by_cases hnewLine : c = '\n'
    · subst c
      decide
    · unfold Text.quoteChar Text.escapeNumber
      split_ifs <;> simp [hdigits, Ne.symm hnewLine]
  simp [OneLine, Text.quote, hchar]

theorem ConsoleError.oneLine_of_terminal {t : Terminal} {request : InputRequest} {e : ConsoleError}
    (h : (Console.readValue t request).1 = .error e) : OneLine e.message := by
  change (Terminal.readValue t request).1 = _ at h
  unfold Terminal.readValue at h
  dsimp only at h
  split at h
  · cases h
    decide
  · split at h
    · rw [readReply_error h]
      simp only [message, OneLine.append_iff, OneLine.quote, and_true]
      decide
    · rename_i reason hreason
      cases h
      obtain rfl : reason = invalidText := by
        unfold decodeText at hreason
        split at hreason <;> cases hreason
        rfl
      decide

theorem RangeError.oneLine (e : RangeError) : OneLine e.message := by
  unfold message
  simp
  decide

theorem Fault.oneLine {f : Fault} (h : ∀ reason, f = .inputUnavailable reason → OneLine reason) :
    OneLine f.message := by
  have hnumber : ∀ (text : String) (n : Nat), OneLine text → OneLine (text ++ toString n) := by
    intro text n htext
    simp [htext]
  cases f with
  | outOfRange e => exact e.oneLine
  | invalidMode code => exact hnumber "invalid addressing mode " _ (by decide)
  | invalidSize code => exact hnumber "invalid data size " _ (by decide)
  | invalidOperandCount count => exact hnumber "invalid number of operands " _ (by decide)
  | invalidInstruction id => exact hnumber "invalid instruction " _ (by decide)
  | divisionByZero => decide
  | inputUnavailable reason => exact OneLine.append_iff.mpr ⟨by decide, h reason rfl⟩

theorem Diagnostic.oneLine {d : Diagnostic} (h : OneLine d.fault.message) : OneLine d.text := by
  have hmnemonic : ∀ o : Opcode, OneLine o.mnemonic := fun o => by cases o <;> decide
  unfold text
  cases d.opcode <;> simp [h, hmnemonic] <;> decide

namespace Machine

variable {m : Machine Terminal} {n : Note}

theorem oneLine_of_mem_notes (hrun : m.isHalted = false) (h : n ∈ m.notes) : OneLine n.text := by
  rw [notes, List.mem_append] at h
  rcases h with h | h
  · obtain ⟨d, hd, rfl⟩ : ∃ d, m.report? = some d ∧ .fault d = n := by simpa using h
    refine Diagnostic.oneLine (Fault.oneLine fun reason hreason => ?_)
    have hfault : m.toDatapath.cycle.fault = some (.inputUnavailable reason) := by
      obtain ⟨f, hf, rfl⟩ := Option.map_eq_some_iff.mp hd
      rw [hf, ← hreason]
    have hdialogue := Datapath.cycle_dialogue (s := m.toDatapath) hrun
    generalize m.toDatapath.asks = asks, m.toDatapath.speaks = speaks at hdialogue
    cases hdialogue with
    | asked request hc hf =>
      obtain ⟨e, he, rfl⟩ := (hf reason).mp hfault
      exact ConsoleError.oneLine_of_terminal he
    | spoken line hc hf => cases hf.symm.trans hfault
    | silent hc hf => exact absurd hfault (hf reason)
  · obtain ⟨i, -, rfl⟩ : ∃ i, m.toDatapath.decoded? = some i ∧ .trace m.regs.pc i = n := by
      simpa using h
    have hcolon : OneLine ": " := by decide
    simp [Note.text, hcolon, OneLine.instruction]

end Machine

end Lines

namespace Terminal

structure Beside (t p : Terminal) : Prop where
  input : t.input = p.input
  out : t.out = p.out

theorem Beside.simulation : Console.Simulation Beside where
  answer h request := by
    simp only [Console.readValue, readValue, h.input]
  readValue h request := by
    refine ⟨?_, ?_⟩ <;> simp only [Console.readValue, readValue, h.input, h.out]
  writeLine h line := ⟨h.input, congrArg (· ++ line ++ "\n") h.out⟩
  reportFault h d := ⟨h.input, h.out⟩

/-- Terminals that differ in their notes, of which the first one has noted all, and the second one all
but the trace. -/
structure Traced (notes : List Note) (t p : Terminal) : Prop extends Beside t p where
  traced : t.notes.toList = notes
  plain : p.notes.toList = notes.filter (fun n => n.trace?.isNone)

end Terminal

namespace Machine

variable {t p : Machine Terminal}

theorem step_notes (hrun : p.isHalted = false) :
    p.step.console.notes.toList =
      p.console.notes.toList ++ (p.report?.map .fault).toList := by
  have hcycle : p.toDatapath.cycle.state.console.notes = p.console.notes := by
    have hdialogue := Datapath.cycle_dialogue (s := p.toDatapath) hrun
    generalize p.toDatapath.asks = asks, p.toDatapath.speaks = speaks at hdialogue
    cases hdialogue with
    | asked request hc hf => rw [hc]; rfl
    | spoken line hc hf => rw [hc]; rfl
    | silent hc hf => rw [hc]
  rw [step_console hrun]
  cases p.report? with
  | none => simp [hcycle]
  | some d => simp [Console.reportFault, Terminal.note, hcycle]

end Machine

namespace Session

open Terminal (Beside Traced)

variable {t p : Machine Terminal} {notes : List Note}

theorem noteCycle_notes (pc : UInt16) (m : Machine Terminal) :
    (noteCycle pc m).console.notes.toList =
      m.console.notes.toList ++ (m.lastInstruction.map (.trace pc)).toList := by
  unfold noteCycle
  cases m.lastInstruction <;> simp [Terminal.note]

theorem noteCycle_beside (h : t.Matches Beside p) (pc : UInt16) :
    (noteCycle pc t).Matches Beside p := by
  unfold noteCycle
  split
  · exact ⟨⟨h.datapath.regs, h.datapath.mem, h.datapath.adjusted,
      ⟨h.datapath.console.input, h.datapath.console.out⟩⟩, h.cycles, h.lastInstruction, h.lastFault⟩
  · exact h

theorem tracedStep_traced (h : t.Matches (Traced notes) p) (hrun : p.isHalted = false) :
    (tracedStep t).Matches (Traced (notes ++ p.notes)) p.step := by
  have hrun' : t.isHalted = false := h.isHalted.trans hrun
  have hbeside : t.Matches Beside p := h.of_console h.datapath.console.toBeside
  have hstep := noteCycle_beside (hbeside.step Beside.simulation) t.regs.pc
  have hcycle := hbeside.datapath.cycle Beside.simulation
  have hreport : t.report? = p.report? := by
    rw [Machine.report?, hcycle.fault, hcycle.instruction, h.datapath.regs]
    rfl
  -- a faulting step remembers what it has decoded, and no more than that
  have hlast : t.step.lastInstruction = p.toDatapath.decoded? := by
    rw [Machine.step_lastInstruction hrun', hcycle.instruction,
      Datapath.cycle_decoded (s := p.toDatapath) hrun]
  refine hstep.of_console ⟨hstep.datapath.console, ?_, ?_⟩
  · rw [noteCycle_notes, Machine.step_notes hrun', hreport, hlast, h.datapath.console.traced,
      h.datapath.regs, List.append_assoc]
    rfl
  · rw [Machine.step_notes hrun, h.datapath.console.plain, List.filter_append,
      Machine.notes_filter]

theorem runCycles_traced (h : t.Matches (Traced notes) p) (n : Nat) :
    (runCycles true n t).Matches (Traced (notes ++ (p.running n).flatMap Machine.notes))
      (runCycles false n p) := by
  induction n generalizing t p notes with
  | zero => simpa [runCycles, Machine.running] using h
  | succ n ih =>
    unfold runCycles at ih ⊢
    rw [iterate, iterate, Machine.running, h.isHalted]
    cases hrun : p.isHalted with
    | true => simpa using h
    | false => simpa using ih (tracedStep_traced h hrun)

def cycles (o : RunOptions) (file : Except String (List UInt8)) (input : List UInt8) :
    List (Machine Terminal) :=
  match openImage file with
  | .error _ => []
  | .ok image => match (Machine.new { input }).loadImage image with
    | .error _ => []
    | .ok m => m.running o.maxCycles.toNat

variable {file : Except String (List UInt8)} {image : List UInt8}

theorem isHalted_of_mem_cycles {o : RunOptions} {input : List UInt8} {m : Machine Terminal}
    (h : m ∈ cycles o file input) : m.isHalted = false := by
  unfold cycles at h
  split at h
  · cases h
  · split at h
    · cases h
    · exact Machine.isHalted_of_mem_running h

theorem cycles_of_provides (h : Provides file image) (o : RunOptions) (input : List UInt8) :
    cycles o file input = (Machine.loaded { input } image).running o.maxCycles.toNat := by
  have hfits := h.length_le
  obtain ⟨bs, text, hfile, htext, hparse, -⟩ := h
  have hopen : openImage file = .ok image := openImage_eq_ok.mpr ⟨bs, text, hfile, htext, hparse⟩
  rw [cycles, hopen]
  simp only [Machine.loadImage_new _ hfits]

theorem cycles_of_not_provides (h : ∀ image, ¬ Provides file image) (o : RunOptions)
    (input : List UInt8) : cycles o file input = [] := by
  unfold cycles
  cases hopen : openImage file with
  | error e => rfl
  | ok image =>
    obtain ⟨e, hload⟩ := Machine.loadImage_new_of_excess (length_of_not_provides h hopen)
    simp only [hload]

theorem loaded_traced (input : List UInt8) (image : List UInt8) :
    (Machine.loaded ({ input } : Terminal) image).Matches (Traced [])
      (Machine.loaded { input } image) :=
  ⟨⟨rfl, rfl, rfl, ⟨⟨rfl, rfl⟩, rfl, rfl⟩⟩, rfl, rfl, rfl⟩

/-- A trace changes the notes of the outcome, and nothing else. -/
theorem conclude_traced {t p : Machine Terminal} (h : t.Matches (Traced notes) p) (o : RunOptions)
    (len : Nat) :
    (conclude o len t).code = (conclude o len p).code ∧
    (conclude o len t).out = (conclude o len p).out ∧
    ∃ rest, (rest = "" ∨ rest = limitNotice o.maxCycles) ∧
      (conclude o len t).err = Note.lines notes ++ rest ∧
      (conclude o len p).err = Note.lines (notes.filter fun n => n.trace?.isNone) ++ rest := by
  refine ⟨?_, ?_, if p.isHalted then "" else limitNotice o.maxCycles, ?_, ?_, ?_⟩
  · rw [conclude, conclude, h.lastFault]
  · rw [conclude, conclude, h.datapath.console.out, h.snapshot]
  · cases p.isHalted
    · exact .inr rfl
    · exact .inl rfl
  · rw [conclude, Terminal.notesText, h.datapath.console.traced, h.isHalted, Note.lines]
  · rw [conclude, Terminal.notesText, h.datapath.console.plain, Note.lines]

theorem run_traced (o : RunOptions) (file : Except String (List UInt8)) (input : List UInt8) :
    let traced := run { o with trace := true } file input
    let plain := run { o with trace := false } file input
    let found := cycles o file input
    let notes := found.flatMap Machine.notes
    traced.code = plain.code ∧ traced.out = plain.out ∧
      ∃ rest, (rest = "" ∨ rest = limitNotice o.maxCycles ∨ found = []) ∧
        traced.err = Note.lines notes ++ rest ∧
        plain.err = Note.lines (notes.filter fun n => n.trace?.isNone) ++ rest := by
  by_cases hfile : ∃ image, Provides file image
  · obtain ⟨image, h⟩ := hfile
    have hruns := runCycles_traced (loaded_traced input image) o.maxCycles.toNat
    rw [List.nil_append, ← cycles_of_provides h o input] at hruns
    simp only [run_of_provides h]
    obtain ⟨hcode, hout, rest, hrest, herr⟩ := conclude_traced hruns o image.length
    exact ⟨hcode, hout, rest, hrest.imp_right .inl, herr⟩
  · have hnot := not_exists.mp hfile
    obtain ⟨text, hrun⟩ := run_of_not_provides hnot o.image
    simp only [cycles_of_not_provides hnot o input]
    rw [hrun { o with trace := true } input rfl, hrun { o with trace := false } input rfl]
    exact ⟨rfl, rfl, _, .inr (.inr trivial), String.empty_append.symm, String.empty_append.symm⟩

theorem trace_listed (found : List (Machine Terminal)) :
    (found.flatMap Machine.notes).filterMap Note.trace? =
      found.filterMap fun s => s.toDatapath.decoded?.map fun i => (s.regs.pc, i) := by
  induction found with
  | nil => rfl
  | cons s found ih =>
    rw [List.flatMap_cons, List.filterMap_append, ih, Machine.notes_filterMap, List.filterMap_cons]
    cases s.toDatapath.decoded? <;> rfl

theorem run_out (o : RunOptions) (h : Provides file image) (input : List UInt8) :
    let final := runCycles false o.maxCycles.toNat (Machine.loaded { input } image)
    (run o file input).out =
      (if o.json then "" else banner image.length) ++ final.console.out ++
        report o.json final.snapshot := by
  have hplain : run { o with trace := false } file input = conclude o image.length
      (runCycles false o.maxCycles.toNat (Machine.loaded { input } image)) := run_of_provides h _ input
  have hsame : (run o file input).out = (run { o with trace := false } file input).out := by
    cases htrace : o.trace with
    | true =>
      have hobserved := (run_traced o file input).2.1
      rw [← hobserved, ← htrace]
    | false => rw [← htrace]
  rw [hsame, hplain]
  rfl

/-- The form of the report changes the banner and the report, and nothing else. -/
theorem run_reported (o : RunOptions) (file : Except String (List UInt8)) (input : List UInt8) :
    let text := run { o with json := false } file input
    let json := run { o with json := true } file input
    json.code = text.code ∧ json.err = text.err ∧
      (∀ image, Provides file image →
        let final := runCycles false o.maxCycles.toNat (Machine.loaded { input } image)
        text.out = banner image.length ++ final.console.out ++ report false final.snapshot ∧
        json.out = final.console.out ++ report true final.snapshot) ∧
      ((∀ image, ¬ Provides file image) → json = text) := by
  by_cases hfile : ∃ image, Provides file image
  · obtain ⟨image, h⟩ := hfile
    refine ⟨?_, ?_, fun image h => ⟨run_out { o with json := false } h input, ?_⟩,
      fun hnot => absurd h (hnot image)⟩
    · rw [run_of_provides h, run_of_provides h]
      rfl
    · rw [run_of_provides h, run_of_provides h]
      rfl
    · rw [run_out { o with json := true } h input, if_pos rfl, String.empty_append]
  · obtain ⟨text, hrun⟩ := run_of_not_provides (not_exists.mp hfile) o.image
    rw [hrun { o with json := false } input rfl, hrun { o with json := true } input rfl]
    exact ⟨rfl, rfl, fun image h => absurd ⟨image, h⟩ hfile, fun _ => rfl⟩

end Session

end Micro68
