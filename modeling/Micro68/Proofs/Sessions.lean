import Micro68.Proofs.Consoles
import Micro68.Proofs.Histories
import Micro68.Proofs.InputLines
import Micro68.Session

/-! Sessions. A session that runs an image is the run of a machine which takes the lines of the input
as replies: it reports how that machine ends, and notes its fault. A session that finds no image to
run ends at once. -/
namespace Micro68

def Note.fault? : Note → Option Diagnostic
  | fault d => some d
  | trace _ _ => none

/-- What remains beside the one note of a fault, if there is one, is a trace. -/
theorem Note.split_fault? {notes : List Note} {d? : Option Diagnostic}
    (h : notes.filterMap Note.fault? = d?.toList) : ∃ before after,
      notes = before ++ d?.toList.map .fault ++ after ∧
      ∀ n ∈ before ++ after, ∃ pc i, n = .trace pc i := by
  have htrace {n : Note} (hn : n.fault? = none) : ∃ pc i, n = .trace pc i := by
    cases n with
    | fault d => cases hn
    | trace pc i => exact ⟨pc, i, rfl⟩
  cases d? with
  | none =>
    refine ⟨notes, [], by simp, fun n hn => htrace ?_⟩
    rw [List.append_nil] at hn
    exact List.filterMap_eq_nil_iff.mp h n hn
  | some d =>
    obtain ⟨before, note, after, rfl, hbefore, hnote, hafter⟩ := List.filterMap_eq_cons_iff.mp h
    obtain rfl : note = .fault d := by
      cases note with
      | fault d' => exact congrArg Note.fault (Option.some.inj hnote)
      | trace pc i => cases hnote
    refine ⟨before, after, by simp, fun n hn => htrace ?_⟩
    rcases List.mem_append.mp hn with hn | hn
    · exact hbefore n hn
    · exact List.filterMap_eq_nil_iff.mp hafter n hn

/-- A snapshot shows a machine: whether it has halted, its counter, its registers and status bits, and
the fault that it remembers. -/
structure Snapshot.Shows {κ : Type} (s : Snapshot) (m : Machine κ) : Prop where
  state : s.state = if m.regs.flags.halt then .halted else .running
  cycles : s.cycles = m.cycles
  pc : s.pc = m.regs.pc
  d : s.d = m.regs.d
  a : s.a = m.regs.a
  flags : s.flags = m.regs.flags
  fault : s.fault = m.lastFault

theorem Snapshot.Shows.eq_snapshot {κ : Type} {s : Snapshot} {m : Machine κ} (h : s.Shows m) :
    s = m.snapshot := by
  obtain ⟨hstate, hcycles, hpc, hd, ha, hflags, hfault⟩ := h
  cases s
  simp only at hstate hcycles hpc hd ha hflags hfault
  rw [hstate, hcycles, hpc, hd, ha, hflags, hfault]
  rfl

namespace Terminal

/-- A terminal stands for a script: the text that it still has to read consists of the replies, and it
has noted the same faults, and nothing else unless there is a trace. -/
structure Serves (trace : Bool) (t : Terminal) (c : Scripted) : Prop where
  input : ∃ cs, t.input = Text.bytes cs ∧ AreLines c.replies cs
  faults : t.notes.toList.filterMap Note.fault? = c.faults.toList
  plain : trace = false → t.notes.toList = c.faults.toList.map .fault

theorem simulation (trace : Bool) : Console.Simulation (Serves trace) where
  answer h request := by
    obtain ⟨cs, hinput, hreplies⟩ := h.input
    exact (readValue_areLines hinput hreplies request).1
  readValue {t c} h request := by
    obtain ⟨cs, hinput, hreplies⟩ := h.input
    obtain ⟨-, hrest⟩ := readValue_areLines hinput hreplies request
    have hnotes : (Console.readValue t request).2.notes = t.notes := rfl
    have hfaults := Scripted.readValue_faults c request
    exact ⟨hrest, by rw [hnotes, hfaults, h.faults], fun ht => by rw [hnotes, hfaults, h.plain ht]⟩
  writeLine h line := ⟨h.input, h.faults, h.plain⟩
  reportFault {t c} h d := by
    have hnotes : (Console.reportFault t d).notes = t.notes.push (.fault d) := rfl
    have hfaults : (Console.reportFault c d).faults = c.faults.push d := rfl
    refine ⟨h.input, ?_, fun ht => ?_⟩
    · rw [hnotes, hfaults, Array.toList_push, Array.toList_push, List.filterMap_append, h.faults]
      rfl
    · rw [hnotes, hfaults, Array.toList_push, Array.toList_push, List.map_append, h.plain ht]
      rfl

theorem Serves.note_trace {t : Terminal} {c : Scripted} (h : t.Serves true c) (pc : UInt16)
    (i : Instruction) : (t.note (.trace pc i)).Serves true c := by
  refine ⟨h.input, ?_, nofun⟩
  rw [← h.faults, note, Array.toList_push, List.filterMap_append]
  exact List.append_nil _

end Terminal

namespace Session

open Terminal (Serves)

variable {trace : Bool} {t : Machine Terminal} {m : Machine Scripted}

theorem tracedStep_matches (h : t.Matches (Serves true) m) :
    (tracedStep t).Matches (Serves true) m.step := by
  have hstep := h.step (Terminal.simulation true)
  unfold tracedStep noteCycle
  split
  · exact ⟨⟨hstep.datapath.regs, hstep.datapath.mem, hstep.datapath.adjusted,
      hstep.datapath.console.note_trace _ _⟩, hstep.cycles, hstep.lastInstruction, hstep.lastFault⟩
  · exact hstep

theorem runCycles_matches (h : t.Matches (Serves trace) m) (n : Nat) :
    (runCycles trace n t).Matches (Serves trace) (Machine.runCycles n m) := by
  refine iterate_invariant (fun h => h.isHalted) (fun {t m} h => ?_) n h
  cases trace with
  | true => exact tracedStep_matches h
  | false => exact h.step (Terminal.simulation false)

end Session

namespace Machine

/-- The faults that the console has been told of are the last one of the machine, if it has one, and
only a machine that has halted has one. -/
structure Reported (m : Machine Scripted) : Prop where
  faults : m.console.faults.toList = m.lastFault.toList
  running : m.isHalted = false → m.lastFault = none

theorem Reported.step {m : Machine Scripted} (h : m.Reported) : m.step.Reported := by
  cases hrun : m.isHalted with
  | true =>
    rw [step_of_halted hrun]
    exact h
  | false =>
    have hnone := h.running hrun
    cases hf : m.toDatapath.cycle.fault with
    | none =>
      have hlast : m.step.lastFault = none := by rw [step_of_ok hrun hf, hnone]
      refine ⟨?_, fun _ => hlast⟩
      rw [step_faults_of_ok hrun hf, h.faults, hlast, hnone]
    | some f =>
      obtain ⟨d, hlast, hpush⟩ := step_faults_of_fault hrun hf
      have hhalted : m.step.isHalted = true := (step_isHalted hrun).mpr (.inr (by simp [hf]))
      -- the first fault is also the last one, since it halts the machine
      refine ⟨?_, fun hnot => ?_⟩
      · rw [hpush, Array.toList_push, h.faults, hnone, hlast]
        rfl
      · rw [hhalted] at hnot
        cases hnot

theorem Reported.runCycles {m : Machine Scripted} (h : m.Reported) (n : Nat) :
    (runCycles n m).Reported := by
  rw [runCycles_eq]
  induction n generalizing m with
  | zero => exact h
  | succ n ih => exact ih h.step

def loaded {κ : Type} (console : κ) (image : List UInt8) : Machine κ :=
  { new console with mem := { Memory.empty.put 0 image with imageLen := image.length } }

theorem loadImage_new {κ : Type} (console : κ) {image : List UInt8}
    (h : image.length ≤ Memory.capacity) :
    (new console).loadImage image = .ok (loaded console image) := by
  rw [Machine.loadImage, loadProgram_eq _ h]
  rfl

theorem loadImage_new_of_excess {image : List UInt8} (h : ¬ image.length ≤ Memory.capacity) :
    ∃ e, ∀ {κ : Type} (console : κ), (new console).loadImage image = .error e := by
  refine ⟨.tooLarge ⟨0x1001, UInt64.ofNat (image.length - 0x1001)⟩, fun console => ?_⟩
  rw [Machine.loadImage, loadProgram_of_excess _ (Nat.not_le.mp h)]
  rfl

theorem runLimited_loaded {κ : Type} [Console κ] (console : κ) (image : List UInt8)
    (limit : UInt64) :
    ((loaded console image).runLimited limit).2 =
      Machine.runCycles limit.toNat (loaded console image) := by
  have hlimit : limit.toNat < 2 ^ 64 := limit.toNat_lt
  rw [runLimited_of_room, runCycles_eq]
  change 0 + limit.toNat < 2 ^ 64
  omega

end Machine

namespace Session

open Terminal (Serves)

/-- A file that can be read and holds text which parses to an image that fits into memory. -/
def Provides (file : Except String (List UInt8)) (image : List UInt8) : Prop :=
  ∃ bs text, file = .ok bs ∧ decodeText bs = .ok text ∧ Image.parse text = .ok image ∧
    image.length ≤ Memory.capacity

variable {file : Except String (List UInt8)} {image : List UInt8}

theorem Provides.length_le (h : Provides file image) : image.length ≤ Memory.capacity := by
  obtain ⟨-, -, -, -, -, hfits⟩ := h
  exact hfits

theorem openImage_eq_ok : openImage file = .ok image ↔
    ∃ bs text, file = .ok bs ∧ decodeText bs = .ok text ∧ Image.parse text = .ok image := by
  unfold openImage
  cases file with
  | error reason => simp [Except.bind]
  | ok bs => cases h : decodeText bs <;> simp [Except.bind, h]

theorem length_of_not_provides (h : ∀ image, ¬ Provides file image)
    (hopen : openImage file = .ok image) : ¬ image.length ≤ Memory.capacity := by
  intro hfits
  obtain ⟨bs, text, hfile, htext, hparse⟩ := openImage_eq_ok.mp hopen
  exact h image ⟨bs, text, hfile, htext, hparse, hfits⟩

theorem run_of_provides (h : Provides file image) (o : RunOptions) (input : List UInt8) :
    run o file input = conclude o image.length
      (runCycles o.trace o.maxCycles.toNat (Machine.loaded { input } image)) := by
  have hfits := h.length_le
  obtain ⟨bs, text, hfile, htext, hparse, -⟩ := h
  have hopen : openImage file = .ok image := openImage_eq_ok.mpr ⟨bs, text, hfile, htext, hparse⟩
  rw [run, hopen]
  simp only [Machine.loadImage_new _ hfits]
  rfl

/-- Without an image nothing depends on the input, or on how the program was to run. -/
theorem run_of_not_provides (h : ∀ image, ¬ Provides file image) (path : String) :
    ∃ text, ∀ o input, o.image = path → run o file input = failure text := by
  cases hopen : openImage file with
  | error e =>
    refine ⟨"Can't load '" ++ path ++ "': " ++ e.message, fun o input ho => ?_⟩
    rw [run, hopen, ho]
  | ok image =>
    obtain ⟨e, hload⟩ := Machine.loadImage_new_of_excess (length_of_not_provides h hopen)
    refine ⟨"Failed to load program: " ++ e.message, fun o input _ => ?_⟩
    rw [run, hopen]
    simp only [hload]

/-- An outcome tells how a machine has ended. A snapshot of it is at the end of the output. Beside the
output stands the fault, if there is one, between the lines of a trace, if there is one, and at the end
a notice if the machine has not halted. The status is 2 if there is a fault. -/
structure Reports {κ : Type} (o : RunOptions) (len : Nat) (final : Machine κ) (outcome : Outcome) :
    Prop where
  out : ∃ dialogue s, s.Shows final ∧
    outcome.out = (if o.json then "" else banner len) ++ dialogue ++ report o.json s
  err : ∃ before after : List String,
    (∀ l ∈ before ++ after, o.trace = true ∧
      ∃ (pc : UInt16) (i : Instruction), l = Hex.padded 4 pc.toNat ++ ": " ++ i.text) ∧
    outcome.err = String.join
        ((before ++ final.lastFault.toList.map (·.text) ++ after).map (· ++ "\n")) ++
      if final.regs.flags.halt then "" else
        "\nReached max cycles limit (" ++ toString o.maxCycles.toNat ++
          "). Use --max-cycles to increase.\n"
  code : outcome.code = if final.lastFault.isSome then 2 else 0

section Endings

variable {trace : Bool} {t : Machine Terminal} {m : Machine Scripted}

theorem shows_snapshot (h : t.Matches (Serves trace) m) : t.snapshot.Shows m := by
  rw [h.snapshot]
  exact ⟨rfl, rfl, rfl, rfl, rfl, rfl, rfl⟩

theorem err_of_matches (h : t.Matches (Serves trace) m) (hm : m.Reported) :
    ∃ before after : List String,
      (∀ l ∈ before ++ after, trace = true ∧
        ∃ (pc : UInt16) (i : Instruction), l = Hex.padded 4 pc.toNat ++ ": " ++ i.text) ∧
      t.console.notesText = String.join
        ((before ++ m.lastFault.toList.map (·.text) ++ after).map (· ++ "\n")) := by
  have hnotes : t.console.notes.toList.filterMap Note.fault? = m.lastFault.toList :=
    h.datapath.console.faults.trans hm.faults
  obtain ⟨before, after, hsplit, htrace⟩ := Note.split_fault? hnotes
  refine ⟨before.map Note.text, after.map Note.text, fun l hl => ?_, ?_⟩
  · rw [← List.map_append] at hl
    obtain ⟨n, hn, rfl⟩ := List.mem_map.mp hl
    obtain ⟨pc, i, rfl⟩ := htrace n hn
    refine ⟨?_, pc, i, rfl⟩
    -- without a trace there are notes of faults only
    by_contra hplain
    have hmem : Note.trace pc i ∈ t.console.notes.toList := by
      rw [hsplit]
      simp only [List.mem_append] at hn ⊢
      exact hn.imp_left .inl
    rw [h.datapath.console.plain (Bool.eq_false_iff.mpr hplain)] at hmem
    obtain ⟨d, -, hd⟩ := List.mem_map.mp hmem
    cases hd
  · rw [Terminal.notesText, hsplit]
    simp [Function.comp_def, Note.text]

theorem conclude_reports {o : RunOptions} (h : t.Matches (Serves o.trace) m) (hm : m.Reported)
    (len : Nat) : Reports o len m (conclude o len t) := by
  obtain ⟨before, after, htrace, hnotes⟩ := err_of_matches h hm
  refine ⟨⟨t.console.out, _, shows_snapshot h, rfl⟩, ⟨before, after, htrace, ?_⟩, ?_⟩
  · rw [conclude, hnotes, h.isHalted]
    rfl
  · rw [conclude, h.lastFault]

theorem Reports.err_of_plain {κ : Type} {o : RunOptions} {len : Nat} {final : Machine κ}
    {outcome : Outcome} (h : Reports o len final outcome) (ho : o.trace = false) :
    outcome.err = String.join (final.lastFault.toList.map fun d => d.text ++ "\n") ++
      if final.regs.flags.halt then "" else
        "\nReached max cycles limit (" ++ toString o.maxCycles.toNat ++
          "). Use --max-cycles to increase.\n" := by
  obtain ⟨before, after, htrace, herr⟩ := h.err
  have hnone : before ++ after = [] := by
    refine List.eq_nil_iff_forall_not_mem.mpr fun l hl => ?_
    have htraced := (htrace l hl).1
    rw [ho] at htraced
    cases htraced
  obtain ⟨rfl, rfl⟩ := List.append_eq_nil_iff.mp hnone
  simpa [Function.comp_def] using herr

end Endings

theorem loaded_matches {input : List UInt8} {stdin : String} {replies : List String}
    (hinput : decodeText input = .ok stdin) (hreplies : AreLines replies stdin.toList)
    (trace : Bool) (image : List UInt8) :
    (Machine.loaded ({ input } : Terminal) image).Matches (Serves trace)
      (Machine.loaded ({ replies } : Scripted) image) where
  datapath := ⟨rfl, rfl, rfl, ⟨stdin.toList, decodeText_eq_ok.mp hinput, hreplies⟩, rfl, fun _ => rfl⟩
  cycles := rfl
  lastInstruction := rfl
  lastFault := rfl

/-- With an image, a session ends as the machine ends that takes the lines of the input as replies. -/
theorem run_reports {input : List UInt8} {stdin : String} {replies : List String}
    (hinput : decodeText input = .ok stdin) (hreplies : AreLines replies stdin.toList)
    (o : RunOptions) (h : Provides file image) : ∃ m t,
      (Machine.new ({ replies } : Scripted)).loadImage image = .ok m ∧
      (Machine.new ({ input } : Terminal)).loadImage image = .ok t ∧
      (runCycles o.trace o.maxCycles.toNat t).snapshot.Shows (m.runLimited o.maxCycles).2 ∧
      Reports o image.length (m.runLimited o.maxCycles).2 (run o file input) := by
  have hmatches := runCycles_matches (loaded_matches hinput hreplies o.trace image)
    o.maxCycles.toNat
  have hstart : (Machine.loaded ({ replies } : Scripted) image).Reported := ⟨rfl, fun _ => rfl⟩
  refine ⟨_, _, Machine.loadImage_new _ h.length_le, Machine.loadImage_new _ h.length_le, ?_⟩
  rw [Machine.runLimited_loaded, run_of_provides h]
  exact ⟨shows_snapshot hmatches, conclude_reports hmatches (hstart.runCycles _) _⟩

/-- A session is the run of a machine that takes the lines of the input as replies: its snapshot shows
that machine, and so does its outcome. If no image is provided then nothing runs: the status is 1, and
there is no output, whatever the input and the limit are. -/
theorem run_like_library (o : RunOptions) (file : Except String (List UInt8)) {input : List UInt8}
    {stdin : String} {replies : List String} (hinput : decodeText input = .ok stdin)
    (hreplies : AreLines replies stdin.toList) :
    (∀ image, Provides file image → ∃ m t,
      (Machine.new ({ replies } : Scripted)).loadImage image = .ok m ∧
      (Machine.new ({ input } : Terminal)).loadImage image = .ok t ∧
      (runCycles o.trace o.maxCycles.toNat t).snapshot.Shows (m.runLimited o.maxCycles).2 ∧
      Reports o image.length (m.runLimited o.maxCycles).2 (run o file input)) ∧
    ((run o file input).code = 1 ↔ ¬ ∃ image, Provides file image) ∧
    ((¬ ∃ image, Provides file image) → (run o file input).out = "" ∧
      ∀ o' input', o'.image = o.image → run o' file input' = run o file input) := by
  have hfails : (¬ ∃ image, Provides file image) → ∃ text, ∀ o' input', o'.image = o.image →
      run o' file input' = failure text :=
    fun h => run_of_not_provides (not_exists.mp h) o.image
  refine ⟨fun image h => run_reports hinput hreplies o h, ⟨fun hcode => ?_, fun h => ?_⟩,
    fun h => ?_⟩
  · rintro ⟨image, h⟩
    obtain ⟨m, -, -, -, -, hreports⟩ := run_reports hinput hreplies o h
    rw [hreports.code] at hcode
    split at hcode <;> cases hcode
  · obtain ⟨text, hrun⟩ := hfails h
    rw [hrun o input rfl]
    rfl
  · obtain ⟨text, hrun⟩ := hfails h
    refine ⟨by rw [hrun o input rfl]; rfl, fun o' input' ho => ?_⟩
    rw [hrun o' input' ho, hrun o input rfl]

/-- `INP.W D0` twice, on two lines of input: the first one ends in a carriage return too, the second
one does not end and holds no number. `BRA.W $0000`, which would never halt. -/
theorem run_like_library_unreadable :
    let o : RunOptions := { image := "twice", maxCycles := 10 }
    let file : Except String (List UInt8) := .ok (Text.bytes "$E2$00$E2$00".toList)
    let ending := "\n━━━ Result ━━━\nState:  Halted after 2 cycles\nPC:     $0004\n" ++
      "DR0:    $00000007 (7)\nDR1:    $00000000 (0)\nAR0:    $0000\nAR1:    $0000\n" ++
      "Status: H:TRUE N:FALSE Z:FALSE V:FALSE C:FALSE\n" ++
      "Fault:  *** ERROR: no input value: cannot parse \"x\" as a number " ++
      "at PC = $0002 for operation INP\n"
    let endless : RunOptions := { image := "endless", maxCycles := 3 }
    let loop : Except String (List UInt8) := .ok (Text.bytes "$92$60$00$00".toList)
    decodeText [0x37, 0x0D, 0x0A, 0x78] = .ok "7\r\nx" ∧ AreLines ["7", "x"] "7\r\nx".toList ∧
      Provides file [0xE2, 0x00, 0xE2, 0x00] ∧
      (run o file [0x37, 0x0D, 0x0A, 0x78]).code = 2 ∧
      (run o file [0x37, 0x0D, 0x0A, 0x78]).err =
        "*** ERROR: no input value: cannot parse \"x\" as a number at PC = $0002 for operation INP\n" ∧
      (∃ dialogue, (run o file [0x37, 0x0D, 0x0A, 0x78]).out =
        "Program loaded. 4 bytes in memory.\n\n" ++ dialogue ++ ending) ∧
      Provides loop [0x92, 0x60, 0x00, 0x00] ∧ (run endless loop []).code = 0 ∧
      (run endless loop []).err =
        "\nReached max cycles limit (3). Use --max-cycles to increase.\n" := by
  intro o file ending endless loop
  have hinput : decodeText [0x37, 0x0D, 0x0A, 0x78] = .ok "7\r\nx" :=
    decodeText_eq_ok.mpr (by decide +kernel)
  have hreplies : AreLines ["7", "x"] "7\r\nx".toList := by unfold AreLines; decide +kernel
  have hprovides : Provides file [0xE2, 0x00, 0xE2, 0x00] :=
    ⟨_, "$E2$00$E2$00", rfl, decodeText_eq_ok.mpr rfl, by rfl, by decide⟩
  have hloop : Provides loop [0x92, 0x60, 0x00, 0x00] :=
    ⟨_, "$92$60$00$00", rfl, decodeText_eq_ok.mpr rfl, by rfl, by decide⟩
  obtain ⟨m, -, hload, -, -, hreports⟩ := (run_like_library o file hinput hreplies).1 _ hprovides
  rw [Machine.loadImage_new _ (by decide), Except.ok.injEq] at hload
  subst hload
  obtain ⟨m, -, hload, -, -, hendless⟩ :=
    (run_like_library endless loop (decodeText_eq_ok.mpr rfl) (show AreLines [] "".toList by
      unfold AreLines; decide)).1 _ hloop
  rw [Machine.loadImage_new _ (by decide), Except.ok.injEq] at hload
  subst hload
  obtain ⟨dialogue, s, hshows, hout⟩ := hreports.out
  have hreport : report o.json s = ending := by
    rw [hshows.eq_snapshot]
    decide +kernel
  have hbanner : banner [0xE2, 0x00, 0xE2, 0x00].length =
      "Program loaded. 4 bytes in memory.\n\n" := by decide +kernel
  refine ⟨hinput, hreplies, hprovides, hreports.code.trans (by decide +kernel),
    (hreports.err_of_plain rfl).trans (by decide +kernel), ⟨dialogue, ?_⟩, hloop,
    hendless.code.trans (by decide +kernel), (hendless.err_of_plain rfl).trans (by decide +kernel)⟩
  rw [hout, hreport]
  exact congrArg (· ++ dialogue ++ _) hbanner

end Session
end Micro68
