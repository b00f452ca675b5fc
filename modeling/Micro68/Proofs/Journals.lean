import Micro68.Proofs.ConsoleAccounts

/-! Journals. A scripted console keeps lines and faults in two records; a plain one writes the text of
a fault among its lines, at the moment of the fault. A journal has the entries of both records in the
order in which the steps of a machine made them, and either console can be read off from it. Nothing
else tells the machines apart. -/
namespace Micro68

/-- What a step may give to the console: a line or a fault. -/
inductive Entry where
  | line (text : String)
  | fault (d : Diagnostic)
  deriving DecidableEq

namespace Entry

def line? : Entry → Option String
  | line text => some text
  | fault _ => none

def fault? : Entry → Option Diagnostic
  | line _ => none
  | fault d => some d

/-- An entry as a line; a fault is written as its text. -/
def text : Entry → String
  | line text => text
  | fault d => d.text

theorem eq_map_line {journal : List Entry} (h : journal.filterMap fault? = []) :
    journal = (journal.filterMap line?).map line := by
  induction journal with
  | nil => rfl
  | cons e journal ih =>
    cases e with
    | line text => exact congrArg (line text :: ·) (ih h)
    | fault d => cases h

theorem eq_map_fault {journal : List Entry} (h : journal.filterMap line? = []) :
    journal = (journal.filterMap fault?).map fault := by
  induction journal with
  | nil => rfl
  | cons e journal ih =>
    cases e with
    | line text => cases h
    | fault d => exact congrArg (fault d :: ·) (ih h)

end Entry

def Machine.entry? (m : Machine Scripted) : Option Entry :=
  if m.toDatapath.speaks then m.step.console.lines.back?.map .line else m.report?.map .fault

/-- What a scripted and a plain console have in common after a journal of entries, if they began with
`c₀` and `p₀`. -/
structure Wrote (c₀ : Scripted) (p₀ : Plain) (journal : List Entry) (c : Scripted) (p : Plain) :
    Prop where
  replies : c.replies = p.script.replies
  prompts : c.prompts = p.script.prompts
  lines : c.lines.toList = c₀.lines.toList ++ journal.filterMap Entry.line?
  faults : c.faults.toList = c₀.faults.toList ++ journal.filterMap Entry.fault?
  texts : p.script.lines.toList = p₀.script.lines.toList ++ journal.map Entry.text

namespace Wrote

variable {c₀ c c' : Scripted} {p₀ p p' : Plain} {journal later : List Entry}

theorem nil (h : Wrote c₀ p₀ journal c p) : Wrote c p [] c p :=
  ⟨h.replies, h.prompts, by simp, by simp, by simp⟩

theorem append (h : Wrote c₀ p₀ journal c p) (h' : Wrote c p later c' p') :
    Wrote c₀ p₀ (journal ++ later) c' p' :=
  ⟨h'.replies, h'.prompts, by simp [h'.lines, h.lines], by simp [h'.faults, h.faults],
    by simp [h'.texts, h.texts]⟩

theorem readValue (h : Wrote c₀ p₀ journal c p) (request : InputRequest) :
    (Console.readValue c request).1 = (Console.readValue p request).1 ∧
      Wrote c₀ p₀ journal (Console.readValue c request).2 (Console.readValue p request).2 := by
  have hplain : Console.readValue p request = ((Console.readValue p.script request).1,
      ⟨(Console.readValue p.script request).2⟩) := rfl
  rw [hplain, Scripted.readValue_eq, Scripted.readValue_eq]
  refine ⟨?_, ?_, ?_, h.lines, h.faults, h.texts⟩
  · rw [Scripted.answer, Scripted.answer, h.replies]
  · exact congrArg List.tail h.replies
  · exact congrArg (Array.push · _) h.prompts

theorem writeLine (h : Wrote c₀ p₀ journal c p) (line : String) : Wrote c₀ p₀
    (journal ++ [.line line]) (Console.writeLine c line) (Console.writeLine p line) := by
  refine h.append ⟨h.replies, h.prompts, ?_, ?_, ?_⟩ <;>
    simp [Console.writeLine, Scripted.writeLine, Entry.line?, Entry.fault?, Entry.text]

theorem reportFault (h : Wrote c₀ p₀ journal c p) (d : Diagnostic) : Wrote c₀ p₀
    (journal ++ [.fault d]) (Console.reportFault c d) (Console.reportFault p d) := by
  refine h.append ⟨h.replies, h.prompts, ?_, ?_, ?_⟩ <;>
    simp [Console.reportFault, Scripted.reportFault, Scripted.writeLine, Entry.line?, Entry.fault?,
      Entry.text]

theorem simulation (c₀ : Scripted) (p₀ : Plain) :
    Console.Simulation fun c p => ∃ journal, Wrote c₀ p₀ journal c p where
  answer := fun ⟨_, h⟩ request => (h.readValue request).1
  readValue := fun ⟨journal, h⟩ request => ⟨journal, (h.readValue request).2⟩
  writeLine := fun ⟨_, h⟩ line => ⟨_, h.writeLine line⟩
  reportFault := fun ⟨_, h⟩ d => ⟨_, h.reportFault d⟩

end Wrote

namespace Machine

variable {c₀ : Scripted} {p₀ : Plain} {journal later : List Entry} {m : Machine Scripted}
  {p : Machine Plain}

theorem eq_entry (hrun : m.isHalted = false)
    (h : Wrote m.console p.console later m.step.console p.step.console) :
    later = m.entry?.toList := by
  have hturn := turn hrun
  obtain ⟨line, hline⟩ := hturn.lines
  have hlines := h.lines
  have hfaults : later.filterMap Entry.fault? = m.report?.toList := by
    have hf := h.faults
    rw [hturn.faults] at hf
    simpa using hf.symm
  unfold entry?
  -- a step does not both write and report, so one of the two records is the whole of its journal
  cases hspeaks : m.toDatapath.speaks with
  | true =>
    rw [hline, hspeaks, if_pos rfl, Array.toList_push] at hlines
    rw [hturn.spoken hspeaks] at hfaults
    rw [Entry.eq_map_line hfaults, ← List.append_cancel_left hlines]
    simp [hline, hspeaks]
  | false =>
    have hnone : later.filterMap Entry.line? = [] := by simpa [hline, hspeaks] using hlines
    rw [Entry.eq_map_fault hnone, hfaults]
    cases m.report? <;> rfl

namespace Matches

theorem journal_step (h : m.Matches (Wrote c₀ p₀ journal) p) (hrun : m.isHalted = false) :
    m.step.Matches (Wrote c₀ p₀ (journal ++ m.entry?.toList)) p.step := by
  have hstep := (h.of_console ⟨[], h.datapath.console.nil⟩).step
    (Wrote.simulation m.console p.console)
  obtain ⟨later, hlater⟩ := hstep.datapath.console
  rw [← eq_entry hrun hlater]
  exact hstep.of_console (h.datapath.console.append hlater)

theorem journal_iterate (h : m.Matches (Wrote c₀ p₀ journal) p) (n : Nat) :
    (Machine.step^[n] m).Matches (Wrote c₀ p₀ (journal ++ (m.running n).filterMap entry?))
      (Machine.step^[n] p) := by
  induction n generalizing m p journal with
  | zero => simpa [running] using h
  | succ n ih =>
    rw [running]
    cases hrun : m.isHalted with
    | true =>
      rw [iterate_step_of_halted hrun, iterate_step_of_halted (h.isHalted ▸ hrun)]
      simpa using h
    | false =>
      have hcons : m.entry?.toList ++ (m.step.running n).filterMap entry? =
          (m :: m.step.running n).filterMap entry? := by
        cases he : m.entry? <;> simp [he]
      have hlater := ih (h.journal_step hrun)
      rw [List.append_assoc, hcons] at hlater
      exact hlater

theorem journal_act (h : m.Matches (Wrote c₀ p₀ journal) p) (action : Action) :
    Option.Rel (Matches (Wrote c₀ p₀ (journal ++ (m.found action).filterMap entry?)))
      (m.act? action) (p.act? action) := by
  have htogether := (h.of_console ⟨[], h.datapath.console.nil⟩).act
    (Wrote.simulation m.console p.console) action
  generalize m.act? action = m', p.act? action = p' at htogether
  cases htogether with
  | endless => exact .none
  | steps n hfound => exact .some (hfound ▸ h.journal_iterate n)
  | outside hfound hm hp hmatch =>
    refine .some (hmatch.of_console ?_)
    rw [hfound, hm, hp, List.filterMap_nil, List.append_nil]
    exact h.datapath.console

theorem journal_actAll (h : m.Matches (Wrote c₀ p₀ journal) p) (actions : List Action) :
    Option.Rel (Matches (Wrote c₀ p₀ (journal ++ (m.foundAll actions).filterMap entry?)))
      (m.actAll? actions) (p.actAll? actions) := by
  induction actions generalizing m p journal with
  | nil => exact .some (by simpa [foundAll] using h)
  | cons action actions ih =>
    have hfirst := h.journal_act action
    rw [actAll?_cons, actAll?_cons]
    cases hm : m.act? action with
    | none =>
      rw [hm] at hfirst
      generalize p.act? action = p' at hfirst
      cases hfirst
      exact .none
    | some m' =>
      rw [hm] at hfirst
      generalize p.act? action = p' at hfirst
      cases hfirst with
      | some hmatch =>
        have hlater := ih hmatch
        rw [List.append_assoc, ← List.filterMap_append, ← foundAll_cons hm] at hlater
        exact hlater

end Matches

/-- The records of a scripted console grow by the entry of a step. -/
theorem step_entry (hrun : m.isHalted = false) :
    m.step.console.lines.toList = m.console.lines.toList ++ m.entry?.toList.filterMap Entry.line? ∧
      m.step.console.faults.toList =
        m.console.faults.toList ++ m.entry?.toList.filterMap Entry.fault? := by
  let twin : Machine Plain := { m with console := ⟨m.console⟩ }
  have hmatch : m.Matches (Wrote m.console twin.console []) twin :=
    ⟨⟨rfl, rfl, rfl, rfl, rfl, by simp, by simp, by simp⟩, rfl, rfl, rfl⟩
  have hstep := (hmatch.journal_step hrun).datapath.console
  exact ⟨hstep.lines, hstep.faults⟩

/-- A machine on a plain console runs as on a scripted one, whatever is done to both. After every
action the registers, the memory and all records are the same, and so are the prompts and the replies
left. The scripted console keeps of every step its entry, as a line or as a fault; of the journal of
all steps it has the lines and the faults apart, and the plain console has written the texts of both
in their order. -/
theorem plain_like_scripted (replies : List String) (actions : List Action) :
    let start := new ({ replies } : Scripted)
    let steps := start.foundAll actions
    let journal := steps.filterMap entry?
    (∀ s ∈ steps,
      s.step.console.lines.toList =
        s.console.lines.toList ++ s.entry?.toList.filterMap Entry.line? ∧
      s.step.console.faults.toList =
        s.console.faults.toList ++ s.entry?.toList.filterMap Entry.fault?) ∧
    Option.Rel
      (fun (m : Machine Scripted) (p : Machine Plain) =>
        m.regs = p.regs ∧ m.mem = p.mem ∧ m.cycles = p.cycles ∧
        m.lastInstruction = p.lastInstruction ∧ m.lastFault = p.lastFault ∧
        m.console.prompts = p.console.script.prompts ∧
        m.console.replies = p.console.script.replies ∧
        m.console.lines.toList = journal.filterMap Entry.line? ∧
        m.console.faults.toList = journal.filterMap Entry.fault? ∧
        p.console.script.lines.toList = journal.map Entry.text)
      (start.actAll? actions) ((new (⟨{ replies }⟩ : Plain)).actAll? actions) := by
  intro start steps journal
  refine ⟨fun s hs => step_entry (isHalted_of_mem_foundAll hs), ?_⟩
  have hstart : start.Matches (Wrote { replies } ⟨{ replies }⟩ []) (new ⟨{ replies }⟩) :=
    ⟨⟨rfl, rfl, rfl, rfl, rfl, rfl, rfl, rfl⟩, rfl, rfl, rfl⟩
  have hactions := hstart.journal_actAll actions
  generalize start.actAll? actions = m, (new (⟨{ replies }⟩ : Plain)).actAll? actions = p at hactions
  cases hactions with
  | none => exact .none
  | some h =>
    have hwrote := h.datapath.console
    exact .some ⟨h.datapath.regs, h.datapath.mem, h.cycles, h.lastInstruction, h.lastFault,
      hwrote.prompts, hwrote.replies, hwrote.lines, hwrote.faults, hwrote.texts⟩

/-- `DSR`, and `INP` without a reply. -/
theorem plain_like_scripted_endOfInput :
    let ops : List Operation := [.loadProgram [0xF0, 0x00, 0xE0, 0x00], .runLimited 9]
    let start := new ({ replies := [] } : Scripted)
    let loaded := start.perform (.loadProgram [0xF0, 0x00, 0xE0, 0x00])
    let m := start.performAll ops
    let p := (new (⟨{ replies := [] }⟩ : Plain)).performAll ops
    loaded ∈ start.foundAll (ops.map .operation) ∧ loaded.step.console.faults.toList = [] ∧
      m.regs = p.regs ∧ p.console.script.lines.toList =
        ["Status Bits = H:FALSE N:FALSE Z:FALSE V:FALSE C:FALSE",
          "*** ERROR: no input value: end of input at PC = $0002 for operation INP"] := by
  intro ops start loaded m p
  obtain ⟨hsteps, hrel⟩ := plain_like_scripted [] (ops.map .operation)
  have hloaded : loaded ∈ start.foundAll (ops.map .operation) := List.mem_cons_self
  have hfaults := (hsteps loaded hloaded).2
  have hm : start.actAll? (ops.map .operation) = some m := rfl
  have hp : (new (⟨{ replies := [] }⟩ : Plain)).actAll? (ops.map .operation) = some p := rfl
  rw [hm, hp, Option.rel_some_some] at hrel
  obtain ⟨hregs, -, -, -, -, -, -, -, -, htexts⟩ := hrel
  refine ⟨hloaded, ?_, hregs, ?_⟩
  · rw [hfaults]
    decide +kernel
  · rw [htexts]
    decide +kernel

end Machine
end Micro68
