import Micro68.Proofs.Actions
import Micro68.Proofs.Dialogue

/-! Accounts of a scripted console. Whatever is done to a machine, its console has used up its replies
from the first one on, one for every value asked for as long as there were any; it holds a prompt for
every value asked for, and a line for every line written. -/
namespace Micro68

theorem ConsoleError.message_unreadable_ne (reply : List Char) :
    (unreadable reply).message ≠ endOfInput.message := by
  intro h
  have hhead := congrArg (fun text => text.toList.head?) h
  simp [message] at hhead

theorem readReply_error {reply : String} {e : ConsoleError} (h : readReply reply = .error e) :
    e = .unreadable (Text.trim reply.toList) := by
  unfold readReply at h
  dsimp only at h
  split at h <;> cases h
  rfl

namespace Scripted

/-- How many of the faults reported are for the end of input. -/
def starved (c : Scripted) : Nat :=
  c.faults.toList.countP fun d => d.fault = .inputUnavailable "end of input"

def answer (c : Scripted) : Except ConsoleError Int32 :=
  match c.replies with
  | [] => .error .endOfInput
  | reply :: _ => readReply reply

theorem readValue_eq (c : Scripted) (request : InputRequest) : Console.readValue c request =
    (c.answer, { c with replies := c.replies.tail, prompts := c.prompts.push request.prompt }) := by
  change c.readValue request = _
  unfold readValue answer
  cases c.replies <;> rfl

theorem answer_endOfInput {c : Scripted} {e : ConsoleError} (h : c.answer = .error e) :
    e.message = "end of input" ↔ c.replies = [] := by
  unfold answer at h
  cases hr : c.replies with
  | nil =>
    simp only [hr] at h
    cases h
    exact iff_of_true rfl rfl
  | cons reply replies =>
    simp only [hr] at h
    obtain rfl := readReply_error h
    exact iff_of_false (ConsoleError.message_unreadable_ne _) nofun

end Scripted

namespace Machine

section AnyConsole

variable {κ : Type} [Console κ] {m : Machine κ}

def report? (m : Machine κ) : Option Diagnostic :=
  m.toDatapath.cycle.fault.map fun fault =>
    { fault, opcode := m.toDatapath.cycle.instruction.map (·.opcode), pc := m.regs.pc }

theorem step_console (hrun : m.isHalted = false) :
    m.step.console = m.report?.elim m.toDatapath.cycle.state.console
      (Console.reportFault m.toDatapath.cycle.state.console) := by
  unfold report?
  cases hf : m.toDatapath.cycle.fault with
  | none => rw [step_of_ok hrun hf]; rfl
  | some f => rw [step_of_fault hrun hf]; rfl

end AnyConsole

/-- What a step of a running machine does to its console. -/
structure Turn (m : Machine Scripted) : Prop where
  replies : m.step.console.replies =
    if m.toDatapath.asks then m.console.replies.tail else m.console.replies
  prompts : ∃ prompt, m.step.console.prompts =
    if m.toDatapath.asks then m.console.prompts.push prompt else m.console.prompts
  lines : ∃ line, m.step.console.lines =
    if m.toDatapath.speaks then m.console.lines.push line else m.console.lines
  faults : m.step.console.faults = m.console.faults ++ m.report?.toArray
  /-- There is nothing to report of an operation that writes a line. -/
  spoken : m.toDatapath.speaks = true → m.report? = none
  /-- A value is unavailable if it is asked for and the next reply, if any, does not give it. -/
  unavailable : ∀ reason, m.report?.map (·.fault) = some (.inputUnavailable reason) ↔
    m.toDatapath.asks = true ∧ ∃ e, m.console.answer = .error e ∧ e.message = reason

theorem turn {m : Machine Scripted} (hrun : m.isHalted = false) : Turn m := by
  have hconsole := step_console hrun
  have hfault : m.report?.map (·.fault) = m.toDatapath.cycle.fault := by
    simp [report?, Function.comp_def]
  have hreport (c : Scripted) (d? : Option Diagnostic) : d?.elim c (Console.reportFault c) =
      { c with faults := c.faults ++ d?.toArray } := by
    cases d? with
    | none => simp
    | some d => simp [Console.reportFault, Scripted.reportFault]
  rw [hreport] at hconsole
  have hdialogue := Datapath.cycle_dialogue (s := m.toDatapath) hrun
  generalize ha : m.toDatapath.asks = asks, hs : m.toDatapath.speaks = speaks at hdialogue
  cases hdialogue with
  | asked request hc hf =>
    rw [hc, Scripted.readValue_eq] at hconsole
    simp only [Scripted.readValue_eq] at hf
    constructor <;> simp [ha, hs, hconsole, hfault, hf]
  | spoken line hc hf =>
    rw [hc] at hconsole
    have hnone : m.report? = none := by simp [report?, hf]
    constructor <;> simp [ha, hs, hconsole, hnone, Console.writeLine, Scripted.writeLine]
  | silent hc hf =>
    rw [hc] at hconsole
    constructor <;> simp [ha, hs, hconsole, hfault, hf]

theorem Turn.starves_iff {m : Machine Scripted} (h : Turn m) :
    m.report?.map (·.fault) = some (.inputUnavailable "end of input") ↔
      m.toDatapath.asks = true ∧ m.console.replies = [] := by
  rw [h.unavailable]
  refine and_congr_right fun _ => ?_
  constructor
  · rintro ⟨e, he, hmessage⟩
    exact (Scripted.answer_endOfInput he).mp hmessage
  · intro hr
    exact ⟨.endOfInput, by rw [Scripted.answer, hr], rfl⟩

/-- How two states of a console differ by the steps of some running machines. -/
structure Accounts (c : Scripted) (steps : List (Machine Scripted)) (c' : Scripted) : Prop where
  replies : c'.replies = c.replies.drop (steps.countP (·.toDatapath.asks))
  prompts : c'.prompts.size = c.prompts.size + steps.countP (·.toDatapath.asks)
  lines : c'.lines.size = c.lines.size + steps.countP (·.toDatapath.speaks)
  starved : c'.starved = c.starved + (steps.countP (·.toDatapath.asks) - c.replies.length)

namespace Accounts

variable {c c' c'' : Scripted} {first second : List (Machine Scripted)}

theorem refl (c : Scripted) : Accounts c [] c := ⟨rfl, rfl, rfl, by simp⟩

theorem trans (h : Accounts c first c') (h' : Accounts c' second c'') :
    Accounts c (first ++ second) c'' := by
  have hlength := congrArg List.length h.replies
  rw [List.length_drop] at hlength
  refine ⟨?_, ?_, ?_, ?_⟩
  · rw [h'.replies, h.replies, List.drop_drop, List.countP_append]
  · rw [h'.prompts, h.prompts, List.countP_append, Nat.add_assoc]
  · rw [h'.lines, h.lines, List.countP_append, Nat.add_assoc]
  · rw [h'.starved, h.starved, List.countP_append]
    omega

theorem of_turn {m : Machine Scripted} (h : Turn m) : Accounts m.console [m] m.step.console := by
  obtain ⟨prompt, hprompts⟩ := h.prompts
  obtain ⟨line, hlines⟩ := h.lines
  refine ⟨?_, ?_, ?_, ?_⟩
  · rw [h.replies]
    cases ha : m.toDatapath.asks <;> simp [ha]
  · rw [hprompts]
    cases ha : m.toDatapath.asks <;> simp [ha]
  · rw [hlines]
    cases hs : m.toDatapath.speaks <;> simp [hs]
  · have hone : m.step.console.starved = m.console.starved +
        if m.report?.map (·.fault) = some (.inputUnavailable "end of input") then 1 else 0 := by
      rw [Scripted.starved, h.faults, Array.toList_append, List.countP_append]
      cases m.report? <;> simp [Scripted.starved, List.countP_cons]
    rw [hone, if_congr h.starves_iff rfl rfl]
    cases ha : m.toDatapath.asks <;> cases hr : m.console.replies <;> simp [ha]

theorem iterate_step (n : Nat) (m : Machine Scripted) :
    Accounts m.console (m.running n) (Machine.step^[n] m).console := by
  induction n generalizing m with
  | zero => exact .refl _
  | succ n ih =>
    rw [running]
    split
    · rename_i hhalt
      rw [iterate_step_of_halted hhalt]
      exact .refl _
    · rename_i hrun
      rw [Function.iterate_succ_apply]
      exact (of_turn (turn (by simpa using hrun))).trans (ih m.step)

theorem act {m m' : Machine Scripted} {action : Action} (h : m.act? action = some m') :
    Accounts m.console (m.found action) m'.console := by
  cases act?_effect h with
  | steps n hfound => exact hfound ▸ iterate_step n m
  | memory mem hmem => exact found_onMemory hmem ▸ .refl _
  | registers | halt | reset => exact .refl _

theorem actAll {m m' : Machine Scripted} {actions : List Action}
    (h : m.actAll? actions = some m') : Accounts m.console (m.foundAll actions) m'.console := by
  induction actions generalizing m with
  | nil =>
    cases h
    exact .refl _
  | cons action actions ih =>
    rw [actAll?_cons] at h
    obtain ⟨m₁, hfirst, hrest⟩ := Option.bind_eq_some_iff.mp h
    rw [foundAll_cons hfirst]
    exact (act hfirst).trans (ih hrest)

end Accounts

/-- The accounts of a scripted console after anything that can be done to a machine. The replies left
are the last ones, and one was used for every value asked for while there were any. There is a prompt
for every reply used and for every report of the end of input, and a line for every line written; and
the steps taken have each done what a turn allows. -/
theorem console_accounts (replies : List String) (actions : List Action) {m : Machine Scripted}
    (h : (new ({ replies } : Scripted)).actAll? actions = some m) :
    let steps := (new ({ replies } : Scripted)).foundAll actions
    m.console.replies <:+ replies ∧
    m.console.prompts.size =
      (replies.length - m.console.replies.length) + m.console.starved ∧
    m.console.replies = replies.drop (steps.countP (·.toDatapath.asks)) ∧
    m.console.lines.size = steps.countP (·.toDatapath.speaks) ∧
    ∀ s ∈ steps, Turn s ∧ ∀ d reason, s.report? = some d → d.fault = .inputUnavailable reason →
      s.step.console.prompts.size = s.console.prompts.size + 1 := by
  intro steps
  have haccounts : Accounts { replies } steps m.console := .actAll h
  have hleft := congrArg List.length haccounts.replies
  rw [List.length_drop] at hleft
  refine ⟨haccounts.replies ▸ List.drop_suffix _ _, ?_, haccounts.replies, ?_, fun s hs => ?_⟩
  · rw [haccounts.prompts, haccounts.starved, hleft]
    change 0 + _ = replies.length - (replies.length - _) + (0 + (_ - replies.length))
    omega
  · rw [haccounts.lines]
    exact Nat.zero_add _
  · have hturn := turn (isHalted_of_mem_foundAll hs)
    refine ⟨hturn, fun d reason hd hreason => ?_⟩
    obtain ⟨hasks, -⟩ := (hturn.unavailable reason).mp (by rw [hd, Option.map_some, hreason])
    obtain ⟨prompt, hprompts⟩ := hturn.prompts
    rw [hprompts, if_pos hasks, Array.size_push]

/-- One reply for two `INP`s with a `DSP` between them, and then the same again without a reply. -/
theorem console_accounts_starved :
    let ops : List Operation := [.loadProgram [0xE0, 0x00, 0xE8, 0x00, 0xE0, 0x00], .runLimited 9,
      .reset, .runLimited 9]
    let m := (new ({ replies := ["7"] } : Scripted)).performAll ops
    (new ({ replies := ["7"] } : Scripted)).actAll? (ops.map .operation) = some m ∧
      m.console.replies = [] ∧ m.console.starved = 2 ∧ m.console.prompts.size = 3 ∧
      m.console.lines.size = 1 := by
  intro ops m
  have h : (new ({ replies := ["7"] } : Scripted)).actAll? (ops.map .operation) = some m := rfl
  obtain ⟨-, hprompts, hreplies, hlines, -⟩ := console_accounts ["7"] (ops.map .operation) h
  have hleft : m.console.replies = [] := by
    rw [hreplies]
    decide +kernel
  have hstarved : m.console.starved = 2 := by decide +kernel
  refine ⟨h, hleft, hstarved, ?_, ?_⟩
  · rw [hprompts, hleft, hstarved]
    rfl
  · rw [hlines]
    decide +kernel

end Machine
end Micro68
