import Micro68.Proofs.Disassembly

/-! The words of an instruction. A step whose words can be fetched executes what its opcode word means,
with the words behind it as the addresses of the absolute operands, first slot first, all of them as
they stood in memory before the step; and it goes on behind the last of them, even if the execution
then fails, unless it takes a branch. -/
namespace Micro68

namespace Memory

def wordAt (m : Memory) (a : Nat) : UInt16 := BigEndian.word (m.cell a) (m.cell (a + 1))

theorem holds_slice (m : Memory) : m.Holds (m.slice 0 capacity) := by
  intro c
  by_cases hc : c < capacity
  · simp [slice, hc]
  · simp [slice, cell, hc]

theorem frontWord_slice (m : Memory) {a : Nat} (h : a + 2 ≤ capacity) :
    Listing.frontWord ((m.slice 0 capacity).drop a) = m.wordAt a := by
  have hword : a + 1 < (m.slice 0 capacity).length := by
    rw [slice_length]
    omega
  rw [Listing.drop_eq_word hword, ← m.holds_slice, ← m.holds_slice]
  rfl

theorem toUInt16_of_read_word {m : Memory} {a : UInt16} {x : UInt32} (h : m.read .word a = .ok x) :
    x.toUInt16 = m.wordAt a.toNat := by
  rw [read_word] at h
  split at h
  · cases h
    exact BigEndian.value_pair _ _
  · cases h

end Memory

def Operand.withWord (op : Operand) (x : UInt16) : Operand :=
  if op.mode = .absolute then { op with address := x } else op

namespace Instruction

/-- An instruction with its extension words `x 0` and `x 1`. The second operand takes the second of them
if the first operand takes one. -/
def withWords (i : Instruction) (x : Nat → UInt16) : Instruction :=
  { i with operands := match i.operands with
    | .full src dst =>
      .full (src.withWord (x 0)) (dst.withWord (x (if src.mode = .absolute then 1 else 0)))
    | .quick data dst => .quick data (dst.withWord (x 0)) }

theorem extensionWords_eq (i : Instruction) :
    i.extensionWords = (i.isAbsolute .first).toNat + (i.isAbsolute .second).toNat := by
  unfold extensionWords absoluteSlots Slot.all
  cases h₁ : i.isAbsolute .first <;> cases h₂ : i.isAbsolute .second <;> simp [h₁, h₂]

theorem withWords_congr {i : Instruction} {x y : Nat → UInt16}
    (h : ∀ k < i.extensionWords, x k = y k) : i.withWords x = i.withWords y := by
  rw [extensionWords_eq] at h
  unfold withWords Operand.withWord
  unfold isAbsolute operand? at h
  cases hops : i.operands with
  | quick data dst => by_cases hd : dst.mode = .absolute <;> simp_all
  | full src dst =>
    by_cases hs : src.mode = .absolute <;> by_cases hd : dst.mode = .absolute <;> simp_all

theorem complete_eq_withWords (i : Instruction) (rest : List UInt8) :
    Listing.complete i rest = i.withWords fun k => Listing.frontWord (rest.drop (2 * k)) := by
  obtain ⟨opcode, size, count, operands⟩ := i
  unfold Listing.complete withWords absoluteSlots Slot.all isAbsolute operand? Operand.withWord
  cases operands with
  | quick data dst => by_cases hd : dst.mode = .absolute <;> simp [setAddress, hd]
  | full src dst =>
    by_cases hs : src.mode = .absolute <;> by_cases hd : dst.mode = .absolute <;>
      simp [setAddress, hs, hd]

theorem extensionWords_of_not_hasOperands {w : UInt16} {i : Instruction} (h : decode w = .ok i)
    (ho : i.opcode.hasOperands = false) : i.extensionWords = 0 := by
  obtain ⟨-, -, -, hops⟩ := decode_eq_ok.mp h
  have hfull : i.operands = .full {} {} := by
    rw [hops, Operands.ofField]
    cases hopcode : i.opcode <;> simp_all [Opcode.hasOperands, Opcode.format]
  rw [extensionWords_eq]
  simp [isAbsolute, operand?, hfull]

end Instruction

namespace Datapath

variable {κ : Type} [Console κ] {s : Datapath κ} {i : Instruction}

/-- A cycle that completes its instruction executes it with the words of memory behind the opcode word,
from behind the last of them. -/
theorem cycle_fetched (hrun : s.regs.flags.halt = false) (hi : s.opcodePhase = .ok i)
    (hf : s.fetchFault? = none) :
    let j := i.withWords fun k => s.mem.wordAt (s.regs.pc.toNat + 2 + 2 * k)
    s.cycle.instruction = some j ∧ ∃ t : Datapath κ, t.adjusted = {} ∧
      t.regs.flags = s.regs.flags ∧
      t.regs.pc.toNat = s.regs.pc.toNat + 2 + 2 * i.extensionWords ∧
      t.regs.pc.toNat ≤ Memory.capacity ∧
      (j.execute t = .ok () s.cycle.state ∧ s.cycle.fault = none ∨
        ∃ f, j.execute t = .error f s.cycle.state ∧ s.cycle.fault = some f) := by
  intro j
  obtain ⟨j', t, hj, hinstr, hend⟩ := cycle_completed hrun hi hf
  obtain ⟨hpc, hlast⟩ := fetchOperands_toNat hi hj
  have hlength : (s.mem.slice 0 Memory.capacity).length = Memory.capacity := s.mem.slice_length ..
  have hinside : ∀ k < i.extensionWords,
      s.regs.pc.toNat + 2 + 2 * k + 2 ≤ Memory.capacity := fun k hk => by omega
  have hwords : j' = j := by
    rw [fetchOperands_eq_complete s.mem.holds_slice rfl (by omega)
      (fun k hk => .inl (by rw [hlength]; exact hinside k hk)) hj, Instruction.complete_eq_withWords]
    refine Instruction.withWords_congr fun k hk => ?_
    rw [List.drop_drop]
    exact s.mem.frontWord_slice (hinside k hk)
  obtain ⟨-, ht⟩ := Micro.fetchOperands_ok hj
  subst hwords
  exact ⟨hinstr, t, by rw [ht]; rfl, by rw [ht]; rfl, hpc, hlast, hend⟩

end Datapath

namespace Machine

variable {κ : Type} [Console κ] {m : Machine κ} {i : Instruction}

/-- A step whose words can be fetched. The opcode word says what is executed; each absolute operand, needed
or not, takes one of the words behind it, as they stood in memory before the step. The program counter
is then behind the last of these words, which lies in memory, whether the execution fails or not; but
at the address of the first operand after a branch whose condition held. -/
theorem step_consumes_words (hrun : m.isHalted = false) (hi : m.toDatapath.opcodePhase = .ok i)
    (hf : m.toDatapath.fetchFault? = none) :
    let j := i.withWords fun k => m.mem.wordAt (m.regs.pc.toNat + 2 + 2 * k)
    let goes := m.toDatapath.cycle.fault = none ∧ i.opcode.isBranch = true ∧
      Microprogram.taken i.opcode m.regs.flags = true
    Instruction.decode (m.mem.wordAt m.regs.pc.toNat) = .ok i ∧
    m.step.lastInstruction = some j ∧
    (goes → ∃ target, j.operand? .first = some target ∧ target.mode = .absolute ∧
      m.step.regs.pc = target.address) ∧
    (¬ goes → m.step.regs.pc.toNat = m.regs.pc.toNat + 2 + 2 * i.extensionWords) ∧
    m.regs.pc.toNat + 2 + 2 * i.extensionWords ≤ 0x1001 ∧
    i.extensionWords = (i.isAbsolute .first).toNat + (i.isAbsolute .second).toNat ∧
    (i.opcode.hasOperands = false → i.extensionWords = 0) := by
  intro j goes
  obtain ⟨x, hx, hdecode⟩ := Datapath.opcodePhase_word hi
  obtain ⟨hinstr, t, hadj, hflags, hpc, hlast, hend⟩ := Datapath.cycle_fetched hrun hi hf
  rw [Memory.toUInt16_of_read_word hx] at hdecode
  refine ⟨hdecode, by rw [step_lastInstruction hrun, hinstr], ?_, ?_, by rw [← hpc]; exact hlast,
    i.extensionWords_eq, Instruction.extensionWords_of_not_hasOperands hdecode⟩
  · rintro ⟨hok, hbranch, htaken⟩
    rcases hend with ⟨he, -⟩ | ⟨f, -, hfault⟩
    · rw [execute_of_isBranch (i := j) hbranch] at he
      obtain ⟨target, htarget, hmode, -, hstate⟩ := Microprogram.branch_ok he
      refine ⟨target, htarget, hmode, ?_⟩
      rw [step_pc hrun, hstate, hflags, if_pos (show Microprogram.taken j.opcode _ = true from htaken)]
      rfl
    · rw [hok] at hfault
      cases hfault
  · intro hstays
    rw [step_pc hrun, ← hpc]
    rcases hend with ⟨he, hok⟩ | ⟨f, he, -⟩
    · rw [execute_pc hadj he]
      rw [hflags, ← Bool.not_eq_true, Bool.and_eq_true]
      exact fun h => hstays ⟨hok, h⟩
    · rw [(execute_error hadj he).pc]

/-- `CLR.W $0002` right at address 0 clears its own extension word, and its second slot takes a word too.
`BCS.W $0100` goes there, since C is set. -/
theorem step_consumes_words_overwritten :
    let m := holding [0x3A, 0x66, 0x00, 0x02, 0x12, 0x34] {}
    let n := holding [0xAA, 0x60, 0x01, 0x00] { flags := { carry := true } }
    m.isHalted = false ∧ m.toDatapath.fetchFault? = none ∧
      m.step.lastInstruction =
        some { opcode := .clr, size := .word, operandCount := 1
               operands := .full (.absolute 2) (.absolute 0x1234) } ∧
      m.step.mem.wordAt 2 = 0 ∧ m.step.regs.pc.toNat = 6 ∧
      n.isHalted = false ∧ n.toDatapath.fetchFault? = none ∧ n.step.regs.pc = 0x100 := by
  intro m n
  have hrun : m.isHalted = false := by decide
  have hi : m.toDatapath.opcodePhase =
      .ok { opcode := .clr, size := .word, operandCount := 1
            operands := .full (.absolute 0) (.absolute 0) } :=
    Datapath.opcodePhase_eq_ok.mpr (by decide +kernel)
  have hf : m.toDatapath.fetchFault? = none := by decide +kernel
  have hrun' : n.isHalted = false := by decide
  have hi' : n.toDatapath.opcodePhase = .ok (.unary .bcs .word (.absolute 0)) :=
    Datapath.opcodePhase_eq_ok.mpr (by decide +kernel)
  have hf' : n.toDatapath.fetchFault? = none := by decide +kernel
  have hok' : n.toDatapath.cycle.fault = none := by decide +kernel
  obtain ⟨-, hlast, -, hbehind, -⟩ := step_consumes_words hrun hi hf
  obtain ⟨-, -, hgoes, -⟩ := step_consumes_words hrun' hi' hf'
  obtain ⟨target, htarget, -, hpc⟩ := hgoes ⟨hok', rfl, rfl⟩
  cases htarget
  refine ⟨hrun, hf, hlast.trans ?_, ?_, hbehind ?_, hrun', hf', hpc.trans ?_⟩
  · decide +kernel
  · decide +kernel
  · rintro ⟨-, hbranch, -⟩
    cases hbranch
  · decide +kernel

end Machine
end Micro68
