import Micro68.Proofs.FaultCauses

/-! Classes of faults: which faults a step can end with, when, and what each of them says. An operand
in a slot that the operation does not examine is no ground for a fault, whatever its mode. -/
namespace Micro68

theorem Mode.code_ne {m n : Mode} (hm : ofCode m.code = m) (hn : ofCode n.code = n) (h : m ≠ n) :
    m.code ≠ n.code := fun hc => h (by rw [← hm, hc, hn])

namespace Opcode

def Refuses (o : Opcode) (slot : Slot) (c : UInt8) : Prop :=
  if o.isBranch then c ≠ 3
  else if o = .exg then c ≠ 0 ∧ c ≠ 1
  else if o = .movea then (slot = .first ∧ c ≠ 3) ∨ (slot = .second ∧ c ≠ 1)
  else c = 2 ∨ c = 5

theorem refuses_of_admits {o : Opcode} {slot : Slot} {mode : Mode}
    (hmode : ∀ c, mode = .reserved c → c = 2 ∨ c = 5) (h : o.admits slot mode = false) :
    o.Refuses slot mode.code := by
  have hcode := (Mode.ofCode_code hmode).2
  have habsolute : mode ≠ .absolute → mode.code ≠ 3 := Mode.code_ne hcode rfl
  have haddress : mode ≠ .addressRegister → mode.code ≠ 1 := Mode.code_ne hcode rfl
  have hdata : mode ≠ .dataRegister → mode.code ≠ 0 := Mode.code_ne hcode rfl
  cases o
  case bra | bvs | beq | bcs | bge | ble => exact habsolute (by simpa [admits] using h)
  case exg =>
    refine ⟨hdata ?_, haddress ?_⟩ <;> rintro rfl <;> simp [admits, Mode.isRegister] at h
  case movea =>
    cases slot
    · exact .inl ⟨rfl, habsolute (by simpa [admits] using h)⟩
    · exact .inr ⟨rfl, haddress (by simpa [admits] using h)⟩
  all_goals
    cases mode <;> simp [admits, Mode.isReserved] at h
    exact hmode _ rfl

end Opcode

namespace Instruction

/-- The instruction with another operand in a slot, if it has one there. -/
def setOperand (i : Instruction) (slot : Slot) (op : Operand) : Instruction :=
  { i with operands := match slot, i.operands with
    | .first, .full _ dst => .full op dst
    | .first, .quick data dst => .quick data dst
    | .second, .full src _ => .full src op
    | .second, .quick data _ => .quick data op }

theorem isAbsolute_setOperand {i : Instruction} {slot : Slot} {op : Operand}
    (hi : i.isAbsolute slot = false) (hop : op.mode ≠ .absolute) (t : Slot) :
    (i.setOperand slot op).isAbsolute t = i.isAbsolute t := by
  unfold isAbsolute operand? at hi
  cases slot <;> cases t <;> unfold isAbsolute operand? setOperand <;>
    cases hops : i.operands <;> simp_all

theorem setAddress_setOperand {i : Instruction} {slot t : Slot} (h : t ≠ slot) (op : Operand)
    (a : UInt16) : (i.setOperand slot op).setAddress t a = (i.setAddress t a).setOperand slot op := by
  cases slot <;> cases t <;> first | exact absurd rfl h | skip
  all_goals unfold setOperand setAddress; cases i.operands <;> rfl

/-- An operation does not depend on an operand that it does not examine. -/
theorem execute_setOperand {κ : Type} [Console κ] {i : Instruction} {slot : Slot}
    (h : slot ∉ i.opcode.examined) (op : Operand) :
    (i.setOperand slot op).execute (κ := κ) = i.execute := by
  obtain ⟨o, size, count, ops⟩ := i
  cases o <;> cases slot <;> simp [Opcode.examined, Opcode.touched] at h
  all_goals cases ops <;> rfl

theorem decode_error_cause {w : UInt16} {f : Fault} (h : decode w = .error f) :
    f = .invalidSize 3 ∧ bitField w 9 10 = 3 ∧
      ∃ o, Opcode.ofId (bitField w 11 15).toUInt8 = .ok o ∧ o.hasOperands = true := by
  have hfault := decode_error h
  refine ⟨hfault, ?_⟩
  obtain ⟨o, ho⟩ := ofId_bitField w
  cases hs : decodeSize o (bitField w 9 10).toUInt8 with
  | ok size =>
    simp only [decode_eq, ho, hs, bind, Except.bind] at h
    cases h
  | error g =>
    simp only [decode_eq, ho, hs, bind, Except.bind] at h
    cases h
    unfold decodeSize at hs
    split at hs
    · rename_i hoperands
      refine ⟨?_, o, ho, hoperands⟩
      unfold Size.ofCode at hs
      split at hs <;> cases hs
      have hcode : (bitField w 9 10).toUInt8 = 3 := Fault.invalidSize.inj hfault
      have hlow := toNat_bitField_toUInt8 w 9 10 (by decide)
      rw [← UInt16.toNat_inj, toNat_bitField w 9 10 (by decide), ← hlow, hcode]
      rfl
    · cases hs

theorem count_eq_two_iff {w : UInt16} {i : Instruction} (h : decode w = .ok i) :
    i.operandCount = 2 ↔ w.toNat.testBit 8 = true := by
  rw [← UInt8.toNat_inj, count_of_decode h, Nat.testBit_eq_decide_div_mod_eq, decide_eq_true_eq]
  change w.toNat / 256 % 2 + 1 = 2 ↔ w.toNat / 256 % 2 = 1
  omega

end Instruction

namespace Memory

theorem rangeError_of_not_inRange {size : Size} {a : UInt16} (h : inRange size a = false) :
    ((rangeError size a).len = 1 ∨ (rangeError size a).len = 2 ∨ (rangeError size a).len = 4) ∧
      0x1001 < (rangeError size a).address.toNat + (rangeError size a).len.toNat := by
  have hout : capacity < a.toNat + size.bytes := by simpa [inRange] using h
  have haddress : (rangeError size a).address.toNat = a.toNat := UInt16.toNat_toUInt64 a
  rw [haddress]
  cases size
  · exact ⟨.inl rfl, hout⟩
  · exact ⟨.inr (.inl rfl), hout⟩
  · exact ⟨.inr (.inr rfl), hout⟩

end Memory

namespace Micro

variable {κ : Type} {s t : Datapath κ} {i : Instruction} {f : Fault}

theorem fetchAddresses_cause {slots : List Slot} (h : slots.foldlM fetchAddress i s = .error f t) :
    ∃ a, Memory.inRange .word a = false ∧ f = .outOfRange (Memory.rangeError .word a) := by
  induction slots generalizing i s with
  | nil => cases h
  | cons slot slots ih =>
    rw [List.foldlM_cons, bind_eq_error] at h
    rcases h with h | ⟨j, u, -, hu⟩
    · rw [fetchAddress_run] at h
      split at h <;> cases h
      rename_i e he
      unfold Memory.read at he
      split at he <;> cases he
      rename_i hout
      exact ⟨_, by simpa using hout, rfl⟩
    · exact ih hu

theorem fetchOperands_cause (h : fetchOperands i s = .error f t) :
    (i.operandCount = 2 ∧ i.opcode.format = .quick ∧ f = .invalidOperandCount 2) ∨
      ∃ a, Memory.inRange .word a = false ∧ f = .outOfRange (Memory.rangeError .word a) := by
  unfold fetchOperands at h
  split at h
  · rename_i hquick
    cases h
    exact .inl ⟨hquick.1, hquick.2, by rw [hquick.1]⟩
  · exact .inr (fetchAddresses_cause h)

theorem fetchAddresses_setOperand {slot : Slot} (op : Operand) {slots : List Slot}
    (hslots : slot ∉ slots) : slots.foldlM fetchAddress (i.setOperand slot op) s =
      match slots.foldlM fetchAddress i s with
      | .ok j t => .ok (j.setOperand slot op) t
      | .error f t => .error f t := by
  induction slots generalizing i s with
  | nil => rfl
  | cons t slots ih =>
    rw [List.mem_cons, not_or] at hslots
    rw [List.foldlM_cons, List.foldlM_cons, bind_run, bind_run, fetchAddress_run, fetchAddress_run]
    cases s.mem.read .word s.regs.pc with
    | error e => rfl
    | ok x =>
      dsimp only
      rw [Instruction.setAddress_setOperand (Ne.symm hslots.1), ih hslots.2]

end Micro

namespace Datapath

variable {κ : Type}

theorem fetchFault?_quick {s : Datapath κ} {i : Instruction} (hi : s.opcodePhase = .ok i)
    (hcount : i.operandCount = 2) (hquick : i.opcode.format = .quick) :
    s.fetchFault? = some (.invalidOperandCount 2) := by
  simp [fetchFault?, hi, Micro.fetchOperands, hcount, hquick]

variable [Console κ]

/-- In a slot that the operation does not examine, and that no extension word follows, one operand is
as good as another. -/
theorem operandPhase_setOperand {s : Datapath κ} (hrun : s.regs.flags.halt = false)
    {i : Instruction} {slot : Slot} (hslot : slot ∉ i.opcode.examined)
    (hi : i.isAbsolute slot = false) (op : Operand) (hop : op.mode ≠ .absolute) :
    (s.operandPhase (i.setOperand slot op)).fault = (s.operandPhase i).fault ∧
      (s.operandPhase (i.setOperand slot op)).state = (s.operandPhase i).state := by
  have habs : (i.setOperand slot op).isAbsolute = i.isAbsolute :=
    funext (Instruction.isAbsolute_setOperand hi hop)
  have hslots : slot ∉ i.absoluteSlots := by simp [Instruction.absoluteSlots, hi]
  have hfetch : Micro.fetchOperands (i.setOperand slot op) s =
      match Micro.fetchOperands i s with
      | .ok j t => .ok (j.setOperand slot op) t
      | .error f t => .error f t := by
    unfold Micro.fetchOperands
    change (if i.operandCount = 2 ∧ i.opcode.format = .quick then _ else _ : Micro κ Instruction) s = _
    split
    · rfl
    · unfold Micro.fetchAddresses Instruction.absoluteSlots
      rw [habs]
      exact Micro.fetchAddresses_setOperand op hslots
  rw [operandPhase_run hrun, operandPhase_run hrun, hfetch]
  cases hj : Micro.fetchOperands i s with
  | error f t => exact ⟨rfl, rfl⟩
  | ok j t =>
    have hexamined : slot ∉ j.opcode.examined := by
      rw [(Micro.fetchOperands_ok hj).1.opcode]
      exact hslot
    dsimp only
    rw [Instruction.execute_setOperand hexamined]
    cases j.execute t <;> exact ⟨rfl, rfl⟩

theorem cycle_of_unexamined {s : Datapath κ} {i : Instruction} {slot : Slot} {op : Operand}
    (hrun : s.regs.flags.halt = false) (hi : s.opcodePhase = .ok i)
    (hop : i.operand? slot = some op) (hmode : op.mode.isReserved = true)
    (hslot : slot ∉ i.opcode.examined) :
    s.cycle.fault =
        ((s.begin.jump (s.regs.pc + 2)).operandPhase (i.setOperand slot {})).fault ∧
      s.cycle.state =
        ((s.begin.jump (s.regs.pc + 2)).operandPhase (i.setOperand slot {})).state := by
  have habs : i.isAbsolute slot = false := by
    cases hm : op.mode <;> simp [Instruction.isAbsolute, hop, hm, Mode.isReserved] at hmode ⊢
  have hkept : (s.begin.jump (s.regs.pc + 2)).regs.flags.halt = false := hrun
  obtain ⟨hfault, hstate⟩ := operandPhase_setOperand hkept hslot habs {} (by decide)
  rw [cycle_run hrun, hi]
  exact ⟨hfault.symm, hstate.symm⟩

end Datapath

namespace Machine

variable {κ : Type} [Console κ]

/-- What a fault, which is reported with the operation if there was one, says about the step of a
machine. -/
def Tells (m : Machine κ) : Fault → Option Opcode → Prop
  | .invalidInstruction _, _ => False
  | .outOfRange e, none => e = ⟨m.regs.pc.toUInt64, 2⟩ ∧ 0x1000 ≤ m.regs.pc
  | .outOfRange e, some _ =>
    (e.len = 1 ∨ e.len = 2 ∨ e.len = 4) ∧ 0x1001 < e.address.toNat + e.len.toNat
  | .invalidSize c, none => c = 3 ∧ ∃ x o, m.mem.read .word m.regs.pc = .ok x ∧
    bitField x.toUInt16 9 10 = 3 ∧ Opcode.ofId (bitField x.toUInt16 11 15).toUInt8 = .ok o ∧
    o.hasOperands = true
  | .invalidSize c, some o =>
    (o = .muls ∨ o = .movea ∨ o.isBranch = true) ∧ c ≠ 1 ∨ o = .divs ∧ c ≠ 2
  | .invalidOperandCount n, o => n = 2 ∧ ∃ i, m.toDatapath.opcodePhase = .ok i ∧
    o = some i.opcode ∧ i.opcode.format = .quick ∧ i.operandCount = 2
  | .divisionByZero, o => o = some .divs ∧ ∃ i l, m.step.lastInstruction = some i ∧
    i.opcode = .divs ∧ i.size = .long ∧ i.reach .first .word m.regs.a = .ok l ∧
    m.toDatapath.element .word l = 0
  | .inputUnavailable _, o => o = some .inp
  | .invalidMode c, o => ∃ i slot op, m.step.lastInstruction = some i ∧ o = some i.opcode ∧
    slot ∈ i.opcode.examined ∧ i.operand? slot = some op ∧ op.mode.code = c ∧ c < 8 ∧
    i.opcode.Refuses slot c

theorem tells_of_opcodePhase {m : Machine κ} {f : Fault} (h : m.toDatapath.opcodePhase = .error f) :
    m.Tells f none := by
  unfold Datapath.opcodePhase at h
  split at h
  · rename_i e he
    cases h
    unfold Memory.read at he
    split at he <;> cases he
    rename_i hout
    have hpc : Memory.capacity < m.regs.pc.toNat + Size.word.bytes := by
      simpa [Memory.inRange] using hout
    refine ⟨rfl, ?_⟩
    change 0x1001 < m.regs.pc.toNat + 2 at hpc
    exact UInt16.le_iff_toNat_le.mpr (show 0x1000 ≤ m.regs.pc.toNat by omega)
  · rename_i x hx
    obtain ⟨rfl, hsize, o, ho, hoperands⟩ := Instruction.decode_error_cause h
    exact ⟨rfl, x, o, hx, hsize, ho, hoperands⟩

theorem tells_of_fetch {m : Machine κ} {i : Instruction} {s t : Datapath κ} {f : Fault}
    (hi : m.toDatapath.opcodePhase = .ok i) (h : Micro.fetchOperands i s = .error f t) :
    m.Tells f (some i.opcode) := by
  rcases Micro.fetchOperands_cause h with ⟨hcount, hquick, rfl⟩ | ⟨a, ha, rfl⟩
  · exact ⟨rfl, i, hi, rfl, hquick, hcount⟩
  · exact Memory.rangeError_of_not_inRange ha

theorem tells_of_execution {m : Machine κ} {w : UInt16} {i j : Instruction} {pc : UInt16} {f : Fault}
    (hi : Instruction.decode w = .ok i) (hform : i.SameForm j)
    (hlast : m.step.lastInstruction = some j)
    (h : FaultCause (m.toDatapath.begin.jump pc) j f) : m.Tells f (some j.opcode) := by
  cases h with
  | outside size a hout => exact Memory.rangeError_of_not_inRange hout
  | mode slot op hslot hop hadmits =>
    have hreserved : ∀ c, op.mode = .reserved c → c = 2 ∨ c = 5 := by
      intro c hc
      have ho := hform.operand slot
      rw [hop] at ho
      obtain ⟨op', hop', hsame⟩ := Option.map_eq_some_iff.mp ho.symm
      have hmode : op'.mode = op.mode := (Operand.mk.inj hsame).1
      exact ((Instruction.canonical_of_decode hi).operand slot op' hop').reserved c (hmode.trans hc)
    exact ⟨j, slot, op, hlast, rfl, hslot, hop, rfl, (Mode.ofCode_code hreserved).1,
      Opcode.refuses_of_admits hreserved hadmits⟩
  | size sole hsole hne =>
    have hcode : ∀ size : Size, j.size ≠ size → j.size.code ≠ size.code := by
      intro size
      cases j.size <;> cases size <;> simp [Size.code]
    cases ho : j.opcode <;> simp only [ho, Opcode.soleSize, reduceCtorEq, Option.some.injEq] at hsole
    case divs => exact .inr ⟨rfl, hcode .long (hsole ▸ hne)⟩
    case muls => exact .inl ⟨.inl rfl, hcode .word (hsole ▸ hne)⟩
    case movea => exact .inl ⟨.inr (.inl rfl), hcode .word (hsole ▸ hne)⟩
    all_goals exact .inl ⟨.inr (.inr rfl), hcode .word (hsole ▸ hne)⟩
  | division l ho hsize hl hzero =>
    refine ⟨by rw [ho], j, l, hlast, ho, hsize, hl, ?_⟩
    rw [← hzero]
    exact Datapath.element_congr (s := m.toDatapath.begin.jump pc) rfl rfl rfl .word l
  | input request e ho he => exact congrArg some ho

theorem cycle_tells {m : Machine κ} {f : Fault} (hrun : m.isHalted = false)
    (h : m.toDatapath.cycle.fault = some f) :
    m.Tells f (m.toDatapath.cycle.instruction.map (·.opcode)) := by
  -- the fault comes from the opcode word, from an extension word, or from the execution
  cases hi : m.toDatapath.opcodePhase with
  | error g =>
    obtain ⟨hfault, hinstruction⟩ := Datapath.cycle_of_opcodePhase_error hrun hi
    cases hfault.symm.trans h
    rw [hinstruction]
    exact tells_of_opcodePhase hi
  | ok i =>
    cases hfetch : m.toDatapath.fetchFault? with
    | some g =>
      obtain ⟨hfault, hinstruction⟩ := Datapath.cycle_of_fetchFault hrun hi hfetch
      cases hfault.symm.trans h
      rw [hinstruction]
      simp only [Datapath.fetchFault?, hi] at hfetch
      split at hfetch <;> cases hfetch
      exact tells_of_fetch hi ‹_›
    | none =>
      obtain ⟨j, t, hj, hinstruction, hend⟩ := Datapath.cycle_completed hrun hi hfetch
      rcases hend with ⟨-, hnone⟩ | ⟨g, hg, hfault⟩
      · rw [hnone] at h
        cases h
      cases hfault.symm.trans h
      obtain ⟨hform, rfl⟩ := Micro.fetchOperands_ok hj
      obtain ⟨x, -, hdecode⟩ := Datapath.opcodePhase_word hi
      rw [hinstruction]
      exact tells_of_execution hdecode hform ((step_lastInstruction hrun).trans hinstruction)
        (execute_cause rfl (hform.furnished (Instruction.furnished_of_decode hdecode)) hg)

/-- An operand count is wrong exactly if the opcode word is there, and asks for two operands of an
operation in the quick format. -/
theorem invalidOperandCount_iff {m : Machine κ} (hrun : m.isHalted = false) :
    (∃ n, m.toDatapath.cycle.fault = some (.invalidOperandCount n)) ↔
      ∃ x i, m.mem.read .word m.regs.pc = .ok x ∧ Instruction.decode x.toUInt16 = .ok i ∧
        i.opcode.format = .quick ∧ x.toUInt16.toNat.testBit 8 = true := by
  constructor
  · rintro ⟨n, hn⟩
    obtain ⟨-, i, hi, -, hquick, hcount⟩ := cycle_tells hrun hn
    obtain ⟨x, hx, hdecode⟩ := Datapath.opcodePhase_word hi
    exact ⟨x, i, hx, hdecode, hquick, (Instruction.count_eq_two_iff hdecode).mp hcount⟩
  · rintro ⟨x, i, hx, hdecode, hquick, hbit⟩
    have hi : m.toDatapath.opcodePhase = .ok i := by
      rw [Datapath.opcodePhase, hx]
      exact hdecode
    have hcount := (Instruction.count_eq_two_iff hdecode).mpr hbit
    exact ⟨2, (Datapath.cycle_of_fetchFault hrun hi (Datapath.fetchFault?_quick hi hcount hquick)).1⟩

/-- The fault of a step is recorded with the operation and the old program counter, and what it says
about the step is so. The operand count is wrong exactly for quick operations with bit 8 set, and a
reserved mode in a slot that the operation does not examine counts as a data register. -/
theorem step_fault_classified (m : Machine κ) (hrun : m.isHalted = false) :
    (∀ f, m.toDatapath.cycle.fault = some f →
      ∃ o, m.step.lastFault = some ⟨f, o, m.regs.pc⟩ ∧
        o = m.step.lastInstruction.map (·.opcode) ∧ m.Tells f o) ∧
    ((∃ n, m.toDatapath.cycle.fault = some (.invalidOperandCount n)) ↔
      ∃ x i, m.mem.read .word m.regs.pc = .ok x ∧ Instruction.decode x.toUInt16 = .ok i ∧
        i.opcode.format = .quick ∧ x.toUInt16.toNat.testBit 8 = true) ∧
    ∀ i slot op, m.toDatapath.opcodePhase = .ok i → i.operand? slot = some op →
      op.mode.isReserved = true → slot ∉ i.opcode.examined →
      m.toDatapath.cycle.fault = ((m.toDatapath.begin.jump (m.regs.pc + 2)).operandPhase
        (i.setOperand slot {})).fault := by
  refine ⟨fun f hf => ?_, invalidOperandCount_iff hrun, fun i slot op hi hop hmode hslot =>
    (Datapath.cycle_of_unexamined hrun hi hop hmode hslot).1⟩
  refine ⟨m.toDatapath.cycle.instruction.map (·.opcode), ?_, ?_, cycle_tells hrun hf⟩
  · rw [step_of_fault hrun hf]
  · rw [step_lastInstruction hrun]

/-- `DIVS.L D0,D1` while D0 holds $10000: its low word is zero. -/
theorem step_fault_classified_lowWord :
    let m := holding [0x2D, 0x01] { d := #v[0x10000, 5] }
    m.isHalted = false ∧ m.toDatapath.cycle.fault = some .divisionByZero ∧
      m.Tells .divisionByZero (some .divs) := by
  intro m
  have hrun : m.isHalted = false := by decide +kernel
  have hfault : m.toDatapath.cycle.fault = some .divisionByZero := by decide +kernel
  obtain ⟨o, hlast, -, htells⟩ := (step_fault_classified m hrun).1 _ hfault
  have ho : m.step.lastFault.bind (·.opcode) = some .divs := by decide +kernel
  rw [hlast] at ho
  exact ⟨hrun, hfault, ho ▸ htells⟩

end Machine
end Micro68
