import Micro68.Proofs.Completion
import Micro68.Proofs.Elements
import Micro68.Proofs.Interruption
import Micro68.Proofs.Steps

/-! Results. Operations that compute put a word of their size, which words of that size determine,
where an operand is, and change nothing else in memory and in the data registers. Operations that do
not compute leave memory alone. -/
namespace Micro68

/-- How a result of width `w` depends on the operands, and which of them it replaces. -/
inductive Formula (w : Nat) where
  /-- Both operands; the result replaces the second. -/
  | binary (f : BitVec w → BitVec w → BitVec w)
  /-- The immediate and the second operand, which the result replaces. -/
  | quick (f : Nat → BitVec w → BitVec w)
  /-- The first operand, which the result replaces. -/
  | unary (f : BitVec w → BitVec w)

namespace Opcode

def formula (w : Nat) : Opcode → Option (Formula w)
  | add => some (.binary fun src dst => dst + src)
  | addq => some (.quick fun n dst => dst + BitVec.ofNat w n)
  | sub => some (.binary fun src dst => dst - src)
  | subq => some (.quick fun n dst => dst - BitVec.ofNat w n)
  | neg => some (.unary fun dst => 0 - dst)
  | clr => some (.unary fun _ => 0)
  | not => some (.unary fun dst => ~~~dst)
  | and => some (.binary fun src dst => dst &&& src)
  | or => some (.binary fun src dst => dst ||| src)
  | eor => some (.binary fun src dst => dst ^^^ src)
  | lsl => some (.quick fun n dst => dst <<< n)
  | lsr => some (.quick fun n dst => dst >>> n)
  | rol => some (.quick fun n dst => dst.rotateLeft n)
  | ror => some (.quick fun n dst => dst.rotateRight n)
  | move => some (.binary fun src _ => src)
  | moveq => some (.quick fun n _ => BitVec.ofNat w n)
  | _ => none

def clearsVC : Opcode → Bool
  | clr | not | and | or | eor | moveq => true
  | _ => false

/-- The status bits after an operation that computes: of `f` it makes `f'`. -/
structure FlagsAfter {w : Nat} (o : Opcode) (x : BitVec w) (f f' : Flags) : Prop where
  move : o = .move → f' = f
  zero : o ≠ .move → f'.zero = decide (x = 0)
  negative : o ≠ .move → f'.negative = x.msb
  cleared : o.clearsVC = true → f'.overflow = false ∧ f'.carry = false
  halt : f'.halt = f.halt

def keepsMemory : Opcode → Bool
  | cmp | tst | bra | bvs | beq | bcs | bge | ble | exg | movea | dsp | dsr | hlt => true
  | _ => false

/-- An outcome of the arithmetic unit is right for an operation: result and status bits. -/
structure Computes (o : Opcode) (size : Size) (f : Flags) (r : UInt32 × Flags)
    (x : BitVec size.bits) : Prop where
  result : size.trunc r.1 = x
  flags : o.FlagsAfter x f r.2

section Computes

variable {o : Opcode} {size : Size} {f : Flags} {r : UInt32 × Flags} {x : BitVec size.bits}

theorem computes_of_yields (h : Alu.Yields size f r x) (hmove : o ≠ .move)
    (hvc : o.clearsVC = false) : o.Computes size f r x := by
  refine ⟨h.result, fun hm => absurd hm hmove, fun _ => h.zero, fun _ => h.negative, fun hc => ?_,
    h.halt⟩
  rw [hvc] at hc
  cases hc

theorem computes_of_cleared (h : Alu.Yields size f r x) (hmove : o ≠ .move)
    (hv : r.2.overflow = false) (hc : r.2.carry = false) : o.Computes size f r x :=
  ⟨h.result, fun hm => absurd hm hmove, fun _ => h.zero, fun _ => h.negative, fun _ => ⟨hv, hc⟩,
    h.halt⟩

end Computes

end Opcode

def Instruction.advance (i : Instruction) (slot : Slot) (size : Size) (a : Vector UInt16 2) :
    Vector UInt16 2 :=
  Vector.ofFn fun r => a.get r + i.shift slot size r

def Datapath.withPointers {κ : Type} (s : Datapath κ) (a : Vector UInt16 2) : Datapath κ :=
  { s with regs := { s.regs with a } }

/-- Where the result of an instruction goes, and which one it is, from the state before it. The first
operand is read first, so the second one finds the address registers moved. -/
def Instruction.Result {κ : Type} (i : Instruction) (s : Datapath κ) :
    Formula i.size.bits → Location → BitVec i.size.bits → Prop
  | .binary f, l, x => ∃ l₁, i.reach .first i.size s.regs.a = .ok l₁ ∧
      i.reach .second i.size (i.advance .first i.size s.regs.a) = .ok l ∧
      x = f (s.element i.size l₁)
        ((s.withPointers (i.advance .first i.size s.regs.a)).element i.size l)
  | .quick f, l, x => i.reach .second i.size s.regs.a = .ok l ∧
      x = f i.data.toNat (s.element i.size l)
  | .unary f, l, x => i.reach .first i.size s.regs.a = .ok l ∧ x = f (s.element i.size l)

namespace Datapath

variable {κ : Type} {s : Datapath κ} {i : Instruction}

theorem settle_pointers (s : Datapath κ) (i : Instruction) (slot : Slot) (size : Size) :
    (s.settle i slot size).regs.a = i.advance slot size s.regs.a := by
  apply Vector.ext
  intro k hk
  have ha := s.settle_a i slot size ⟨k, hk⟩
  rw [Instruction.advance, Vector.getElem_ofFn]
  exact ha

/-- The second operand of two, as it is read. -/
theorem trunc_peek_second {m n : Size} {l : Location}
    (hl : i.reach .second n (s.settle i .first m).regs.a = .ok l) :
    n.trunc ((s.settleBoth i m n).peek n l) =
      (s.withPointers (i.advance .first m s.regs.a)).element n l := by
  rw [trunc_peek, settleBoth, element_settle hl]
  exact element_congr (s := s.withPointers (i.advance .first m s.regs.a))
    (s.settle_mem i .first m) (s.settle_d i .first m) (s.settle_pointers i .first m) n l

theorem trunc_peek_settle {slot : Slot} {size : Size} {l : Location}
    (hl : i.reach slot size s.regs.a = .ok l) :
    size.trunc ((s.settle i slot size).peek size l) = s.element size l := by
  rw [trunc_peek, element_settle hl]

end Datapath

namespace Microprogram

open Datapath

variable {κ : Type} {s t : Datapath κ} {i : Instruction}

theorem store_result {u : Datapath κ} {l : Location} {y : UInt32} {flags : Flags}
    {x : BitVec i.size.bits} (hm : u.mem = s.mem) (hd : u.regs.d = s.regs.d)
    (hl : l.fault? i.size = none) (hy : i.opcode.Computes i.size s.regs.flags (y, flags) x) :
    s.Wrote ((u.setFlags flags).poke i.size y l) i.size l x ∧
      i.opcode.FlagsAfter x s.regs.flags ((u.setFlags flags).poke i.size y l).regs.flags := by
  have hw := wrote_poke (s := u.setFlags flags) hl y
  rw [hy.result] at hw
  refine ⟨hw.of_eq (u := u.setFlags flags) hm hd, ?_⟩
  rw [poke_flags]
  exact hy.flags

theorem combine_result (hs : s.adjusted = {}) {op : AluOp}
    {g : BitVec i.size.bits → BitVec i.size.bits → BitVec i.size.bits}
    (hop : ∀ src dst f, i.opcode.Computes i.size f (op i.size src dst f)
      (g (i.size.trunc src) (i.size.trunc dst)))
    (h : combine op i s = .ok () t) :
    ∃ l x, i.Result s (.binary g) l x ∧ s.Wrote t i.size l x ∧
      i.opcode.FlagsAfter x s.regs.flags t.regs.flags := by
  obtain ⟨l₁, l, y, flags, h₁, h₂, hr, rfl⟩ := combine_ok hs h
  have hy := hop ((s.settle i .first i.size).peek i.size l₁)
    ((s.settleBoth i i.size i.size).peek i.size l) s.regs.flags
  rw [hr, trunc_peek_settle h₁, trunc_peek_second h₂] at hy
  have hstore := store_result (u := s.settleBoth i i.size i.size) (by simp [settleBoth])
    (by simp [settleBoth]) (reach_fault?_eq_none h₂) hy
  rw [settle_pointers] at h₂
  exact ⟨l, _, ⟨l₁, h₁, h₂, rfl⟩, hstore⟩

theorem combineQuick_result (hs : s.adjusted = {}) {op : AluOp}
    {g : Nat → BitVec i.size.bits → BitVec i.size.bits}
    (hop : ∀ dst f, i.opcode.Computes i.size f (op i.size i.data.toUInt32 dst f)
      (g i.data.toNat (i.size.trunc dst)))
    (h : combineQuick op i s = .ok () t) :
    ∃ l x, i.Result s (.quick g) l x ∧ s.Wrote t i.size l x ∧
      i.opcode.FlagsAfter x s.regs.flags t.regs.flags := by
  obtain ⟨l, y, flags, hl, hr, rfl⟩ := combineQuick_ok hs h
  have hy := hop ((s.settle i .second i.size).peek i.size l) s.regs.flags
  rw [hr, trunc_peek_settle hl] at hy
  have hstore := store_result (u := s.settle i .second i.size) (by simp) (by simp)
    (reach_fault?_eq_none hl) hy
  exact ⟨l, _, ⟨hl, rfl⟩, hstore⟩

theorem change_result (hs : s.adjusted = {}) {op : Size → UInt32 → Flags → UInt32 × Flags}
    {g : BitVec i.size.bits → BitVec i.size.bits}
    (hop : ∀ dst f, i.opcode.Computes i.size f (op i.size dst f) (g (i.size.trunc dst)))
    (h : change op i s = .ok () t) :
    ∃ l x, i.Result s (.unary g) l x ∧ s.Wrote t i.size l x ∧
      i.opcode.FlagsAfter x s.regs.flags t.regs.flags := by
  obtain ⟨l, y, flags, hl, hr, rfl⟩ := change_ok hs h
  have hy := hop ((s.settle i .first i.size).peek i.size l) s.regs.flags
  rw [hr, trunc_peek_settle hl] at hy
  have hstore := store_result (u := s.settle i .first i.size) (by simp) (by simp)
    (reach_fault?_eq_none hl) hy
  exact ⟨l, _, ⟨hl, rfl⟩, hstore⟩

theorem clear_result (hs : s.adjusted = {})
    (hop : ∀ f, i.opcode.Computes i.size f (Alu.logic i.size 0 f) 0)
    (h : clear i s = .ok () t) :
    ∃ l x, i.Result s (.unary fun _ => 0) l x ∧ s.Wrote t i.size l x ∧
      i.opcode.FlagsAfter x s.regs.flags t.regs.flags := by
  obtain ⟨l, y, flags, hl, hr, rfl⟩ := clear_ok hs h
  have hy := hop s.regs.flags
  rw [hr] at hy
  have hstore := store_result (u := s.settle i .first i.size) (by simp) (by simp)
    (reach_fault?_eq_none hl) hy
  exact ⟨l, _, ⟨hl, rfl⟩, hstore⟩

theorem moveQuick_result (hs : s.adjusted = {}) {g : Nat → BitVec i.size.bits}
    (hop : ∀ f, i.opcode.Computes i.size f (Alu.logic i.size i.data.toUInt32 f) (g i.data.toNat))
    (h : moveQuick i s = .ok () t) :
    ∃ l x, i.Result s (.quick fun n _ => g n) l x ∧ s.Wrote t i.size l x ∧
      i.opcode.FlagsAfter x s.regs.flags t.regs.flags := by
  obtain ⟨l, y, flags, hl, hr, rfl⟩ := moveQuick_ok hs h
  have hy := hop s.regs.flags
  rw [hr] at hy
  have hstore := store_result (u := s.settle i .second i.size) (by simp) (by simp)
    (reach_fault?_eq_none hl) hy
  exact ⟨l, _, ⟨hl, rfl⟩, hstore⟩

theorem move_result (hs : s.adjusted = {}) (ho : i.opcode = .move) (h : move i s = .ok () t) :
    ∃ l x, i.Result s (.binary fun src _ => src) l x ∧ s.Wrote t i.size l x ∧
      i.opcode.FlagsAfter x s.regs.flags t.regs.flags := by
  obtain ⟨l₁, l, h₁, h₂, rfl⟩ := move_ok hs h
  have hw := (wrote_poke (s := s.settleBoth i i.size i.size) (reach_fault?_eq_none h₂)
    ((s.settle i .first i.size).peek i.size l₁)).of_eq (s := s) (by simp [settleBoth])
    (by simp [settleBoth])
  rw [trunc_peek_settle h₁] at hw
  rw [settle_pointers] at h₂
  refine ⟨l, _, ⟨l₁, h₁, h₂, rfl⟩, hw, ?_⟩
  have hflags : ((s.settleBoth i i.size i.size).poke i.size
      ((s.settle i .first i.size).peek i.size l₁) l).regs.flags = s.regs.flags := by
    simp [settleBoth]
  rw [ho, hflags]
  exact ⟨fun _ => rfl, fun hm => absurd rfl hm, fun hm => absurd rfl hm,
    fun hc => by simp [Opcode.clearsVC] at hc, rfl⟩

end Microprogram

open Microprogram in
theorem execute_result {κ : Type} [Console κ] {s t : Datapath κ} {i : Instruction}
    {φ : Formula i.size.bits} (hs : s.adjusted = {}) (h : i.execute s = .ok () t)
    (hφ : i.opcode.formula i.size.bits = some φ) :
    ∃ l x, i.Result s φ l x ∧ s.Wrote t i.size l x ∧
      i.opcode.FlagsAfter x s.regs.flags t.regs.flags := by
  have hdata : i.size.trunc i.data.toUInt32 = BitVec.ofNat i.size.bits i.data.toNat := by
    apply BitVec.eq_of_toNat_eq
    rw [Size.toNat_trunc, UInt8.toNat_toUInt32, BitVec.toNat_ofNat]
  have hcount : i.data.toUInt32.toNat = i.data.toNat := UInt8.toNat_toUInt32 _
  obtain ⟨o, ho⟩ : ∃ o, i.opcode = o := ⟨_, rfl⟩
  unfold Instruction.execute at h
  cases o <;> simp only [ho, Opcode.formula, Option.some.injEq, reduceCtorEq] at h hφ <;> subst hφ
  case add =>
    refine combine_result hs (fun src dst f => ?_) h
    exact Opcode.computes_of_yields (Alu.add_yields ..) (by simp [ho]) (by rw [ho]; rfl)
  case sub =>
    refine combine_result hs (fun src dst f => ?_) h
    exact Opcode.computes_of_yields (Alu.sub_yields ..) (by simp [ho]) (by rw [ho]; rfl)
  case addq =>
    refine combineQuick_result hs (fun dst f => ?_) h
    rw [← hdata]
    exact Opcode.computes_of_yields (Alu.add_yields ..) (by simp [ho]) (by rw [ho]; rfl)
  case subq =>
    refine combineQuick_result hs (fun dst f => ?_) h
    rw [← hdata]
    exact Opcode.computes_of_yields (Alu.sub_yields ..) (by simp [ho]) (by rw [ho]; rfl)
  case lsl =>
    refine combineQuick_result hs (fun dst f => ?_) h
    rw [← hcount]
    exact Opcode.computes_of_yields (Alu.lsl_yields ..) (by simp [ho]) (by rw [ho]; rfl)
  case lsr =>
    refine combineQuick_result hs (fun dst f => ?_) h
    rw [← hcount]
    exact Opcode.computes_of_yields (Alu.lsr_yields ..) (by simp [ho]) (by rw [ho]; rfl)
  case rol =>
    refine combineQuick_result hs (fun dst f => ?_) h
    rw [← hcount]
    exact Opcode.computes_of_yields (Alu.rol_yields ..) (by simp [ho]) (by rw [ho]; rfl)
  case ror =>
    refine combineQuick_result hs (fun dst f => ?_) h
    rw [← hcount]
    exact Opcode.computes_of_yields (Alu.ror_yields ..) (by simp [ho]) (by rw [ho]; rfl)
  case neg =>
    refine change_result hs (fun dst f => ?_) h
    exact Opcode.computes_of_yields (Alu.neg_yields ..) (by simp [ho]) (by rw [ho]; rfl)
  case not =>
    refine change_result hs (fun dst f => ?_) h
    rw [← Size.trunc_not]
    exact Opcode.computes_of_cleared (Alu.logic_yields ..) (by simp [ho]) rfl rfl
  case and =>
    refine combine_result hs (fun src dst f => ?_) h
    exact Opcode.computes_of_cleared (Alu.and_yields ..) (by simp [ho]) rfl rfl
  case or =>
    refine combine_result hs (fun src dst f => ?_) h
    exact Opcode.computes_of_cleared (Alu.or_yields ..) (by simp [ho]) rfl rfl
  case eor =>
    refine combine_result hs (fun src dst f => ?_) h
    exact Opcode.computes_of_cleared (Alu.eor_yields ..) (by simp [ho]) rfl rfl
  case clr =>
    refine clear_result hs (fun f => ?_) h
    rw [← i.size.trunc_zero]
    exact Opcode.computes_of_cleared (Alu.logic_yields ..) (by simp [ho]) rfl rfl
  case moveq =>
    refine moveQuick_result hs (fun f => ?_) h
    rw [← hdata]
    exact Opcode.computes_of_cleared (Alu.logic_yields ..) (by simp [ho]) rfl rfl
  case move => exact move_result hs ho h

open Microprogram in
theorem execute_mem {κ : Type} [Console κ] {s t : Datapath κ} {i : Instruction}
    (hs : s.adjusted = {}) (h : i.execute s = .ok () t) (hk : i.opcode.keepsMemory = true) :
    t.mem = s.mem := by
  unfold Instruction.execute at h
  cases ho : i.opcode <;> simp only [ho, Opcode.keepsMemory, Bool.false_eq_true] at h hk
  case cmp =>
    obtain ⟨-, -, x, flags, -, -, -, rfl⟩ := compare_ok hs h
    simp [Datapath.settleBoth]
  case tst =>
    obtain ⟨-, x, flags, -, -, rfl⟩ := test_ok hs h
    simp
  case bra | bvs | beq | bcs | bge | ble =>
    obtain ⟨target, -, -, -, rfl⟩ := branch_ok h
    split <;> rfl
  case exg =>
    obtain ⟨src, dst, -, -, -, rfl⟩ := exchange_ok h
    rw [Datapath.setFlags_mem, Datapath.poke_register_mem, Datapath.poke_register_mem]
  case movea =>
    obtain ⟨src, dst, -, -, -, -, rfl⟩ := moveAddress_ok h
    rfl
  case dsp =>
    obtain ⟨l, -, rfl⟩ := display_ok hs h
    simp
  case dsr | hlt =>
    cases h
    rfl

namespace Machine

variable {κ : Type} [Console κ] {m : Machine κ} {i : Instruction}

theorem step_mem_of_keepsMemory (hp : m.toDatapath.opcodePhase = .ok i)
    (hk : i.opcode.keepsMemory = true) : m.step.mem = m.mem := by
  cases hrun : m.isHalted with
  | true => simp [step, hrun]
  | false =>
    cases hf : m.toDatapath.cycle.fault with
    | none =>
      obtain ⟨i', j, pc, hp', hform, -, he⟩ := step_executed hrun hf
      cases hp.symm.trans hp'
      have hj : j.opcode.keepsMemory = true := by rw [hform.opcode, hk]
      have hmem := execute_mem (by rfl) he hj
      exact hmem
    | some f =>
      rw [step_mem hrun]
      rcases Datapath.cycle_fault hrun hf with ⟨-, -, pc, hs⟩ | ⟨-, pc, -, -, hs⟩ |
        ⟨-, j, pc, -, -, -, he⟩
      · rw [hs]; rfl
      · rw [hs]; rfl
      · exact (execute_error (by rfl) he).mem

/-- Operations that compute put their result where it belongs, set the status bits by it, and change
nothing else in memory and in the data registers; the others never change memory. -/
theorem step_results (m : Machine κ) :
    (m.isHalted = false → m.toDatapath.cycle.fault = none →
      ∀ i φ, m.step.lastInstruction = some i → i.opcode.formula i.size.bits = some φ →
        (∃ k, m.toDatapath.opcodePhase = .ok k ∧ k.SameForm i) ∧
        ∃ l x, i.Result m.toDatapath φ l x ∧ m.toDatapath.Wrote m.step.toDatapath i.size l x ∧
          i.opcode.FlagsAfter x m.regs.flags m.step.regs.flags) ∧
    ∀ i, m.toDatapath.opcodePhase = .ok i → i.opcode.keepsMemory = true → m.step.mem = m.mem := by
  refine ⟨fun hrun hok i φ hi hφ => ?_, fun i hp hk => step_mem_of_keepsMemory hp hk⟩
  obtain ⟨k, j, pc, hp, hform, hj, he⟩ := step_executed hrun hok
  obtain rfl : j = i := Option.some.inj (hj.symm.trans hi)
  refine ⟨⟨k, hp, hform⟩, ?_⟩
  obtain ⟨l, x, hx, hw, hf⟩ := execute_result (by rfl) he hφ
  refine ⟨l, x, ?_, hw.of_eq (u := m.toDatapath.begin.jump pc) rfl rfl, hf⟩
  cases φ with
  | binary f => exact hx
  | quick f => exact hx
  | unary f => exact hx

/-- `ADD.W (A0)+,(A0)` finds its second operand where its first one has moved A0 to. `CMP.W` with the
same operands leaves memory alone. -/
theorem step_results_postIncrement :
    let m := holding [0x03, 0xC8, 0x00, 0x05, 0xFF, 0xFE] { a := #v[2, 0] }
    let n := holding [0x83, 0xC8, 0x00, 0x05, 0xFF, 0xFE] { a := #v[2, 0] }
    m.isHalted = false ∧ m.toDatapath.cycle.fault = none ∧
      m.step.mem.element .word 4 = 3 ∧ n.step.mem = n.mem := by
  intro m n
  have hrun : m.isHalted = false := by decide
  have hok : m.toDatapath.cycle.fault = none := by decide +kernel
  have hi : m.step.lastInstruction =
      some (.full .add .word { mode := .postIncrement } { mode := .indirect }) := by decide +kernel
  have hp : n.toDatapath.opcodePhase =
      .ok (.full .cmp .word { mode := .postIncrement } { mode := .indirect }) :=
    Datapath.opcodePhase_eq_ok.mpr (by decide +kernel)
  obtain ⟨-, l, x, ⟨l₁, h₁, h₂, hx⟩, hw, -⟩ := (step_results m).1 hrun hok _ _ hi rfl
  have hl₁ : l₁ = .memory 2 := by
    cases h₁
    rfl
  have hl : l = .memory 4 := by
    cases h₂
    rfl
  subst hl₁ hl
  have hvalue := hw.value (by simp)
  rw [hx] at hvalue
  refine ⟨hrun, hok, hvalue.trans (BitVec.eq_of_toNat_eq ?_), (step_results n).2 _ hp rfl⟩
  decide +kernel

end Machine
end Micro68
