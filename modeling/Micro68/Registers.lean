import Micro68.Flags

/-! The register file. Data registers hold 32-bit patterns, which reports show signed. -/
namespace Micro68

structure Registers where
  d : Vector UInt32 2 := #v[0, 0]
  a : Vector UInt16 2 := #v[0, 0]
  pc : UInt16 := 0
  flags : Flags := {}
  deriving DecidableEq

namespace Registers

def setD (r : Registers) (n : Fin 2) (x : UInt32) : Registers := { r with d := r.d.set n x }

def setA (r : Registers) (n : Fin 2) (x : UInt16) : Registers := { r with a := r.a.set n x }

@[simp] theorem setD_d (r : Registers) (n k : Fin 2) (x : UInt32) :
    (r.setD n x).d.get k = if n = k then x else r.d.get k := by
  change (r.d.set n x)[k] = if n = k then x else r.d[k]
  simp [Vector.getElem_set, Fin.ext_iff]

@[simp] theorem setA_a (r : Registers) (n k : Fin 2) (x : UInt16) :
    (r.setA n x).a.get k = if n = k then x else r.a.get k := by
  change (r.a.set n x)[k] = if n = k then x else r.a[k]
  simp [Vector.getElem_set, Fin.ext_iff]

@[simp] theorem setD_a (r : Registers) (n : Fin 2) (x : UInt32) : (r.setD n x).a = r.a := rfl
@[simp] theorem setD_pc (r : Registers) (n : Fin 2) (x : UInt32) : (r.setD n x).pc = r.pc := rfl
@[simp] theorem setD_flags (r : Registers) (n : Fin 2) (x : UInt32) :
    (r.setD n x).flags = r.flags := rfl
@[simp] theorem setA_d (r : Registers) (n : Fin 2) (x : UInt16) : (r.setA n x).d = r.d := rfl
@[simp] theorem setA_pc (r : Registers) (n : Fin 2) (x : UInt16) : (r.setA n x).pc = r.pc := rfl
@[simp] theorem setA_flags (r : Registers) (n : Fin 2) (x : UInt16) :
    (r.setA n x).flags = r.flags := rfl

def advance (r : Registers) : Registers := { r with pc := r.pc + 2 }

def jump (r : Registers) (target : UInt16) : Registers := { r with pc := target }

def withFlags (r : Registers) (flags : Flags) : Registers := { r with flags }

def setHalt (r : Registers) : Registers := r.withFlags r.flags.setHalt

end Registers
end Micro68
