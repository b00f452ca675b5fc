import Micro68.Size

/-! Elements of 1, 2 or 4 bytes, most significant byte first. -/
namespace Micro68.BigEndian

/-- The number a run of bytes writes; only the last four count. -/
def value (bs : List UInt8) : UInt32 := bs.foldl (fun x b => x <<< 8 ||| b.toUInt32) 0

def bytes (s : Size) (x : UInt32) : List UInt8 :=
  (List.range s.bytes).reverse.map fun k => (x >>> (UInt32.ofNat (8 * k))).toUInt8

@[simp] theorem bytes_length (s : Size) (x : UInt32) : (bytes s x).length = s.bytes := by
  simp [bytes]

def word (hi lo : UInt8) : UInt16 := hi.toUInt16 <<< 8 ||| lo.toUInt16

def wordBytes (x : UInt16) : List UInt8 := [(x >>> 8).toUInt8, x.toUInt8]

end Micro68.BigEndian
