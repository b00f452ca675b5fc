import Micro68.Opcode
import Micro68.Size

/-! Names that reports use for sizes and operations. -/
namespace Micro68

/-- A size in a report. -/
def Size.tag : Size → String
  | byte => "Byte"
  | word => "Word"
  | long => "Long"

def Size.ofTag? (s : String) : Option Size := [byte, word, long].find? (·.tag = s)

namespace Opcode

def tag : Opcode → String
  | add => "Add"
  | addq => "Addq"
  | sub => "Sub"
  | subq => "Subq"
  | muls => "Muls"
  | divs => "Divs"
  | neg => "Neg"
  | clr => "Clr"
  | not => "Not"
  | and => "And"
  | or => "Or"
  | eor => "Eor"
  | lsl => "Lsl"
  | lsr => "Lsr"
  | rol => "Rol"
  | ror => "Ror"
  | cmp => "Cmp"
  | tst => "Tst"
  | bra => "Bra"
  | bvs => "Bvs"
  | beq => "Beq"
  | bcs => "Bcs"
  | bge => "Bge"
  | ble => "Ble"
  | move => "Mov"
  | moveq => "Movq"
  | exg => "Exg"
  | movea => "Mova"
  | inp => "Inp"
  | dsp => "Dsp"
  | dsr => "Dsr"
  | hlt => "Hlt"

def ofTag? (s : String) : Option Opcode := all.find? (·.tag = s)

end Opcode
end Micro68
