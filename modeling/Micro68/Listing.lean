import Micro68.Instruction.Encoding
import Micro68.Instruction.Text

/-! Listings: a program image taken apart, one instruction after the other. -/
namespace Micro68

/-- What stands at one place of an image. -/
inductive ListingItem where
  | instruction (i : Instruction)
  /-- A word that is no opcode word. -/
  | unknown (word : UInt16)
  /-- A byte left over at the end. -/
  | stray (byte : UInt8)
  deriving DecidableEq

namespace ListingItem

/-- How far it is to the next place. -/
def length : ListingItem → Nat
  | instruction i => 2 + 2 * i.extensionWords
  | unknown _ => 2
  | stray _ => 1

def text : ListingItem → String
  | instruction i => i.text
  | unknown word => "??? $" ++ Hex.padded 4 word.toNat
  | stray byte => "??? $" ++ Hex.padded 2 byte.toNat

end ListingItem

namespace Listing

/-- The word at the front of some bytes; zero if there is no whole word. -/
def frontWord : List UInt8 → UInt16
  | hi :: lo :: _ => BigEndian.word hi lo
  | _ => 0

/-- Gives each absolute operand its extension word from the bytes after the opcode word. -/
def complete (i : Instruction) (rest : List UInt8) : Instruction :=
  (i.absoluteSlots.foldl (fun (i, rest) slot => (i.setAddress slot (frontWord rest), rest.drop 2))
    (i, rest)).1

def itemAt (hi lo : UInt8) (rest : List UInt8) : ListingItem :=
  match Instruction.decode (BigEndian.word hi lo) with
  | .ok i => .instruction (complete i rest)
  | .error _ => .unknown (BigEndian.word hi lo)

def itemsFrom (address : Nat) : List UInt8 → List (Nat × ListingItem)
  | [] => []
  | [b] => [(address, .stray b)]
  | hi :: lo :: rest =>
    let item := itemAt hi lo rest
    (address, item) :: itemsFrom (address + item.length) (rest.drop (item.length - 2))
termination_by bytes => bytes.length
decreasing_by simp; omega

def items (image : List UInt8) : List (Nat × ListingItem) := itemsFrom 0 image

def line (address : Nat) (item : ListingItem) : String :=
  Hex.padded 4 address ++ ": " ++ item.text

def text (image : List UInt8) : String :=
  String.join ((items image).map fun (address, item) => line address item ++ "\n")

end Listing
end Micro68
