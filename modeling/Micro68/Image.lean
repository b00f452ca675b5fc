import Micro68.Machine

/-! Program images as text. `$` and hexadecimal digits give one byte, `/` opens or closes a comment,
and a comment also ends with its line. Nothing else counts. -/
namespace Micro68

inductive ByteError where
  | noDigits
  | tooLarge (digits : List Char)
  deriving DecidableEq

def ByteError.message : ByteError → String
  | noDigits => "expected hex digits after '$'"
  | tooLarge digits => "$" ++ String.ofList digits ++ " does not fit in a byte"

inductive ImageError where
  | io (reason : String)
  | parse (line : Nat) (error : ByteError)
  | tooLarge (error : RangeError)
  deriving DecidableEq

def ImageError.message : ImageError → String
  | io reason => "I/O error: " ++ reason
  | parse line e => "parse error on line " ++ toString line ++ ": " ++ e.message
  | tooLarge e => "image does not fit in memory: " ++ e.message

namespace Image

def byte (digits : List Char) : Except ByteError UInt8 :=
  if digits = [] then .error .noDigits
  else if Hex.ofDigits digits ≤ 255 then .ok (UInt8.ofNat (Hex.ofDigits digits))
  else .error (.tooLarge digits)

/-- The bytes of a text that starts on a line, inside or outside a comment. The digits of a byte
have no meaning of their own, so the scan goes on right after the `$`. -/
def scan (line : Nat) (comment : Bool) : List Char → Except ImageError (List UInt8)
  | [] => .ok []
  | c :: cs =>
    if c = '\n' then scan (line + 1) false cs
    else if c = '/' then scan line (!comment) cs
    else if c = '$' ∧ comment = false then
      match byte (cs.takeWhile Hex.isDigit) with
      | .ok b => (scan line comment cs).map (b :: ·)
      | .error e => .error (.parse line e)
    else scan line comment cs

def parse (text : String) : Except ImageError (List UInt8) := scan 1 false text.toList

end Image

def Machine.loadImage {κ : Type} (m : Machine κ) (image : List UInt8) :
    Except ImageError (Machine κ) :=
  (m.loadProgram image).mapError .tooLarge

end Micro68
