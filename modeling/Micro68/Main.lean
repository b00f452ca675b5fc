import Micro68.Session

/-! The command line program. -/

/-- The reason why a file cannot be read, with the number that the system gives it. -/
def Micro68.Session.fileReason : IO.Error → String
  | .noFileOrDirectory _ code details | .permissionDenied _ code details
  | .inappropriateType _ code details | .resourceExhausted _ code details =>
    details ++ " (os error " ++ toString code.toNat ++ ")"
  | e => toString e

def main (args : List String) : IO UInt32 := do
  let outcome ← match Micro68.Command.parse? args with
    | none => pure Micro68.Session.misuse
    | some command =>
      let file ← try
          pure (.ok (← IO.FS.readBinFile (Micro68.Session.imagePath command)).toList)
        catch e => pure (.error (Micro68.Session.fileReason e))
      let input ← match command with
        | .run _ => (← IO.getStdin).readBinToEnd
        | .disasm _ => pure .empty
      pure (Micro68.Session.perform command file input.toList)
  (← IO.getStdout).putStr outcome.out
  (← IO.getStderr).putStr outcome.err
  return outcome.code.toUInt32
