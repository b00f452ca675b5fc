/-! Command lines: `run <image>` with a cycle limit, a trace and a choice of report, or
`disasm <image>`. Options may stand anywhere, short ones together in one argument, and `--` ends
them. -/
namespace Micro68

structure RunOptions where
  image : String
  maxCycles : UInt64 := 100000
  trace : Bool := false
  json : Bool := false
  deriving DecidableEq

inductive Command where
  | run (options : RunOptions)
  | disasm (image : String)
  deriving DecidableEq

namespace Command

/-- What has been read of a command line so far. -/
structure Draft where
  image : Option String := none
  maxCycles : Option UInt64 := none
  trace : Bool := false
  json : Bool := false

namespace Draft

def addImage (d : Draft) (path : String) : Option Draft :=
  if d.image.isSome then none else some { d with image := some path }

/-- An unsigned 64-bit number: decimal digits after an optional plus sign. -/
def limit? (text : List Char) : Option UInt64 :=
  let ds := if text.head? = some '+' then text.tail else text
  let n := ds.foldl (fun n c => 10 * n + (c.toNat - '0'.toNat)) 0
  if ds ≠ [] ∧ ds.all Char.isDigit ∧ n < UInt64.size then some (UInt64.ofNat n) else none

def setLimit (d : Draft) (text : List Char) : Option Draft :=
  if d.maxCycles.isSome then none else do return { d with maxCycles := some (← limit? text) }

def setTrace (d : Draft) : Option Draft := if d.trace then none else some { d with trace := true }

def setJson (d : Draft) : Option Draft := if d.json then none else some { d with json := true }

/-- Takes short options. The flag says that the limit is still to come, in the next argument. -/
def shorts (d : Draft) : List Char → Option (Draft × Bool)
  | [] => some (d, false)
  | 't' :: cs => do (← d.setTrace).shorts cs
  | ['m'] => some (d, true)
  | 'm' :: '=' :: cs => do return (← d.setLimit cs, false)
  | 'm' :: cs => do return (← d.setLimit cs, false)
  | _ => none

def argument (d : Draft) (arg : String) : Option (Draft × Bool) :=
  match arg.toList with
  | ['-'] => do return (← d.addImage arg, false)
  | '-' :: '-' :: name =>
    match name.span (· ≠ '=') with
    | (name, []) =>
      if name = "trace".toList then do return (← d.setTrace, false)
      else if name = "json".toList then do return (← d.setJson, false)
      else if name = "max-cycles".toList then some (d, true)
      else none
    | (name, _ :: value) =>
      if name = "max-cycles".toList then do return (← d.setLimit value, false) else none
  | '-' :: cs => d.shorts cs
  | _ => do return (← d.addImage arg, false)

def arguments (d : Draft) : List String → Option Draft
  | [] => some d
  | arg :: rest =>
    if arg = "--" then rest.foldlM addImage d
    else match d.argument arg, rest with
      | some (d, false), rest => d.arguments rest
      | some (d, true), value :: rest => do (← d.setLimit value.toList).arguments rest
      | _, _ => none

def options? (d : Draft) : Option RunOptions := do
  return { image := ← d.image, maxCycles := d.maxCycles.getD 100000
           trace := d.trace, json := d.json }

end Draft

def disasmImage? : List String → Option String
  | [path] => if path.startsWith "-" ∧ path ≠ "-" then none else some path
  | ["--", path] => some path
  | [path, "--"] => if path.startsWith "-" ∧ path ≠ "-" then none else some path
  | _ => none

def parse? : List String → Option Command
  | "run" :: args => do return run (← (← Draft.arguments {} args).options?)
  | "disasm" :: args => do return disasm (← disasmImage? args)
  | _ => none

end Command
end Micro68
