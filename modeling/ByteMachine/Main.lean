import ByteMachine.CommandLine.Run

/-! The program itself: it gathers what a call needs, and shows what the call leaves. -/

namespace ByteMachine.CommandLine

/-- The reason for a failed read, as the reader of files names it. -/
def readErrorOf : IO.Error → ReadError
  | .noFileOrDirectory .. => .missing
  | .inappropriateType none .. => .isDirectory
  | .inappropriateType (some _) .. => .notDirectory
  | e => .other (toString e)

def readFile (path : String) : IO (Except ReadError ByteArray) := do
  if path.contains '\x00' then
    return .error .notPath
  try
    return .ok (← IO.FS.readBinFile path)
  catch e =>
    return .error (readErrorOf e)

/-- The files that a call may read. -/
def wantedFiles (arguments : List String) (configPath : Option String) : List String :=
  match Request.ofArguments arguments with
  | .run program => configPath.toList ++ [program]
  | _ => []

/-- Seconds with four decimal places. -/
def secondsText (nanoseconds : Nat) : String :=
  let units := (nanoseconds + 50000) / 100000
  s!"{units / 10000}.{String.ofList ((Nat.toDigits 10 (units % 10000 + 10000)).drop 1)}"

end ByteMachine.CommandLine

open ByteMachine CommandLine in
def main (arguments : List String) : IO UInt32 := do
  let configPath ← IO.getEnv "LS8_CONFIG"
  let verbosity := (← IO.getEnv "RUST_LOG").bind Verbosity.ofName?
  let contents ← (wantedFiles arguments configPath).mapM fun path => do
    return (path, ← readFile path)
  let files : FileReader := fun path => (contents.lookup path).getD (.error .missing)
  let begun ← IO.monoNanosNow
  let result := { arguments, files, configPath, verbosity : Invocation }.result
  IO.print result.stdout
  let seconds := secondsText ((← IO.monoNanosNow) - begun)
  IO.eprint (result.stderr { seconds, missed := fun _ => 0 })
  return result.code.toUInt32
