import DocBlock.CommandLine.Run

/-! The program: reads what a plan needs and prints its outcome. -/

open DocBlock DocBlock.CommandLine

/-- The cause of a failure to read a file. -/
def DocBlock.CommandLine.FileCause.ofError : IO.Error → FileCause
  | .noFileOrDirectory .. => .notFound
  | .noSuchThing .. => .notFound
  | .inappropriateType _ code _ => if code = 20 then .notDirectory else .isDirectory
  | .permissionDenied .. => .other 13 "Permission denied".toList
  | error => .other 5 error.toString.toList

/-- The contents of a file. -/
def readContents (path : Text) : IO (Except FileError Text) := do
  let name := String.ofList path
  try
    return .ok (← IO.FS.readFile name).toList
  catch error => return .error { cause := .ofError error, path }

/-- The environment variables that options are read from. -/
def environment : IO (Fields Text) := do
  let known := Setting.all.flatMap fun setting =>
    [Setting.variableOf setting.key, Setting.variableOf setting.name]
  let values ← known.mapM fun name => do
    return (← IO.getEnv (String.ofList name)).map (name, ·.toList)
  return Fields.ofEntries (values.filterMap id)

/-- Print an outcome and give the exit status. -/
def finish : Outcome → IO UInt32
  | .ok output => do
    IO.print (String.ofList output.out)
    let err := String.ofList output.err
    IO.eprint (if err.isEmpty || err.endsWith "\n" then err else err ++ "\n")
    return output.exit.toUInt32
  | .error error => do
    IO.eprintln error.message
    return 1

/-- Carry out the command line. -/
def main (arguments : List String) : IO UInt32 := do
  match plan (← environment) (arguments.map String.toList) with
  | .done outcome => finish outcome
  | .readFile path next => finish (next (← readContents path))
  | .readInput next => do
    let input ← (← IO.getStdin).readToEnd
    finish (next input.toList)
  | .serve _ host socket => finish (.ok (cannotServe host socket))
