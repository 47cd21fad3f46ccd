import ElmTypes.CommandLine.Run

namespace ElmTypes.CommandLine

def ReadFault.ofError : IO.Error → ReadFault
  | .noFileOrDirectory .. => .missing
  | .inappropriateType .. => .directory
  | e => .other (toString e)

def readFile (name : String) : IO (Except ReadFault ByteArray) := do
  try
    return .ok (← IO.FS.readBinFile name)
  catch e =>
    return .error (.ofError e)

end ElmTypes.CommandLine

open ElmTypes.CommandLine in
def main (arguments : List String) : IO UInt32 := do
  let contents ← match fileToRead? arguments with
    | some name => readFile name
    | none => pure (.error .missing)
  let outcome := run "Lean 4" (fun _ => contents) arguments
  (← IO.getStdout).putStr outcome.outputText
  (← IO.getStderr).putStr outcome.noticeText
  return outcome.exit.toUInt32
