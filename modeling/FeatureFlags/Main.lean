import FeatureFlags.CommandLine.Run

/-!
# The program

Reads the file that the command names, prints the answer and sets the exit code.
-/

open FeatureFlags FeatureFlags.CommandLine

def faultOf (code : UInt32) (message : String) : FileFault :=
  match code.toNat with
  | 2 => .notFound
  | 20 => .notDirectory
  | 21 => .isDirectory
  | 36 => .nameTooLong
  | _ => .other message

def readFile (path : String) : IO (Except FileFault ByteArray) := do
  try
    return .ok (← IO.FS.readBinFile path)
  catch error =>
    match error with
    | .noFileOrDirectory _ code _ => return .error (faultOf code (toString error))
    | .inappropriateType _ code _ => return .error (faultOf code (toString error))
    | .invalidArgument _ code _ => return .error (faultOf code (toString error))
    | _ => return .error (.other (toString error))

def printOutcome (outcome : Outcome) : IO UInt32 := do
  IO.print outcome.output
  if let some message := outcome.error then
    IO.eprintln ("\nError: " ++ message)
  return outcome.exit.toUInt32

def main (arguments : List String) : IO UInt32 := do
  match Request.read arguments with
  | none =>
    IO.eprintln "usage: [-v] compile|decompile|validate [options] FILE"
    return usageExit.toUInt32
  | some .version => printOutcome (.printed versionLine)
  | some (.command command) =>
    printOutcome (command.answer (← readFile command.path))
