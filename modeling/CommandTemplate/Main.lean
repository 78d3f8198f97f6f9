import CommandTemplate.CommandLine.Run

/-!
# The program

The program takes its texts from the file system and from standard input, and hands its outcome to
standard output, standard error and the exit status.
-/

namespace CommandTemplate

/-- The fault that an error of the operating system stands for.  Its number may come negated. -/
def FileFault.ofError (error : IO.Error) : FileFault :=
  match error with
  | .noFileOrDirectory .. => .missing
  | .permissionDenied .. => .forbidden
  | .inappropriateType _ code _ => ofNumber code
  | .invalidArgument _ code _ => ofNumber code
  | _ => unnamed
where
  unnamed : FileFault := .other (toString error).toList
  ofNumber (code : UInt32) : FileFault :=
    match min code (-code) with
    | 20 => .notDirectory
    | 21 => .isDirectory
    | 36 => .longName
    | _ => unnamed

/-- The result of reading a text from the outside. -/
def attempt (read : IO ByteArray) : IO (Except FileFault Text) :=
  try
    match String.fromUTF8? (← read) with
    | some text => return .ok text.toList
    | none => return .error .notText
  catch error =>
    return .error (.ofError error)

/-- The file system and standard input. -/
def outside : Surroundings IO where
  file name := attempt (IO.FS.readBinFile (String.ofList name))
  input := attempt do (← IO.getStdin).readBinToEnd

end CommandTemplate

open CommandTemplate in
/-- Runs the command line that the program is called with. -/
def main (arguments : List String) : IO UInt32 := do
  let outcome ← runCommandLine outside (arguments.map String.toList)
  (← IO.getStdout).putStr (String.ofList outcome.output)
  (← IO.getStderr).putStr (String.ofList outcome.errors)
  return outcome.status.toUInt32
