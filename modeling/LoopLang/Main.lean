import LoopLang.CommandLine.Session

/-!
# The command

Reads the files that a session needs, carries it out, and writes what came of it. Standard
input is read only if it holds the program or the program asks for a value.
-/
namespace LoopLang

open CommandLine

/-- More rounds than any loop can take in practice. -/
def stepLimit : Nat := 1000000000000000000

def usage : String :=
  "usage: looplang [-h] [--tokens] [--ast] [--json] [--debug] [--case-sensitive] file"

/-- What stands behind a path. A directory can be opened but not read, and the problem then
names no path. -/
def openFile (path : String) : IO (Except Unreadable ByteArray) := do
  try
    return .ok (← IO.FS.readBinFile path)
  catch problem =>
    match problem with
    | .inappropriateType none .. => return .error .isDirectory
    | .inappropriateType (some _) .. => return .error .notDirectory
    | .invalidArgument (some _) .. => return .error .nameTooLong
    | _ => return .error .missing

/-- Writes an outcome and yields the status that it ends with. -/
def conclude (outcome : Outcome) : IO UInt32 := do
  (← IO.getStderr).putStr outcome.trace
  (← IO.getStdout).putStr outcome.output
  match outcome.ending with
  | .exit status => return status.toUInt32
  | .failure _ => IO.eprintln "the program cannot go on"
  | .undecodable => IO.eprintln "the text is not UTF-8"
  | .noPath => IO.eprintln "the file is not named by a path"
  | .outOfSteps => IO.eprintln "the program was stopped"
  return 1

def interpretFile (options : Options) : IO UInt32 := do
  if options.file = "-" then
    conclude (perform .standard stepLimit options (fun _ => .error .missing)
      (← (← IO.getStdin).readBinToEnd))
  else
    let contents ← openFile options.file
    let outcome := perform .standard stepLimit options (fun _ => contents) .empty
    if outcome.lacksInput then
      conclude (perform .standard stepLimit options (fun _ => contents)
        (← (← IO.getStdin).readBinToEnd))
    else conclude outcome

end LoopLang

def main (arguments : List String) : IO UInt32 :=
  match LoopLang.CommandLine.Command.parse arguments with
  | .interpret options => LoopLang.interpretFile options
  | .leave status => do
    (if status = 0 then IO.println else IO.eprintln) LoopLang.usage
    return status.toUInt32
