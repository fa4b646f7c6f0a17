import TableCompiler.CommandLine.Run

/-!
# The program

Carries out its arguments on the files of the machine.
-/

namespace TableCompiler

/-- The fault that an error of the machine stands for. -/
def FileFault.ofError : IO.Error → FileFault
  | .noFileOrDirectory .. => .missing
  | .inappropriateType _ 20 _ => .notDirectory
  | .inappropriateType .. => .isDirectory
  | .invalidArgument _ 36 _ => .nameTooLong
  | e => .other (toString e)

def guardFile {α : Type} (action : IO α) : IO (Except FileFault α) := do
  match ← action.toBaseIO with
  | .ok a => return .ok a
  | .error e => return .error (.ofError e)

def machineFiles : FileSystem IO where
  read file := do
    match ← guardFile (IO.FS.readBinFile file) with
    | .error fault => return .error fault
    | .ok bytes =>
      match String.fromUTF8? bytes with
      | some text => return .ok text
      | none => return .error .notText
  write file content := guardFile (IO.FS.writeFile file content)
  append file more := guardFile (IO.FS.withFile file .append fun handle => handle.putStr more)

end TableCompiler

open TableCompiler in
def main (arguments : List String) : IO UInt32 := do
  let invocation := Invocation.ofArguments arguments
  let outcome ← invocation.run machineFiles
  if let .command settings _ := invocation then
    if settings.file.isNone then IO.eprint (settings.text outcome.log)
  (outcome.output.flatMap (·.lines)).forM fun line => IO.println line
  (outcome.errors.flatMap (·.lines)).forM fun line => IO.eprintln line
  return outcome.exitCode.toUInt32
