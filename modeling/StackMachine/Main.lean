import StackMachine.Cli.Perform

/-!
The command line of the machine.
-/

set_option autoImplicit false

namespace StackMachine.Cli

/-- What an error of the system says about a file.  Its number comes as it is or negated. -/
def fileError (e : IO.Error) : FileError :=
  match e with
  | .noFileOrDirectory .. => .notFound
  | .permissionDenied .. => .denied
  | .inappropriateType _ code _ | .resourceExhausted _ code _ | .invalidArgument _ code _ =>
    match min code (-code) with
    | 20 => .notDirectory
    | 21 => .isDirectory
    | 36 => .nameTooLong
    | _ => .other e.toString
  | _ => .other e.toString

/-- The files and the streams of the process. -/
def processHost : Host IO where
  read path := do
    match ← (IO.FS.readBinFile path).toBaseIO with
    | .ok octets =>
      match String.fromUTF8? octets with
      | some text => return .ok text
      | none => return .error .notText
    | .error e => return .error (fileError e)
  create path text := do
    match ← (IO.FS.writeFile path text).toBaseIO with
    | .ok () => return .ok ()
    | .error e => return .error (fileError e)
  print octets := do
    let output ← IO.getStdout
    output.write ⟨octets.octets⟩
    output.flush
  complain text := IO.eprint text

end StackMachine.Cli

open StackMachine.Cli

def main (words : List String) : IO UInt32 := do
  let surroundings : Surroundings := {
    directory := (← IO.currentDir).toString
    home := ← IO.getEnv "HOME"
    logFilter := ← IO.getEnv "RUST_LOG" }
  let status ← obey processHost surroundings words
  return status.code.toUInt32
