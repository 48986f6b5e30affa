import TezosWallet.CommandLine.Run

/-!
# The program

The outer layer of the command line: it reads the input that a command asks for, the password of
the session and random bytes, and prints the outcome.
-/

namespace TezosWallet.CommandLine

/-- The wording of a failure of the system. -/
def systemCause : IO.Error → String
  | .noFileOrDirectory .. => "No such file or directory (os error 2)"
  | fault => toString fault

/-- Bytes as a text, which must be UTF-8. -/
def decodeText (bytes : ByteArray) : Except String String :=
  match String.fromUTF8? bytes with
  | some text => .ok text
  | none => .error "stream did not contain valid UTF-8"

/-- Reads an input. -/
def readInput : Input → IO (Except InputError String)
  | .inline text => pure (.ok text)
  | .stdin => do
    let stream ← IO.getStdin
    match ← stream.readBinToEnd.toBaseIO with
    | .ok bytes => pure ((decodeText bytes).mapError .stdin)
    | .error fault => pure (.error (.stdin (systemCause fault)))
  | .file path => do
    match ← (IO.FS.readBinFile path).toBaseIO with
    | .ok bytes => pure ((decodeText bytes).mapError (.file path))
    | .error fault => pure (.error (.file path (systemCause fault)))

/-- Reads the input that the program's arguments ask for, if any. -/
def readAsked (arguments : List String) : IO (Except InputError String) :=
  match Command.parse arguments with
  | .error _ => pure (.ok "")
  | .ok command =>
    match command.input? with
    | none => pure (.ok "")
    | some input => readInput input

/-- Runs the program on its arguments and gives its exit code. -/
def runProgram (arguments : List String) : IO UInt32 := do
  let input ← readAsked arguments
  let password ← IO.getEnv "TZFORGE_PASSWORD"
  let random ← IO.getRandomBytes 1024
  let outcome := respond arguments {
    read := fun _ => input
    password := password
    entropy := Entropy.ofBytes random.data.toList
    complaint := fun _ => "malformed JSON" }
  IO.print outcome.output
  IO.eprint outcome.diagnostic
  pure outcome.code

end TezosWallet.CommandLine

/-- Runs the program. -/
def main (arguments : List String) : IO UInt32 :=
  TezosWallet.CommandLine.runProgram arguments
