import TezosWallet.CommandLine.Command
import TezosWallet.CommandLine.Printing
import TezosWallet.Key.Generate
import TezosWallet.Key.Import
import TezosWallet.Operation.Forge

/-!
# Running commands

What a command does depends on its input, on a password that may be set for the whole session, and
on random bytes. All of these are given, so the run is a function of them.

## Main definitions

* `Surroundings` — what a command finds around it.
* `KeyReport.print` — prints what is shown about a key.
* `Command.run` — what a command does, and prints while it does it.
* `CommandError` — why a command fails.
* `respond` — the outcome of the program's arguments.
-/

namespace TezosWallet.CommandLine

open Printing

/-- Why an input cannot be read. -/
inductive InputError
  /-- Standard input fails. -/
  | stdin (cause : String)
  /-- A file fails. -/
  | file (path cause : String)
  deriving DecidableEq, Repr

/-- The error of a file that does not exist. -/
def InputError.missingFile (path : String) : InputError :=
  .file path "No such file or directory (os error 2)"

/-- The wording of an error. -/
def InputError.message : InputError → String
  | .stdin cause => s!"Failed to read stdin: {cause}"
  | .file path cause => s!"Failed to read {path}: {cause}"

/-- What a command finds around it. -/
structure Surroundings where
  /-- The text of an input. -/
  read : Input → Except InputError String
  /-- The password that counts where none is given. -/
  password : Option String
  /-- The source of random bytes. -/
  entropy : Entropy
  /-- What the reader of JSON says of a text that is none. -/
  complaint : String → String

/-- Why a command fails. -/
inductive CommandError
  /-- The input cannot be read. -/
  | input (fault : InputError)
  /-- The contents cannot be forged. -/
  | forging (fault : ForgeError)
  /-- The secret or the mnemonic gives no key. -/
  | loading (fault : KeyError)
  /-- An encrypted secret comes without a password. -/
  | lockedSecret
  /-- There is neither a secret nor a mnemonic. -/
  | noKey
  /-- Signing fails. -/
  | signing (fault : KeyError)
  /-- The value is no big map key of its type. -/
  | hashing (fault : ExpressionError)
  /-- No key or mnemonic can be generated. -/
  | generation (fault : KeyError)
  /-- The generated mnemonic gives no key. -/
  | derivation (fault : KeyError)
  /-- A secret is to be encrypted without a password. -/
  | noPassword
  /-- Encrypting fails. -/
  | encryption (fault : KeyError)

/-- The wording of an error, with what the reader of JSON says of a text that is none. -/
def CommandError.message (complaint : String → String) : CommandError → String
  | .input fault => fault.message
  | .forging fault => s!"Forging failed: {fault.message complaint}"
  | .loading fault => s!"Failed to load key: {fault.message}"
  | .lockedSecret => "An encrypted secret needs --password or TZFORGE_PASSWORD"
  | .noKey => "A key is required: pass --secret or --mnemonic"
  | .signing fault => s!"Signing failed: {fault.message}"
  | .hashing fault => s!"Hashing failed: {fault.message complaint}"
  | .generation fault => fault.message
  | .derivation fault => s!"Key derivation failed: {fault.message}"
  | .noPassword => "--encrypt needs --password or TZFORGE_PASSWORD"
  | .encryption fault => s!"Encryption failed: {fault.message}"

/-- What is shown about a key. -/
structure KeyReport where
  key : Key
  secret : Option String
  mnemonic : Option Mnemonic

namespace KeyReport

/-- A member of an object that is printed over several lines. -/
def member (name value : String) : String := s!"  {Json.quote name}: {Json.quote value}"

/-- The report as a JSON object, a member in each line. -/
def toJsonText (report : KeyReport) : String :=
  let members := [
    member "curve" report.key.curve.name,
    member "address" report.key.address.toText,
    member "public_key" report.key.publicKey.toText] ++
    (report.secret.map (member "secret_key")).toList ++
    (report.mnemonic.map fun mnemonic => member "mnemonic" mnemonic.toText).toList
  "\x7b\n" ++ String.intercalate ",\n" members ++ "\n\x7d"

/-- Prints the report: as JSON, or in lines, each behind a label. -/
def print (report : KeyReport) (json : Bool) : Printing CommandError Unit := do
  if json then
    line report.toJsonText
  else
    line ("Curve:      " ++ report.key.curve.name)
    line ("Address:    " ++ report.key.address.toText)
    line ("Public Key: " ++ report.key.publicKey.toText)
    if let some secret := report.secret then
      line ("Secret Key: " ++ secret)
    if let some mnemonic := report.mnemonic then
      line ("Mnemonic:   " ++ mnemonic.toText)

end KeyReport

/-- The key of a choice, if there is one. Whether a secret is encrypted shows in how its text
begins. -/
def KeyChoice.load (choice : KeyChoice) (around : Surroundings) :
    Except CommandError (Option Key) :=
  let password := choice.password.or around.password
  match choice.source with
  | .absent => .ok none
  | .secret text =>
    if Text.hasTagAmong Curve.encryptedSecretTags text then
      match password with
      | none => .error .lockedSecret
      | some password => do
        let key ← (Key.ofEncryptedText text password).mapError .loading
        pure (some key)
    else do
      let key ← (Key.ofSecretText text none).mapError .loading
      pure (some key)
  | .mnemonic phrase email curve => do
    let key ← (Key.ofMnemonic curve phrase email (password.getD "")).mapError .loading
    pure (some key)

/-- The key of a choice, which must be one. -/
def KeyChoice.require (choice : KeyChoice) (around : Surroundings) : Except CommandError Key := do
  match ← choice.load around with
  | some key => pure key
  | none => throw .noKey

namespace Command

/-- Forges contents, and signs them if there is a key. The contents are forged before the key is
looked at. -/
def runForge (branch : String) (contents : Input) (choice : KeyChoice) (around : Surroundings) :
    Printing CommandError Unit := do
  let contents ← (around.read contents).mapError CommandError.input
  let forged ← (ForgedOperation.ofJson branch contents).mapError CommandError.forging
  match ← choice.load around with
  | none => line forged.toHex
  | some key =>
    let signed ← (forged.sign key).mapError CommandError.signing
    line ("Forged:    " ++ forged.toHex)
    line ("Signature: " ++ signed.signature.toText)
    line ("Signed:    " ++ signed.toHex)
    line ("Hash:      " ++ signed.hash)

/-- Signs a message. The key is looked at before the message. -/
def runSign (message : String) (choice : KeyChoice) (around : Surroundings) :
    Printing CommandError Unit := do
  let key ← choice.require around
  let signature ← (key.signHex message).mapError CommandError.signing
  line signature.toText
  line signature.toHex

/-- Shows a key. -/
def runDescribe (choice : KeyChoice) (withSecret json : Bool) (around : Surroundings) :
    Printing CommandError Unit := do
  let key ← choice.require around
  KeyReport.print ⟨key, if withSecret then some key.secretText else none, none⟩ json

/-- The script expression of a big map key. -/
def expressionOf (value : ExpressionKey) (around : Surroundings) : Except CommandError String :=
  match value with
  | .int value => .ok (Expression.ofInt value)
  | .nat value => .ok (Expression.ofNat value)
  | .string value => .ok (Expression.ofString value)
  | .bytes value => (Expression.ofHex value).mapError .hashing
  | .address value => (Expression.ofAddress value).mapError .hashing
  | .keyHash value => (Expression.ofKeyHash value).mapError .hashing
  | .michelson value => do
    let text ← (around.read value).mapError .input
    (Expression.ofMicheline text).mapError .hashing

/-- Shows the script expression of a big map key. -/
def runExpression (value : ExpressionKey) (around : Surroundings) :
    Printing CommandError Unit := do
  let expression ← expressionOf value around
  line expression

/-- A new key with the mnemonic that it is made from, if a number of words is given, and the source
of random bytes after that. -/
def newKey (curve : Curve) (words : Option Nat) (password : String) (entropy : Entropy) :
    Except CommandError (Key × Option Mnemonic × Entropy) :=
  match words with
  | none => do
    let (key, entropy) ← (Key.generate curve entropy).mapError .generation
    pure (key, none, entropy)
  | some count => do
    let (mnemonic, entropy) ← (Mnemonic.generate count entropy).mapError .generation
    let key ← (Key.ofMnemonic curve mnemonic.toText "" password).mapError .derivation
    pure (key, some mnemonic, entropy)

/-- The written secret of a new key: in the clear, or encrypted under the password that counts. -/
def writeSecret (key : Key) (encrypted : Bool) (password : Option String) (entropy : Entropy) :
    Except CommandError String :=
  if encrypted then
    match password with
    | none => .error .noPassword
    | some password => do
      let (secret, _) ← (key.encrypt password entropy).mapError .encryption
      pure secret
  else .ok key.secretText

/-- Generates a key. A missing password is noticed after the key is made. -/
def runGenerate (curve : Curve) (words : Option Nat) (encrypted : Bool)
    (password : Option String) (around : Surroundings) : Printing CommandError Unit := do
  let password := password.or around.password
  let (key, mnemonic, entropy) ← newKey curve words (password.getD "") around.entropy
  let secret ← writeSecret key encrypted password entropy
  KeyReport.print ⟨key, some secret, mnemonic⟩ false

/-- What a command does. -/
def run (command : Command) (around : Surroundings) : Printing CommandError Unit :=
  match command with
  | .forge branch contents key => runForge branch contents key around
  | .sign message key => runSign message key around
  | .describe key withSecret json => runDescribe key withSecret json around
  | .expression value => runExpression value around
  | .generate curve words encrypted password => runGenerate curve words encrypted password around

end Command

/-- The outcome of a run of the program. -/
structure Outcome where
  /-- The exit code: 0 on success, 1 on failure, 2 if the arguments are not understood. -/
  code : UInt32
  /-- What is printed. -/
  output : String := ""
  /-- What is printed as a diagnostic. -/
  diagnostic : String := ""
  deriving DecidableEq, Repr

/-- The version of the program. -/
def version : String := "0.1.0"

/-- A summary of the subcommands. -/
def usageText : String := lines [
  "Usage: tzforge [-v] <COMMAND>",
  "",
  "Commands:",
  "  forge -b BRANCH CONTENTS [KEY]      forge contents, and sign them if a key is given",
  "  sign MESSAGE [KEY]                  sign a message in hexadecimal",
  "  show [KEY] [--show-secret] [--json] show a key",
  "  expr TYPE VALUE                     compute the script expression of a big map key",
  "  generate [-c CURVE] [-w WORDS] [--encrypt] [--password PASSWORD]",
  "                                      generate a key",
  "",
  "KEY: -s SECRET, or -m MNEMONIC [--email EMAIL] [--curve CURVE]; [--password PASSWORD]",
  "TYPE: int, nat, string, bytes, address, key-hash, michelson"]

/-- The outcome of the program's arguments. -/
def respond (arguments : List String) (around : Surroundings) : Outcome :=
  match Command.parse arguments with
  | .error .usage => { code := 2, diagnostic := usageText }
  | .error .help => { code := 0, output := usageText }
  | .error .version => { code := 0, output := lines ["tzforge " ++ version] }
  | .ok command =>
    let run := command.run around
    match run.result with
    | .ok () => { code := 0, output := run.printed }
    | .error fault =>
      { code := 1, output := run.printed,
        diagnostic := lines ["Error: " ++ fault.message around.complaint] }

end TezosWallet.CommandLine
