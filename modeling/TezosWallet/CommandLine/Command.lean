import TezosWallet.CommandLine.Arguments
import TezosWallet.Curve.Basic
import TezosWallet.Text.Numeral

/-!
# Commands

The program forges operations, signs messages, shows keys, computes script expressions and
generates keys. Each of these is a subcommand with options of its own.

## Main definitions

* `Command` — what the program is asked to do.
* `Command.parse` — the command of a list of arguments.
* `Input`, `KeyChoice`, `ExpressionKey` — parts of commands.
-/

namespace TezosWallet.CommandLine

/-- Where a text comes from. -/
inductive Input
  /-- The text is the argument itself. -/
  | inline (text : String)
  /-- The text is read from standard input. -/
  | stdin
  /-- The text is read from a file. -/
  | file (path : String)
  deriving DecidableEq, Repr

/-- The input that an argument names: `-` is standard input and `@path` a file. -/
def Input.ofArgument (argument : String) : Input :=
  if argument = "-" then stdin
  else match argument.toList with
    | '@' :: path => file (String.ofList path)
    | _ => inline argument

/-- What a key is made from. -/
inductive KeySource
  /-- No key is given. -/
  | absent
  /-- A written secret, encrypted or not. -/
  | secret (text : String)
  /-- A mnemonic with the e-mail address that belongs to it, for a curve. -/
  | mnemonic (phrase email : String) (curve : Curve)
  deriving DecidableEq, Repr

/-- What a key is made from, and the password given for it. -/
structure KeyChoice where
  source : KeySource
  password : Option String
  deriving DecidableEq, Repr

/-- A key of a big map, by its type. -/
inductive ExpressionKey
  | int (value : Int)
  | nat (value : Nat)
  | string (value : String)
  | bytes (value : String)
  | address (value : String)
  | keyHash (value : String)
  | michelson (value : Input)
  deriving DecidableEq, Repr

/-- What the program is asked to do. -/
inductive Command
  /-- Forge contents on a branch, and sign them if there is a key. -/
  | forge (branch : String) (contents : Input) (key : KeyChoice)
  /-- Sign a message in hexadecimal. -/
  | sign (message : String) (key : KeyChoice)
  /-- Show a key, with or without its secret, as JSON or as lines. -/
  | describe (key : KeyChoice) (withSecret json : Bool)
  /-- Compute the script expression of a big map key. -/
  | expression (value : ExpressionKey)
  /-- Generate a key, from a new mnemonic if a number of words is given. -/
  | generate (curve : Curve) (words : Option Nat) (encrypted : Bool) (password : Option String)
  deriving DecidableEq, Repr

/-- Accepts any text. -/
def anyText (_ : String) : Bool := true

/-- Accepts the name of a curve. -/
def isCurve (text : String) : Bool := (Curve.ofName? text).isSome

/-- The natural number of sixty-four bits that a text writes. -/
def count? (text : String) : Option Nat := (Numeral.natural? text).filter (· < Nat.pow 2 64)

/-- The options that every level has. -/
def commonOptions : List OptionRule :=
  [⟨"verbose", some 'v', .flag⟩, ⟨"help", some 'h', .halt .help⟩]

/-- The options that choose a key. -/
def keyOptions : List OptionRule := [
  ⟨"secret", some 's', .value anyText⟩,
  ⟨"mnemonic", some 'm', .value anyText⟩,
  ⟨"email", none, .value anyText⟩,
  ⟨"curve", none, .value isCurve⟩,
  ⟨"password", none, .value anyText⟩]

/-- The program itself. -/
def programLevel : Level where
  options := commonOptions ++ [⟨"version", some 'V', .halt .version⟩]
  subcommands := ["forge", "sign", "show", "expr", "generate", "help"]

/-- The subcommand that forges. -/
def forgeLevel : Level where
  options := commonOptions ++ keyOptions ++ [⟨"branch", some 'b', .value anyText⟩]
  operands := [anyText]

/-- The subcommand that signs. -/
def signLevel : Level where
  options := commonOptions ++ keyOptions
  operands := [anyText]

/-- The subcommand that shows a key. -/
def describeLevel : Level where
  options := commonOptions ++ keyOptions ++ [⟨"show-secret", none, .flag⟩, ⟨"json", none, .flag⟩]

/-- The subcommand that generates a key. -/
def generateLevel : Level where
  options := commonOptions ++ [
    ⟨"curve", some 'c', .value isCurve⟩,
    ⟨"words", some 'w', .value fun text => (count? text).isSome⟩,
    ⟨"encrypt", none, .flag⟩,
    ⟨"password", none, .value anyText⟩]

/-- The subcommand that computes script expressions. -/
def expressionLevel : Level where
  options := commonOptions
  subcommands :=
    ["int", "nat", "string", "bytes", "address", "key-hash", "michelson", "help"]

/-- The level below a type of big map key, whose only operand is the key. -/
def valueLevel (valid : String → Bool) (dashed : Bool) : Level where
  options := commonOptions
  operands := [valid]
  dashedOperand := dashed

/-- Whether a list of names leads to a subcommand about which there is help. -/
def isHelpTopic : List String → Bool
  | [] => true
  | [name] => programLevel.subcommands.contains name
  | ["expr", name] => expressionLevel.subcommands.contains name
  | _ => false

/-- The answer to a question for help about the subcommand that a list of names leads to. -/
def askHelp {α : Type} (topic : List String) : Except Halt α :=
  .error (if isHelpTopic topic then .help else .usage)

namespace Command

/-- The curve among arguments, by default Ed25519. -/
def curveOf (arguments : Arguments) : Curve :=
  ((arguments.value? "curve").bind Curve.ofName?).getD .ed25519

/-- The choice of a key among arguments. A secret and a mnemonic exclude each other, and an e-mail
address needs one of them. -/
def keyChoiceOf (arguments : Arguments) : Except Halt KeyChoice :=
  let password := arguments.value? "password"
  match arguments.value? "secret", arguments.value? "mnemonic" with
  | some _, some _ => .error .usage
  | some text, none => .ok ⟨.secret text, password⟩
  | none, some phrase =>
    .ok ⟨.mnemonic phrase ((arguments.value? "email").getD "") (curveOf arguments), password⟩
  | none, none =>
    if arguments.has "email" then .error .usage else .ok ⟨.absent, password⟩

/-- Reads the arguments of a level that takes one operand. -/
def readOperand (level : Level) (arguments : List String) : Except Halt (Arguments × String) := do
  let arguments ← level.read arguments
  match arguments.operands with
  | [operand] => pure (arguments, operand)
  | _ => throw .usage

/-- Reads the arguments of `forge`. -/
def parseForge (arguments : List String) : Except Halt Command := do
  let (arguments, contents) ← readOperand forgeLevel arguments
  match arguments.value? "branch" with
  | none => throw .usage
  | some branch =>
    let key ← keyChoiceOf arguments
    pure (.forge branch (Input.ofArgument contents) key)

/-- Reads the arguments of `sign`. -/
def parseSign (arguments : List String) : Except Halt Command := do
  let (arguments, message) ← readOperand signLevel arguments
  let key ← keyChoiceOf arguments
  pure (.sign message key)

/-- Reads the arguments of `show`. -/
def parseDescribe (arguments : List String) : Except Halt Command := do
  let arguments ← describeLevel.read arguments
  let key ← keyChoiceOf arguments
  pure (.describe key (arguments.has "show-secret") (arguments.has "json"))

/-- Reads the arguments of `generate`. -/
def parseGenerate (arguments : List String) : Except Halt Command := do
  let arguments ← generateLevel.read arguments
  pure (.generate (curveOf arguments) ((arguments.value? "words").bind count?)
    (arguments.has "encrypt") (arguments.value? "password"))

/-- Reads a big map key that is any text. -/
def parseText (make : String → ExpressionKey) (arguments : List String) : Except Halt Command := do
  let (_, text) ← readOperand (valueLevel anyText false) arguments
  pure (.expression (make text))

/-- Reads a big map key that is a number. Only an integer may begin with a dash. -/
def parseNumber {α : Type} (number? : String → Option α) (make : α → ExpressionKey)
    (dashed : Bool) (arguments : List String) : Except Halt Command := do
  let level := valueLevel (fun text => (number? text).isSome) dashed
  let (_, text) ← readOperand level arguments
  match number? text with
  | some value => pure (.expression (make value))
  | none => throw .usage

/-- Reads the arguments of `expr`. -/
def parseExpression (arguments : List String) : Except Halt Command := do
  let arguments ← expressionLevel.read arguments
  match arguments.subcommand with
  | some ("int", rest) => parseNumber Numeral.spacedInteger? .int true rest
  | some ("nat", rest) => parseNumber Numeral.spacedNatural? .nat false rest
  | some ("string", rest) => parseText .string rest
  | some ("bytes", rest) => parseText .bytes rest
  | some ("address", rest) => parseText .address rest
  | some ("key-hash", rest) => parseText .keyHash rest
  | some ("michelson", rest) => parseText (.michelson ∘ Input.ofArgument) rest
  | some ("help", rest) => askHelp ("expr" :: rest)
  | _ => throw .usage

/-- The command of the program's arguments. -/
def parse (arguments : List String) : Except Halt Command := do
  let arguments ← programLevel.read arguments
  match arguments.subcommand with
  | some ("forge", rest) => parseForge rest
  | some ("sign", rest) => parseSign rest
  | some ("show", rest) => parseDescribe rest
  | some ("expr", rest) => parseExpression rest
  | some ("generate", rest) => parseGenerate rest
  | some ("help", rest) => askHelp rest
  | _ => throw .usage

/-- The input that a command reads before it does anything else. -/
def input? : Command → Option Input
  | .forge _ contents _ => some contents
  | .expression (.michelson value) => some value
  | _ => none

end Command

end TezosWallet.CommandLine
