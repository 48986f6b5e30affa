/-!
# Arguments

A level of a command line is a program or one of its subcommands. Its arguments are read from left
to right: options, operands, and at most one subcommand, which takes all that follows as its own
arguments. An option is a word behind `--` or a letter behind `-`. Its value is the next argument,
or is attached: `--name=value`, `-nvalue` or `-n=value`. Letters without a value may share a dash.
After a bare `--` every argument is an operand.

Each value is checked as it is read, so reading stops at the leftmost fault, or at the leftmost
question for help or for the version.

## Main definitions

* `Level` — what a level accepts; `OptionRule` — one of its options.
* `Arguments` — what has been read at a level.
* `Level.read` — reads the arguments of a level.
* `Halt` — why reading stops early.
-/

namespace TezosWallet.CommandLine

/-- Why the reading of arguments stops early. -/
inductive Halt
  /-- The arguments are not ones the program accepts. -/
  | usage
  /-- Help is asked for. -/
  | help
  /-- The version is asked for. -/
  | version
  deriving DecidableEq, Repr

/-- What an option does. -/
inductive OptionEffect
  /-- The option stands alone and is noted. -/
  | flag
  /-- The option takes a value that must pass a check. -/
  | value (valid : String → Bool)
  /-- The option ends the reading. -/
  | halt (cause : Halt)

/-- An option of a level. -/
structure OptionRule where
  /-- The word behind two dashes. -/
  name : String
  /-- The letter behind one dash. -/
  letter : Option Char := none
  effect : OptionEffect

/-- What a level accepts. -/
structure Level where
  options : List OptionRule
  /-- The names of the subcommands. -/
  subcommands : List String := []
  /-- The checks of the operands, in order. -/
  operands : List (String → Bool) := []
  /-- Whether an operand may begin with a dash where no known option is meant. -/
  dashedOperand : Bool := false

/-- What has been read at a level. -/
structure Arguments where
  /-- The options read, each with its value; a flag has the empty value. -/
  given : List (String × String) := []
  /-- The operands read, in order. -/
  operands : List String := []
  /-- The subcommand and the arguments after it. -/
  subcommand : Option (String × List String) := none

namespace Arguments

/-- Whether an option has been read. -/
def has (arguments : Arguments) (name : String) : Bool :=
  arguments.given.any fun entry => entry.1 = name

/-- The value of an option. -/
def value? (arguments : Arguments) (name : String) : Option String :=
  (arguments.given.find? fun entry => entry.1 = name).map (·.2)

/-- Notes an option, which must not have been read before. -/
def note (arguments : Arguments) (name value : String) : Except Halt Arguments :=
  if arguments.has name then .error .usage
  else .ok { arguments with given := arguments.given ++ [(name, value)] }

end Arguments

namespace Level

variable (level : Level)

/-- The option of a word. -/
def rule? (name : String) : Option OptionRule := level.options.find? fun rule => rule.name = name

/-- The option of a letter. -/
def letterRule? (c : Char) : Option OptionRule :=
  level.options.find? fun rule => rule.letter = some c

/-- Takes an argument as the next operand. -/
def addOperand (arguments : Arguments) (text : String) : Except Halt Arguments :=
  match level.operands[arguments.operands.length]? with
  | some valid =>
    if valid text then .ok { arguments with operands := arguments.operands ++ [text] }
    else .error .usage
  | none => .error .usage

/-- Whether the level may take an argument with a dash as its next operand. -/
def awaitsDashed (arguments : Arguments) : Bool :=
  level.dashedOperand && arguments.operands.length < level.operands.length

/-- What has been read after an option: if the option awaits a value still, its name and the check
of the value come along. -/
abbrev Progress := Arguments × Option (String × (String → Bool))

/-- Applies an option with the value attached to it, if any. -/
def apply (arguments : Arguments) (rule : OptionRule) (attached : Option String) :
    Except Halt Progress :=
  match rule.effect, attached with
  | .halt cause, none => .error cause
  | .flag, none => do
    let arguments ← arguments.note rule.name ""
    pure (arguments, none)
  | .value valid, none => pure (arguments, some (rule.name, valid))
  | .value valid, some text =>
    if valid text then do
      let arguments ← arguments.note rule.name text
      pure (arguments, none)
    else throw .usage
  | _, some _ => throw .usage

/-- Reads the letters behind one dash. -/
def readLetters (arguments : Arguments) : List Char → Except Halt Progress
  | [] => pure (arguments, none)
  | c :: rest =>
    match level.letterRule? c with
    | none => throw .usage
    | some rule =>
      match rule.effect, rest with
      | .value _, '=' :: text => apply arguments rule (some (String.ofList text))
      | .value _, _ :: _ => apply arguments rule (some (String.ofList rest))
      | _, _ => do
        let (arguments, awaited) ← apply arguments rule none
        if awaited.isSome then pure (arguments, awaited) else readLetters arguments rest

/-- The part of a text in front of the first equals sign, and the part after it. -/
def splitValue (text : List Char) : String × Option String :=
  match text.span (· != '=') with
  | (name, []) => (String.ofList name, none)
  | (name, _ :: value) => (String.ofList name, some (String.ofList value))

/-- Reads one argument in front of any bare `--`. -/
def readArgument (arguments : Arguments) (text : String) : Except Halt Progress :=
  match text.toList with
  | '-' :: '-' :: word =>
    let (name, attached) := splitValue word
    match level.rule? name with
    | some rule => apply arguments rule attached
    | none =>
      if level.awaitsDashed arguments then do
        let arguments ← level.addOperand arguments text
        pure (arguments, none)
      else throw .usage
  | '-' :: c :: rest =>
    if level.awaitsDashed arguments && (c :: rest).any fun c => (level.letterRule? c).isNone then do
      let arguments ← level.addOperand arguments text
      pure (arguments, none)
    else level.readLetters arguments (c :: rest)
  | _ => do
    let arguments ← level.addOperand arguments text
    pure (arguments, none)

/-- Whether an argument is a value for an option that awaits one: it does not begin with a dash,
or is nothing but a dash. -/
def isValue (text : String) : Bool :=
  match text.toList with
  | '-' :: _ :: _ => false
  | _ => true

/-- Reads arguments, the first of which may be the value that the last option awaits. -/
def readFrom : Progress → List String → Except Halt Arguments
  | (arguments, none), [] => pure arguments
  | (_, some _), [] => throw .usage
  | (arguments, some (name, valid)), text :: rest =>
    if isValue text && valid text then do
      let arguments ← arguments.note name text
      readFrom (arguments, none) rest
    else throw .usage
  | (arguments, none), text :: rest =>
    if level.subcommands.contains text then
      pure { arguments with subcommand := some (text, rest) }
    else if text = "--" then rest.foldlM level.addOperand arguments
    else do
      let progress ← level.readArgument arguments text
      readFrom progress rest

/-- Reads the arguments of a level. All operands must be there, and a subcommand where there are
any. -/
def read (arguments : List String) : Except Halt Arguments := do
  let result ← level.readFrom ({}, none) arguments
  if result.operands.length < level.operands.length then throw .usage
  if !level.subcommands.isEmpty && result.subcommand.isNone then throw .usage
  pure result

end Level

end TezosWallet.CommandLine
