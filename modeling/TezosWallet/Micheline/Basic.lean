import TezosWallet.Hex
import TezosWallet.Json.Printer

/-!
# Micheline trees

Micheline is the tree form of scripts and their data: literals, sequences, and primitives applied
to arguments. An annotation is a text with its mark, as in `%from`. Each primitive of the language
stands for a one-byte opcode, its place in the list below.

## Main definitions

* `Micheline` — a tree.
* `Micheline.primitives`, `Micheline.opcode?` — the primitives and their opcodes.
* `MichelineError` — why a tree cannot be read or encoded.
-/

namespace TezosWallet

/-- A Micheline tree. -/
inductive Micheline
  /-- An integer literal. -/
  | int (value : Int)
  /-- A text literal. -/
  | string (value : String)
  /-- A byte literal. -/
  | bytes (value : Bytes)
  /-- A sequence, such as a block of code. -/
  | seq (items : List Micheline)
  /-- A primitive with its arguments and annotations. -/
  | prim (name : String) (args : List Micheline) (annots : List String)

namespace Micheline

/-- The primitives in the order of their opcodes. -/
def primitives : List String := [
  "parameter", "storage", "code", "False", "Elt", "Left", "None", "Pair", "Right", "Some", "True",
  "Unit", "PACK", "UNPACK", "BLAKE2B", "SHA256", "SHA512", "ABS", "ADD", "AMOUNT", "AND",
  "BALANCE", "CAR", "CDR", "CHECK_SIGNATURE", "COMPARE", "CONCAT", "CONS", "CREATE_ACCOUNT",
  "CREATE_CONTRACT", "IMPLICIT_ACCOUNT", "DIP", "DROP", "DUP", "EDIV", "EMPTY_MAP", "EMPTY_SET",
  "EQ", "EXEC", "FAILWITH", "GE", "GET", "GT", "HASH_KEY", "IF", "IF_CONS", "IF_LEFT", "IF_NONE",
  "INT", "LAMBDA", "LE", "LEFT", "LOOP", "LSL", "LSR", "LT", "MAP", "MEM", "MUL", "NEG", "NEQ",
  "NIL", "NONE", "NOT", "NOW", "OR", "PAIR", "PUSH", "RIGHT", "SIZE", "SOME", "SOURCE", "SENDER",
  "SELF", "STEPS_TO_QUOTA", "SUB", "SWAP", "TRANSFER_TOKENS", "SET_DELEGATE", "UNIT", "UPDATE",
  "XOR", "ITER", "LOOP_LEFT", "ADDRESS", "CONTRACT", "ISNAT", "CAST", "RENAME", "bool", "contract",
  "int", "key", "key_hash", "lambda", "list", "map", "big_map", "nat", "option", "or", "pair",
  "set", "signature", "string", "bytes", "mutez", "timestamp", "unit", "operation", "address",
  "SLICE", "DIG", "DUG", "EMPTY_BIG_MAP", "APPLY", "chain_id", "CHAIN_ID", "LEVEL", "SELF_ADDRESS",
  "never", "NEVER", "UNPAIR", "VOTING_POWER", "TOTAL_VOTING_POWER", "KECCAK", "SHA3",
  "PAIRING_CHECK", "bls12_381_g1", "bls12_381_g2", "bls12_381_fr", "sapling_state",
  "sapling_transaction_deprecated", "SAPLING_EMPTY_STATE", "SAPLING_VERIFY_UPDATE", "ticket",
  "TICKET_DEPRECATED", "READ_TICKET", "SPLIT_TICKET", "JOIN_TICKETS", "GET_AND_UPDATE", "chest",
  "chest_key", "OPEN_CHEST", "VIEW", "view", "constant", "SUB_MUTEZ", "tx_rollup_l2_address",
  "MIN_BLOCK_TIME", "sapling_transaction", "EMIT", "Lambda_rec", "LAMBDA_REC", "TICKET", "BYTES",
  "NAT"]

/-- The opcode of a primitive. -/
def opcode? (name : String) : Option UInt8 := (primitives.idxOf? name).map UInt8.ofNat

end Micheline

/-- What is wrong with a JSON value that should be a tree. -/
inductive MichelineFault
  /-- The text is no JSON. -/
  | notJson (text : String)
  /-- The value is neither an object nor an array. -/
  | notNode (value : Json)
  /-- The value of `int` is no string. -/
  | intNotString
  /-- The value of `int` is no integer. -/
  | invalidInt (text : String)
  /-- The value of `string` is no string. -/
  | stringNotString
  /-- The value of `bytes` is no string. -/
  | bytesNotString
  /-- The value of `bytes` is not hexadecimal. -/
  | invalidBytes (fault : Hex.Error)
  /-- An object is no literal and names no primitive. -/
  | missingPrim (entries : List (String × Json))
  /-- The value of `args` is no array. -/
  | argsNotArray
  /-- The value of `annots` is no array. -/
  | annotsNotArray
  /-- An annotation is no string. -/
  | annotNotString

/-- The wording of a fault. What is wrong with a text that is no JSON is for the reader of JSON to
say, whose `complaint` is given. -/
def MichelineFault.message (complaint : String → String) : MichelineFault → String
  | .notJson text => complaint text
  | .notNode value => s!"expected an object or an array, got {value.render}"
  | .intNotString => "int literal must be a string"
  | .invalidInt text => s!"invalid int literal: {text}"
  | .stringNotString => "string literal must be a string"
  | .bytesNotString => "bytes literal must be a string"
  | .invalidBytes fault => s!"invalid bytes literal: {fault.message}"
  | .missingPrim entries => s!"missing prim in {Json.renderTaggedObject entries}"
  | .argsNotArray => "args must be an array"
  | .annotsNotArray => "annots must be an array"
  | .annotNotString => "annots must be strings"

/-- Why a tree cannot be read or encoded. -/
inductive MichelineError
  /-- The text or value is no tree. -/
  | parse (fault : MichelineFault)
  /-- A primitive has no opcode. -/
  | unknownPrimitive (name : String)

/-- The wording of an error, with what the reader of JSON says of a text that is none. -/
def MichelineError.message (complaint : String → String) : MichelineError → String
  | .parse fault => s!"Parse error: {fault.message complaint}"
  | .unknownPrimitive name => s!"Unknown primitive: {name}"

end TezosWallet
