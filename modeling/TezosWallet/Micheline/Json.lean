import TezosWallet.Json.Parser
import TezosWallet.Micheline.Basic

/-!
# Micheline as JSON

A sequence is an array. An object is a literal if it has a member `int`, `string` or `bytes`,
looked for in this order, and otherwise names a primitive by `prim`, with optional `args` and
`annots`. Other members are not looked at.

## Main definitions

* `Micheline.toJson`, `Micheline.ofJson` — trees to JSON values and back.
* `Micheline.parse` — the tree of a JSON text.
-/

namespace TezosWallet.Micheline

mutual

/-- The JSON value of a tree. Empty lists of arguments or annotations are left out. -/
def toJson : Micheline → Json
  | int value => .object [("int", .string (toString value))]
  | string value => .object [("string", .string value)]
  | bytes value => .object [("bytes", .string (Hex.encode value))]
  | seq items => .array (toJsonAll items)
  | prim name args annots =>
    .object ([("prim", .string name)] ++
      (if args.isEmpty then [] else [("args", .array (toJsonAll args))]) ++
      (if annots.isEmpty then [] else [("annots", .array (annots.map .string))]))

/-- The JSON values of trees. -/
def toJsonAll : List Micheline → List Json
  | [] => []
  | item :: rest => toJson item :: toJsonAll rest

end

/-- A reading of a member that must be a string. -/
def readString (fault : MichelineFault) (value : Json) : Except MichelineError String :=
  match value with
  | .string text => .ok text
  | _ => .error (.parse fault)

/-- The literal that an object is, if it has a member of a literal's name. -/
def literal? (entries : List (String × Json)) : Option (Except MichelineError Micheline) :=
  match Json.lookup "int" entries, Json.lookup "string" entries, Json.lookup "bytes" entries with
  | some value, _, _ => some do
    let text ← readString .intNotString value
    match Numeral.spacedInteger? text with
    | some n => pure (int n)
    | none => throw (.parse (.invalidInt text))
  | none, some value, _ => some do
    let text ← readString .stringNotString value
    pure (string text)
  | none, none, some value => some do
    let text ← readString .bytesNotString value
    let content ← (Hex.decode text).mapError fun fault => .parse (.invalidBytes fault)
    pure (bytes content)
  | none, none, none => none

/-- The annotations of an object. -/
def annotsOf (entries : List (String × Json)) : Except MichelineError (List String) :=
  match Json.lookup "annots" entries with
  | none => .ok []
  | some (.array items) => items.mapM (readString .annotNotString)
  | some _ => .error (.parse .annotsNotArray)

mutual

/-- The tree of a JSON value. -/
def ofJson : Json → Except MichelineError Micheline
  | .array items => do
    let nodes ← ofJsonAll items
    pure (seq nodes)
  | .members entries =>
    match literal? entries with
    | some result => result
    | none =>
      match (Json.lookup "prim" entries).bind Json.asString? with
      | none => .error (.parse (.missingPrim entries))
      | some name => do
        let args ← argsOf entries
        let annots ← annotsOf entries
        pure (prim name args annots)
  | value => .error (.parse (.notNode value))

/-- The trees of JSON values. -/
def ofJsonAll : List Json → Except MichelineError (List Micheline)
  | [] => .ok []
  | item :: rest => do
    let node ← ofJson item
    let nodes ← ofJsonAll rest
    pure (node :: nodes)

/-- The arguments of an object: the trees of its member `args`. -/
def argsOf : List (String × Json) → Except MichelineError (List Micheline)
  | [] => .ok []
  | (key, value) :: rest =>
    if key = "args" then
      match value with
      | .array items => ofJsonAll items
      | _ => .error (.parse .argsNotArray)
    else argsOf rest

end

/-- The tree of a JSON text. -/
def parse (text : String) : Except MichelineError Micheline :=
  match Json.parse? text with
  | none => .error (.parse (.notJson text))
  | some value => ofJson value

end TezosWallet.Micheline
