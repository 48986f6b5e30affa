/-!
# JSON values

Objects are kept as lists of members with distinct keys in increasing order. Numbers written
without fraction or exponent are integers as far as sixty-four bits carry; all others are doubles.

## Main definitions

* `Json` — a value; `Json.Number` — its numbers.
* `Json.object` — an object of members in any order, a later member replacing an earlier one.
* `Json.get?` — the member of an object.
-/

namespace TezosWallet

/-- A JSON number. -/
inductive Json.Number
  /-- A number from `-2 ^ 63` to `2 ^ 64 - 1` without fraction or exponent. -/
  | integer (value : Int)
  /-- Any other number. -/
  | double (value : Float)

/-- A JSON value. -/
inductive Json
  | null
  | bool (value : Bool)
  | number (value : Json.Number)
  | string (value : String)
  | array (items : List Json)
  /-- An object, by its members in increasing order of distinct keys. -/
  | members (entries : List (String × Json))

namespace Json

/-- Puts a member into a list ordered by key, in place of one with the same key. -/
def insert (key : String) (value : Json) : List (String × Json) → List (String × Json)
  | [] => [(key, value)]
  | (k, v) :: rest =>
    if key < k then (key, value) :: (k, v) :: rest
    else if key = k then (key, value) :: rest
    else (k, v) :: insert key value rest

/-- The object of the given members, of which the last one counts where keys repeat. -/
def object (entries : List (String × Json)) : Json :=
  members (entries.foldl (fun acc entry => insert entry.1 entry.2 acc) [])

/-- The value of a key in a list of members. -/
def lookup (key : String) (entries : List (String × Json)) : Option Json :=
  (entries.find? fun entry => entry.1 = key).map (·.2)

/-- The value of a key in an object. -/
def get? (key : String) : Json → Option Json
  | members entries => lookup key entries
  | _ => none

/-- The text of a string value. -/
def asString? : Json → Option String
  | string value => some value
  | _ => none

end Json

end TezosWallet
