import TezosWallet.Buffer
import TezosWallet.Micheline.Basic
import TezosWallet.Zarith

/-!
# The binary form of Micheline

A node begins with a tag, and whatever has no end of its own stands behind its length:

```text
00  int           signed integer
01  string        length, UTF-8
02  sequence      length, nodes
03  primitive     opcode
04  .. annotated  opcode, annotations
05  1 argument    opcode, node
06  .. annotated  opcode, node, annotations
07  2 arguments   opcode, node, node
08  .. annotated  opcode, node, node, annotations
09  n arguments   opcode, length, nodes, annotations
0a  bytes         length, bytes
```

Annotations are joined by single spaces and stand behind their length.

## Main definitions

* `Micheline.write` — writes a tree into a buffer.
* `Micheline.encode` — the binary form of a tree.
-/

namespace TezosWallet.Micheline

/-- The tag of an integer literal. -/
def intTag : UInt8 := 0x00

/-- The tag of a text literal. -/
def stringTag : UInt8 := 0x01

/-- The tag of a sequence. -/
def seqTag : UInt8 := 0x02

/-- The tag of a primitive with at most two arguments: two tags for each number of arguments,
the second of them for annotated primitives. -/
def primTag (arity : Nat) (annotated : Bool) : UInt8 :=
  UInt8.ofNat (3 + 2 * arity + if annotated then 1 else 0)

/-- The tag of a primitive with three or more arguments. -/
def wideTag : UInt8 := 0x09

/-- The tag of a byte literal. -/
def bytesTag : UInt8 := 0x0a

/-- The joined form of annotations. -/
def joinAnnots (annots : List String) : Bytes := Bytes.utf8 (String.intercalate " " annots)

mutual

/-- Writes a tree. It fails at the first primitive, in the order of writing, without opcode. -/
def write : Micheline → Writer MichelineError
  | int value => .put [intTag] >> .put (Zarith.encodeInteger value)
  | string value => .put [stringTag] >> .putFramed (Bytes.utf8 value)
  | bytes value => .put [bytesTag] >> .putFramed value
  | seq items => .put [seqTag] >> .framed (writeAll items)
  | prim name args annots =>
    match opcode? name with
    | none => .fail (.unknownPrimitive name)
    | some code =>
      if args.length ≤ 2 then
        .put [primTag args.length !annots.isEmpty, code] >> writeAll args >>
          if annots.isEmpty then .done else .putFramed (joinAnnots annots)
      else
        .put [wideTag, code] >> .framed (writeAll args) >> .putFramed (joinAnnots annots)

/-- Writes trees one after the other. -/
def writeAll : List Micheline → Writer MichelineError
  | [] => .done
  | item :: rest => write item >> writeAll rest

end

/-- The binary form of a tree. -/
def encode (node : Micheline) : Except MichelineError Bytes := node.write.run

end TezosWallet.Micheline
