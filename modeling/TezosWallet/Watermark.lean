import TezosWallet.Bytes

/-!
# Watermarks

A watermark is one byte in front of what is signed. It keeps signatures of blocks, endorsements
and ordinary operations apart.

## Main definitions

* `Watermark` — the watermarks, with `Watermark.byte` and `Watermark.ofByte?`.
* `Watermark.ensure` — adds the watermark of operations where none is seen.
-/

namespace TezosWallet

/-- What kind of data is signed. -/
inductive Watermark
  /-- A block header. -/
  | block
  /-- An endorsement. -/
  | endorsement
  /-- Any other operation. -/
  | operation
  deriving DecidableEq, Repr

namespace Watermark

/-- The byte of a watermark. -/
def byte : Watermark → UInt8
  | block => 0x01
  | endorsement => 0x02
  | operation => 0x03

/-- The watermark of a byte. -/
def ofByte? (b : UInt8) : Option Watermark :=
  if b = 0x01 then some block
  else if b = 0x02 then some endorsement
  else if b = 0x03 then some operation
  else none

/-- The data behind a watermark, whatever it begins with. -/
def mark (watermark : Watermark) (data : Bytes) : Bytes := watermark.byte :: data

/-- The data behind the watermark of operations, unless it begins with that byte already. -/
def ensure (data : Bytes) : Bytes :=
  if data.head? = some operation.byte then data else operation.mark data

end Watermark

end TezosWallet
