import TezosWallet.Bytes

/-!
# Writing into a buffer

Forged data are written into one growing buffer. A body whose length comes first is written in
place: four bytes are reserved, the body is written after them, and its length is then put where
the four bytes stand. A writer that fails leaves behind what it has written so far.

## Main definitions

* `Buffer` — the bytes written so far.
* `Writer` — an action on a buffer that may fail.
* `Writer.put`, `Writer.putFramed`, `Writer.framed` — bytes, bytes behind their length, and a
  body behind its length.
* `Writer.atomic` — a writer that leaves no trace when it fails.
-/

namespace TezosWallet

/-- The bytes written so far. -/
abbrev Buffer := Array UInt8

namespace Buffer

/-- Overwrites bytes from an index on, as far as the buffer reaches. -/
def overwrite (buffer : Buffer) (start : Nat) : Bytes → Buffer
  | [] => buffer
  | b :: rest => overwrite (buffer.setIfInBounds start b) (start + 1) rest

/-- Cuts a buffer to a size. -/
def truncate (buffer : Buffer) (size : Nat) : Buffer := buffer.extract 0 size

end Buffer

/-- The number of bytes of a length in front of a body. -/
def frameSize : Nat := 4

/-- A length as it stands in front of a body. -/
def frameLength (length : Nat) : Bytes := Bytes.ofNatBE frameSize length

/-- Bytes behind their length. -/
def frame (bytes : Bytes) : Bytes := frameLength bytes.length ++ bytes

/-- An action on a buffer that may fail, and leaves the buffer as it is then. -/
def Writer (ε : Type) : Type := Buffer → Except ε Unit × Buffer

namespace Writer

variable {ε : Type}

/-- Writes nothing. -/
def done : Writer ε := fun buffer => (.ok (), buffer)

/-- Writes nothing and fails. -/
def fail (fault : ε) : Writer ε := fun buffer => (.error fault, buffer)

/-- Writes bytes. -/
def put (bytes : Bytes) : Writer ε := fun buffer => (.ok (), buffer ++ bytes)

/-- Writes one thing and, unless it fails, another thing after it. -/
def andThen (first second : Writer ε) : Writer ε := fun buffer =>
  match first buffer with
  | (.ok (), buffer) => second buffer
  | (.error fault, buffer) => (.error fault, buffer)

instance : AndThen (Writer ε) := ⟨fun first second => first.andThen (second ())⟩

/-- Writes bytes behind their length. -/
def putFramed (bytes : Bytes) : Writer ε := put (frame bytes)

/-- Writes a body behind its length: the place of the length is filled in after the body. -/
def framed (body : Writer ε) : Writer ε := fun buffer =>
  let start := buffer.size
  match body (buffer ++ (List.replicate frameSize 0 : Bytes)) with
  | (.ok (), buffer) =>
    (.ok (), buffer.overwrite start (frameLength (buffer.size - start - frameSize)))
  | (.error fault, buffer) => (.error fault, buffer)

/-- Writes, and cuts the buffer back to where it was on failure. -/
def atomic (body : Writer ε) : Writer ε := fun buffer =>
  let start := buffer.size
  match body buffer with
  | (.ok (), buffer) => (.ok (), buffer)
  | (.error fault, buffer) => (.error fault, buffer.truncate start)

/-- Writes alike, with the cause of a failure changed. -/
def mapFault {ε' : Type} (cause : ε → ε') (writer : Writer ε) : Writer ε' := fun buffer =>
  match writer buffer with
  | (.ok (), buffer) => (.ok (), buffer)
  | (.error fault, buffer) => (.error (cause fault), buffer)

/-- Writes for each element of a list in turn, up to the first failure. -/
def forEach {α : Type} (write : α → Writer ε) : List α → Writer ε
  | [] => done
  | x :: rest => write x >> forEach write rest

/-- What is written into an empty buffer, unless writing fails. -/
def run (writer : Writer ε) : Except ε Bytes :=
  match writer #[] with
  | (.ok (), buffer) => .ok buffer.toList
  | (.error fault, _) => .error fault

end Writer

end TezosWallet
