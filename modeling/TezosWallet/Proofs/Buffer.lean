import TezosWallet.Proofs.Layout

/-!
# What writers append

A writer works in place, but what it does to a buffer does not depend on what stands there: it
appends the bytes of one result, or fails with one fault behind what it has left. Writers built
from others have results built from theirs, so a layout can be studied as a function to bytes.

## Main definitions

* `Writer.Denotes` — a writer appends the bytes of a result, or fails with its fault.

## Main results

* `Writer.Denotes.andThen`, `Writer.Denotes.framed`, `Writer.Denotes.forEach` — the results of
  composed writers; a length that is filled in afterwards stands where it would have been written.
* `Writer.Denotes.atomic_eq_error` — an atomic writer that fails changes nothing.
* `Writer.Denotes.run_eq` — the result is what the writer leaves in an empty buffer.
-/

namespace TezosWallet

/-! ### Buffers -/

namespace Buffer

theorem append_append (buffer : Buffer) (x y : Bytes) : buffer ++ x ++ y = buffer ++ (x ++ y) := by
  apply Array.ext'
  simp

theorem append_nil (buffer : Buffer) : buffer ++ ([] : Bytes) = buffer := by
  apply Array.ext'
  simp

/-- Overwriting replaces bytes by as many others and leaves those around them alone. -/
theorem toList_overwrite {buffer : Buffer} {before old new after : Bytes}
    (hbuffer : buffer.toList = before ++ (old ++ after)) (hlen : old.length = new.length) :
    (buffer.overwrite before.length new).toList = before ++ (new ++ after) := by
  induction new generalizing buffer before old with
  | nil =>
    obtain rfl := List.length_eq_zero_iff.mp hlen
    simpa [overwrite] using hbuffer
  | cons b new ih =>
    cases old with
    | nil => simp at hlen
    | cons o old =>
      have hset : (buffer.setIfInBounds before.length b).toList =
          (before ++ [b]) ++ (old ++ after) := by
        rw [Array.toList_setIfInBounds, hbuffer, List.set_append_right _ _ (Nat.le_refl _),
          Nat.sub_self, List.cons_append, List.set_cons_zero, List.append_assoc,
          List.singleton_append]
      have hnext := ih hset (by simpa using hlen)
      rw [List.length_append, List.length_singleton] at hnext
      rw [overwrite, hnext, List.append_assoc, List.singleton_append, List.cons_append]

/-- Bytes reserved at the end of a buffer can be replaced after more bytes have been written. -/
theorem overwrite_append (buffer : Buffer) {old new after : Bytes}
    (hlen : old.length = new.length) :
    overwrite (buffer ++ (old ++ after)) buffer.size new = buffer ++ (new ++ after) := by
  apply Array.ext'
  rw [Array.toList_appendList, ← Array.length_toList]
  exact toList_overwrite (Array.toList_appendList ..) hlen

/-- Cutting a buffer back undoes what was appended. -/
theorem truncate_append (buffer : Buffer) (left : Bytes) :
    truncate (buffer ++ left) buffer.size = buffer := by
  apply Array.ext'
  simp [truncate]

end Buffer

namespace Writer

variable {ε ε' α : Type} {first second writer : Writer ε} {x y : Layout ε}

/-! ### Results of writers -/

/-- A writer appends the bytes of a result to every buffer, or fails with its fault on every
buffer, behind what it has left there. -/
def Denotes (writer : Writer ε) : Layout ε → Prop
  | .ok bytes => ∀ buffer, writer buffer = (.ok (), buffer ++ bytes)
  | .error fault => ∀ buffer, ∃ left : Bytes, writer buffer = (.error fault, buffer ++ left)

theorem denotes_done : (done : Writer ε).Denotes (.ok []) := fun buffer => by
  rw [done, Buffer.append_nil]

theorem denotes_put (bytes : Bytes) : (put bytes : Writer ε).Denotes (.ok bytes) := fun _ => rfl

theorem denotes_putFramed (bytes : Bytes) :
    (putFramed bytes : Writer ε).Denotes (.ok (frame bytes)) :=
  denotes_put _

theorem denotes_fail (fault : ε) : (fail fault : Writer ε).Denotes (.error fault) := fun buffer =>
  ⟨[], by rw [fail, Buffer.append_nil]⟩

theorem Denotes.andThen (hfirst : first.Denotes x) (hsecond : second.Denotes y) :
    (first >> second).Denotes (x ++ y) := by
  change (Writer.andThen first second).Denotes _
  match x, hfirst with
  | .error fault, hfirst =>
    intro buffer
    obtain ⟨left, hleft⟩ := hfirst buffer
    exact ⟨left, by rw [Writer.andThen, hleft]⟩
  | .ok bytes, hfirst =>
    match y, hsecond with
    | .ok more, hsecond =>
      intro buffer
      have hboth : second (buffer ++ bytes) = (.ok (), buffer ++ bytes ++ more) := hsecond _
      rw [Buffer.append_append] at hboth
      rw [Writer.andThen, hfirst buffer]
      exact hboth
    | .error fault, hsecond =>
      intro buffer
      obtain ⟨left, hleft⟩ := hsecond (buffer ++ bytes)
      exact ⟨bytes ++ left, by
        simp only [Writer.andThen, hfirst buffer, hleft, Buffer.append_append]⟩

/-- A body whose length is filled in afterwards is the framed body. -/
theorem Denotes.framed (h : writer.Denotes x) : (framed writer).Denotes x.framed := by
  match x, h with
  | .ok bytes, h =>
    intro buffer
    have hsize : (buffer ++ (List.replicate frameSize 0 ++ bytes)).size - buffer.size - frameSize =
        bytes.length := by
      rw [← Array.length_toList, Array.toList_appendList, List.length_append, List.length_append,
        List.length_replicate, Array.length_toList]
      omega
    simp only [Writer.framed, h (buffer ++ (List.replicate frameSize 0 : Bytes)),
      Buffer.append_append]
    rw [hsize, Buffer.overwrite_append buffer (by simp [length_frameLength]), frame]
  | .error fault, h =>
    intro buffer
    obtain ⟨left, hleft⟩ := h (buffer ++ (List.replicate frameSize 0 : Bytes))
    exact ⟨List.replicate frameSize 0 ++ left, by
      rw [Writer.framed, hleft, Buffer.append_append]⟩

theorem Denotes.mapFault {cause : ε → ε'} (h : writer.Denotes x) :
    (mapFault cause writer).Denotes (x.mapError cause) := by
  match x, h with
  | .ok bytes, h => exact fun buffer => by rw [Writer.mapFault, h buffer]
  | .error fault, h =>
    intro buffer
    obtain ⟨left, hleft⟩ := h buffer
    exact ⟨left, by rw [Writer.mapFault, hleft]⟩

/-- A writer that restores the buffer on failure leaves nothing behind then. -/
theorem Denotes.atomic_eq_error {fault : ε} (h : writer.Denotes (.error fault)) (buffer : Buffer) :
    writer.atomic buffer = (.error fault, buffer) := by
  obtain ⟨left, hleft⟩ := h buffer
  simp only [Writer.atomic, hleft, Buffer.truncate_append]

/-- A writer that restores the buffer on failure has the result it had. -/
theorem Denotes.atomic (h : writer.Denotes x) : writer.atomic.Denotes x := by
  match x, h with
  | .ok bytes, h => exact fun buffer => by rw [Writer.atomic, h buffer]
  | .error fault, h => exact fun buffer => ⟨[], by rw [h.atomic_eq_error, Buffer.append_nil]⟩

/-- Elements written in turn leave their bytes one after the other, up to the first failure. -/
theorem Denotes.forEach {write : α → Writer ε} {layout : α → Layout ε}
    (h : ∀ a, (write a).Denotes (layout a)) (items : List α) :
    (Writer.forEach write items).Denotes (Layout.each layout items) := by
  induction items with
  | nil => exact denotes_done
  | cons a items ih => exact (h a).andThen ih

/-- The result of a writer is what it leaves in an empty buffer. -/
theorem Denotes.run_eq (h : writer.Denotes x) : writer.run = x := by
  match x, h with
  | .ok bytes, h => rw [Writer.run, h #[]]; simp
  | .error fault, h =>
    obtain ⟨left, hleft⟩ := h #[]
    rw [Writer.run, hleft]

end Writer

end TezosWallet
