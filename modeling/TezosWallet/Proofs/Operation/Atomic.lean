import TezosWallet.Proofs.Operation.Layout

/-!
# Appending contents is atomic

A content is written in place, with lengths that are filled in later, and may fail anywhere on the
way. To the buffer none of this shows: it grows by the forged form of the content, which is the
same for all buffers, or stays as it was. So a buffer to which contents are appended one after the
other ends with the forged forms of those that did not fail, and an operation is its branch with
the forged forms of all its contents, unless one of them fails.

## Main definitions

* `Content.appendEach` — appends contents in turn, going on after a failure.

## Main results

* `Content.append_eq`, `Content.appendEach_eq` — what one content and a sequence do to a buffer.
* `ForgedOperation.ofContents_eq_error_iff`, `ForgedOperation.ofContents_eq_ok_iff_forgeAll` —
  which operations fail with which error, and the bytes of the others.
* `forging_atomic` — all of them at once.
-/

namespace TezosWallet

namespace Content

/-- Forging a content alone gives its layout. -/
theorem forgeAll_singleton (content : Content) : forgeAll [content] = content.layout := by
  rw [forgeAll_eq_layout, Layout.each, Layout.each, Layout.append_ok_nil]

theorem forgeAll_eq_each (contents : List Content) :
    forgeAll contents = Layout.each (fun content => forgeAll [content]) contents := by
  simp only [forgeAll_singleton]
  exact forgeAll_eq_layout contents

/-- Contents have a forged form exactly if each of them does alone, and then they have these in a
row. -/
theorem forgeAll_eq_ok_iff {contents : List Content} {bytes : Bytes} :
    forgeAll contents = .ok bytes ↔
      ∃ parts, List.Forall₂ (fun content part => forgeAll [content] = .ok part) contents parts ∧
        bytes = parts.flatten := by
  rw [forgeAll_eq_each contents]
  exact Layout.each_eq_ok_iff

/-- Contents fail like the first of them that fails alone. -/
theorem forgeAll_eq_error_iff {contents : List Content} {fault : ForgeError} :
    forgeAll contents = .error fault ↔
      ∃ before content after, contents = before ++ content :: after ∧
        (∀ c ∈ before, ∃ bytes, forgeAll [c] = .ok bytes) ∧ forgeAll [content] = .error fault := by
  rw [forgeAll_eq_each contents]
  exact Layout.each_eq_error_iff

/-- A content appends to any buffer what it is forged to alone, or leaves the buffer as it was and
fails with the same error. -/
theorem append_eq (content : Content) (buffer : Buffer) :
    content.append buffer = match forgeAll [content] with
      | .ok bytes => (.ok (), buffer ++ bytes)
      | .error fault => (.error fault, buffer) := by
  have hwrite : content.write.Denotes content.layout :=
    (Writer.denotes_put _).andThen content.writeFields_denotes
  rw [forgeAll_singleton]
  cases hlayout : content.layout with
  | ok bytes =>
    rw [hlayout] at hwrite
    exact hwrite.atomic buffer
  | error fault =>
    rw [hlayout] at hwrite
    exact hwrite.atomic_eq_error buffer

/-- Appends contents in turn to one buffer, also those after a failure. The outcomes come with the
buffer at the end. -/
def appendEach : List Content → Buffer → List (Except ForgeError Unit) × Buffer
  | [], buffer => ([], buffer)
  | content :: rest, buffer =>
    let (outcome, buffer) := content.append buffer
    let (outcomes, buffer) := appendEach rest buffer
    (outcome :: outcomes, buffer)

/-- Contents in turn have the outcomes that they have alone, and a buffer keeps the forged forms of
those that did not fail, in order. -/
theorem appendEach_eq (contents : List Content) (buffer : Buffer) :
    appendEach contents buffer =
      (contents.map fun content => (forgeAll [content]).map fun _ => (),
        buffer ++ (contents.filterMap fun content => (forgeAll [content]).toOption).flatten) := by
  induction contents generalizing buffer with
  | nil => exact congrArg _ (Buffer.append_nil buffer).symm
  | cons content rest ih =>
    rw [appendEach, append_eq, List.map_cons, List.filterMap_cons]
    cases forgeAll [content] with
    | ok bytes =>
      dsimp only
      rw [ih, Buffer.append_append]
      rfl
    | error fault =>
      dsimp only
      rw [ih]
      rfl

end Content

namespace ForgedOperation

variable {branch : String} {contents : List Content}

/-- An operation fails if its branch is no block hash, and otherwise for the first of its contents
that fails alone. -/
theorem ofContents_eq_error_iff {fault : ForgeError} :
    ofContents branch contents = .error fault ↔
      (∃ cause, Base58Check.decodeFixed 32 branch Version.blockHash.bytes = .error cause ∧
        fault = .branch cause) ∨
      (∃ hash, Base58Check.decodeFixed 32 branch Version.blockHash.bytes = .ok hash) ∧
        ∃ before content after, contents = before ++ content :: after ∧
          (∀ c ∈ before, ∃ bytes, Content.forgeAll [c] = .ok bytes) ∧
          Content.forgeAll [content] = .error fault := by
  rw [ofContents_eq, ← Content.forgeAll_eq_error_iff]
  cases Base58Check.decodeFixed 32 branch Version.blockHash.bytes with
  | error cause => simp [eq_comm]
  | ok hash => cases Content.forgeAll contents <;> simp

/-- An operation that does not fail is the hash of its branch and the forged forms of its
contents. -/
theorem ofContents_eq_ok_iff_forgeAll {operation : ForgedOperation} :
    ofContents branch contents = .ok operation ↔
      ∃ hash, Base58Check.decodeFixed 32 branch Version.blockHash.bytes = .ok hash ∧
        ∃ parts, List.Forall₂ (fun c part => Content.forgeAll [c] = .ok part) contents parts ∧
          operation.bytes = hash.toBytes ++ parts.flatten := by
  simp only [ofContents_eq_ok_iff, ← Content.forgeAll_eq_layout]
  refine exists_congr fun hash => and_congr Base58Check.decodeFixed_eq_ok_iff.symm ⟨?_, ?_⟩
  · rintro ⟨bytes, hforge, hbytes⟩
    obtain ⟨parts, hparts, rfl⟩ := Content.forgeAll_eq_ok_iff.mp hforge
    exact ⟨parts, hparts, hbytes⟩
  · rintro ⟨parts, hparts, hbytes⟩
    exact ⟨_, Content.forgeAll_eq_ok_iff.mpr ⟨parts, hparts, rfl⟩, hbytes⟩

/-- More contents add their forged forms at the end, unless something fails. -/
theorem ofContents_append (branch : String) (contents more : List Content) :
    ofContents branch (contents ++ more) = (do
      let operation ← ofContents branch contents
      let bytes ← Content.forgeAll more
      pure ⟨operation.bytes ++ bytes⟩) := by
  have happend : Content.forgeAll (contents ++ more) =
      (Content.forgeAll contents : Layout ForgeError) ++ Content.forgeAll more := by
    rw [Content.forgeAll_eq_each, Layout.each_append, ← Content.forgeAll_eq_each,
      ← Content.forgeAll_eq_each]
  rw [ofContents_eq, ofContents_eq, happend]
  cases Base58Check.decodeFixed 32 branch Version.blockHash.bytes with
  | error cause => rfl
  | ok hash =>
    cases Content.forgeAll contents with
    | error fault => rfl
    | ok bytes => cases Content.forgeAll more <;> simp

end ForgedOperation

/-- Forging is atomic and does not depend on the buffer. A content appends to every buffer what it
is forged to alone, or leaves the buffer as it was and fails with the same error. Over a whole
sequence the buffer keeps the forged forms of those that do not fail. An operation fails for its
branch, else for the first of its contents that fails alone, and else is the hash of its branch in
front of the forged forms. More contents then add theirs at the end. -/
theorem forging_atomic (branch : String) (contents : List Content) (buffer : Buffer) :
    (∀ content : Content, content.append buffer =
        match Content.forgeAll [content] with
        | .ok bytes => (.ok (), buffer ++ bytes)
        | .error fault => (.error fault, buffer)) ∧
      Content.appendEach contents buffer =
        (contents.map fun content => (Content.forgeAll [content]).map fun _ => (),
          buffer ++ (contents.filterMap fun content =>
            (Content.forgeAll [content]).toOption).flatten) ∧
      (∀ fault, ForgedOperation.ofContents branch contents = .error fault ↔
        (∃ cause, Base58Check.decodeFixed 32 branch Version.blockHash.bytes = .error cause ∧
          fault = .branch cause) ∨
        (∃ hash, Base58Check.decodeFixed 32 branch Version.blockHash.bytes = .ok hash) ∧
          ∃ before content after, contents = before ++ content :: after ∧
            (∀ c ∈ before, ∃ bytes, Content.forgeAll [c] = .ok bytes) ∧
            Content.forgeAll [content] = .error fault) ∧
      (∀ operation, ForgedOperation.ofContents branch contents = .ok operation ↔
        ∃ hash, Base58Check.decodeFixed 32 branch Version.blockHash.bytes = .ok hash ∧
          ∃ parts,
            List.Forall₂ (fun c part => Content.forgeAll [c] = .ok part) contents parts ∧
              operation.bytes = hash.toBytes ++ parts.flatten) ∧
      ∀ more, ForgedOperation.ofContents branch (contents ++ more) = (do
        let operation ← ForgedOperation.ofContents branch contents
        let bytes ← Content.forgeAll more
        pure ⟨operation.bytes ++ bytes⟩) :=
  ⟨fun content => content.append_eq buffer, Content.appendEach_eq contents buffer,
    fun _ => ForgedOperation.ofContents_eq_error_iff,
    fun _ => ForgedOperation.ofContents_eq_ok_iff_forgeAll,
    ForgedOperation.ofContents_append branch contents⟩

end TezosWallet
