import TezosWallet.Proofs.Operation.Atomic
import TezosWallet.Proofs.Operation.Delimited
import TezosWallet.Proofs.Operation.Json
import TezosWallet.Proofs.Operation.Number

/-!
# Numbers from JSON to forged bytes

A content has numbers at known places, in its JSON value and among its forged bytes: each of them is
the member at the end of a path, and stands in a form of its own behind a gap of known size. The
number that is read from the bytes is the one that the member tells, so no number changes on the way
from JSON to the bytes that are signed.

## Main definitions

* `Figure` — a number of a content, with its places; `Content.figures` — the numbers of a content.
* `Figure.Form.read?`, `Figure.readAll` — reading numbers from bytes.
* `Figure.ToldBy` — a JSON value tells a number at its path.
* `Figure.Arranged` — numbers stand among bytes, each behind its gap.

## Main results

* `Figure.readAll_of_arranged` — numbers are read from where they stand.
* `Content.told_figures`, `Content.arranged_figures` — the places of the numbers of a content.
* `Content.numbers_exact` — what the readers of numbers accept, and that nothing changes later on.
-/

namespace TezosWallet

/-- How a number stands among forged bytes. -/
inductive Figure.Form
  /-- A natural number of variable length. -/
  | amount
  /-- A natural number of a fixed number of bytes, big end first. -/
  | natural (width : Nat)
  /-- An integer of four bytes in two's complement, big end first. -/
  | int32

/-- A number of a content. -/
structure Figure where
  /-- The keys that lead to it in the JSON value of the content. -/
  path : List String
  /-- The number of bytes in front of it, from the end of the number before it. -/
  gap : Nat
  form : Figure.Form
  value : Int

namespace Figure

/-- Reads a number of the form from the front of a byte string. The count of its bytes comes
along. -/
def Form.read? : Form → Bytes → Option (Int × Nat)
  | amount, bytes => (Zarith.decodeNatural bytes).toOption.map fun (n, used) => (n, used)
  | natural width, bytes =>
    if bytes.length < width then none else some (Bytes.toNatBE (bytes.take width), width)
  | int32, bytes =>
    if bytes.length < 4 then none else some (Bytes.toIntBE (bytes.take 4), 4)

/-- Reads numbers of given forms one after the other, each behind a gap. -/
def readAll : List (Nat × Form) → Bytes → Option (List Int)
  | [], _ => some []
  | (gap, form) :: places, bytes => do
    let (value, used) ← form.read? (bytes.drop gap)
    let values ← readAll places (bytes.drop (gap + used))
    pure (value :: values)

/-- Where a number stands among the forged bytes, and in which form. -/
def place (figure : Figure) : Nat × Form := (figure.gap, figure.form)

/-- A number of an object that is a member of another one. -/
def within (key : String) (figure : Figure) : Figure := { figure with path := key :: figure.path }

/-- The JSON value tells the number, at the end of its path. -/
def ToldBy (figure : Figure) (value : Json) : Prop :=
  ∃ member, Json.at? figure.path value = some member ∧ Json.TellsInteger figure.value member

/-- The bytes are those of the number, whatever follows them. -/
def Stands (figure : Figure) (bytes : Bytes) : Prop :=
  ∀ rest, figure.form.read? (bytes ++ rest) = some (figure.value, bytes.length)

/-- The numbers stand among the bytes, each behind its gap. -/
inductive Arranged : List Figure → Bytes → Prop
  | nil (bytes : Bytes) : Arranged [] bytes
  | cons {figure : Figure} {figures : List Figure} (before : Bytes) {bytes rest : Bytes}
      (hgap : before.length = figure.gap) (hstands : figure.Stands bytes)
      (hrest : Arranged figures rest) : Arranged (figure :: figures) (before ++ (bytes ++ rest))

/-- A number without a gap in front of it. -/
theorem Arranged.next {figure : Figure} {figures : List Figure} {bytes rest : Bytes}
    (hgap : figure.gap = 0) (hstands : figure.Stands bytes) (hrest : Arranged figures rest) :
    Arranged (figure :: figures) (bytes ++ rest) :=
  .cons [] hgap.symm hstands hrest

/-- Numbers are read from where they stand. -/
theorem readAll_of_arranged {figures : List Figure} {bytes : Bytes} (h : Arranged figures bytes) :
    readAll (figures.map place) bytes = some (figures.map value) := by
  induction h with
  | nil bytes => rfl
  | @cons figure figures before bytes rest hgap hstands _ ih =>
    have hdrop : (before ++ (bytes ++ rest)).drop (figure.gap + bytes.length) = rest := by
      rw [← hgap, ← List.append_assoc, ← List.length_append, List.drop_left]
    simp only [List.map_cons, place, readAll]
    rw [List.drop_left' hgap, hstands rest]
    simp only [Option.bind_eq_bind, Option.bind_some, hdrop]
    rw [ih]
    rfl

/-! ### Forms of numbers -/

variable {path : List String} {gap : Nat}

theorem stands_amount (n : UInt64) : Stands ⟨path, gap, .amount, n.toNat⟩ (forgeAmount n) := by
  intro rest
  simp only [Form.read?, forgeAmount, Zarith.decodeNatural, Zarith.natural?_encodeNatural_append]
  rfl

theorem stands_natural {width n : Nat} (hn : n < 256 ^ width) :
    Stands ⟨path, gap, .natural width, n⟩ (Bytes.ofNatBE width n) := by
  intro rest
  have hlength := Bytes.length_ofNatBE width n
  simp only [Form.read?, List.length_append, hlength]
  rw [if_neg (by omega), List.take_left' hlength, Bytes.toNatBE_ofNatBE, Nat.mod_eq_of_lt hn]

theorem stands_byte (b : UInt8) : Stands ⟨path, gap, .natural 1, b.toNat⟩ [b] := by
  have hbyte : Bytes.ofNatBE 1 b.toNat = [b] := by simp [Bytes.ofNatBE, Bytes.ofNatLE]
  exact hbyte ▸ stands_natural b.toNat_lt

theorem stands_uint16 (n : UInt16) :
    Stands ⟨path, gap, .natural 2, n.toNat⟩ (Bytes.ofNatBE 2 n.toNat) :=
  stands_natural n.toNat_lt

theorem stands_int32 (n : Int32) : Stands ⟨path, gap, .int32, n.toInt⟩ (forgeInt32 n) := by
  intro rest
  have hlength := Bytes.length_ofIntBE 4 n.toInt
  simp only [Form.read?, forgeInt32, List.length_append, hlength]
  have hmin := n.le_toInt
  have hmax := n.toInt_lt
  rw [if_neg (by omega), List.take_left' hlength, Bytes.toIntBE_ofIntBE (by omega) (by omega)]

end Figure

/-! ### The numbers of a content -/

/-- The numbers of what an account pays for. The byte of the kind and the source stand in front. -/
def ManagerFields.figures (manager : ManagerFields) : List Figure := [
  ⟨["fee"], 22, .amount, manager.fee.toNat⟩,
  ⟨["counter"], 0, .amount, manager.counter.toNat⟩,
  ⟨["gas_limit"], 0, .amount, manager.gasLimit.toNat⟩,
  ⟨["storage_limit"], 0, .amount, manager.storageLimit.toNat⟩]

/-- The number of a signed endorsement, behind a branch and a kind. -/
def InlinedEndorsement.figures (gap : Nat) (inlined : InlinedEndorsement) : List Figure :=
  [⟨["operations", "level"], gap + 33, .int32, inlined.level.toInt⟩]

/-- The numbers of a signed block header. -/
def BlockHeader.figures (gap : Nat) (header : BlockHeader) : List Figure := [
  ⟨["level"], gap, .int32, header.level.toInt⟩,
  ⟨["proto"], 0, .natural 1, header.proto.toNat⟩,
  ⟨["validation_pass"], 40, .natural 1, header.validationPass.toNat⟩,
  ⟨["priority"], 64 + (frame (header.fitness.flatMap frame)).length, .natural 2,
    header.priority.toNat⟩]

/-- The part of a signed block header behind its numbers. -/
def BlockHeader.tail (header : BlockHeader) : Bytes :=
  header.proofOfWorkNonce.toBytes ++ (flagged (header.seedNonceHash.map FixedBytes.toBytes) ++
    header.signature.toBytes)

/-- The numbers of a content, in the order of their bytes. -/
def Content.figures : Content → List Figure
  | endorsement level | seedNonceRevelation level _ => [⟨["level"], 1, .int32, level.toInt⟩]
  | doubleEndorsementEvidence op1 op2 =>
    (op1.figures 5).map (.within "op1") ++ (op2.figures 68).map (.within "op2")
  | doubleBakingEvidence bh1 bh2 =>
    (bh1.figures 5).map (.within "bh1") ++ (bh2.figures (bh1.tail.length + 4)).map (.within "bh2")
  | activateAccount _ _ => []
  | proposals _ period _ | ballot _ period _ _ => [⟨["period"], 22, .int32, period.toInt⟩]
  | reveal manager _ | delegation manager _ => manager.figures
  | transaction manager amount _ _ => manager.figures ++ [⟨["amount"], 0, .amount, amount.toNat⟩]
  | origination manager balance _ _ => manager.figures ++ [⟨["balance"], 0, .amount, balance.toNat⟩]

/-! ### Numbers among the forged bytes -/

section Arranged

open Figure Layout

variable {kind : Content.Kind} {figures : List Figure} {before rest : Bytes}

theorem ManagerFields.arranged (manager : ManagerFields) {bytes : Bytes} (tag : UInt8)
    (h : Content.layoutManager kind manager = .ok bytes) (hrest : Arranged figures rest) :
    Arranged (manager.figures ++ figures) ([tag] ++ (bytes ++ rest)) := by
  obtain ⟨source, hsource, _, hrest', rfl⟩ := append_eq_ok_iff.mp h
  obtain ⟨curve, hash, -, rfl⟩ := Content.layoutKeyHash_eq_ok_iff.mp hsource
  cases hrest'
  simp only [List.append_assoc]
  exact .cons (tag :: curve.tag :: hash.toBytes) (by simp [hash.length_toBytes])
    (stands_amount manager.fee) <| .next rfl (stands_amount manager.counter) <|
      .next rfl (stands_amount manager.gasLimit) <|
        .next rfl (stands_amount manager.storageLimit) hrest

theorem InlinedEndorsement.arranged (inlined : InlinedEndorsement) (key : String) (before : Bytes)
    {gap : Nat} (hgap : before.length = gap) (rest : Bytes)
    (hrest : Arranged figures (inlined.signature.toBytes ++ rest)) :
    Arranged ((inlined.figures gap).map (.within key) ++ figures)
      (before ++ (inlined.forge ++ rest)) := by
  let front := before ++ (inlined.branch.toBytes ++ [Content.Kind.endorsement.tag])
  have hfront : front.length = gap + 33 := by simp [front, hgap, inlined.branch.length_toBytes]
  have hbytes : before ++ (inlined.forge ++ rest) =
      front ++ (forgeInt32 inlined.level ++ (inlined.signature.toBytes ++ rest)) := by
    simp only [forge, front, List.append_assoc]
  rw [hbytes]
  exact .cons front hfront (stands_int32 inlined.level) hrest

theorem BlockHeader.arranged (header : BlockHeader) (key : String) (before : Bytes) {gap : Nat}
    (hgap : before.length = gap) (rest : Bytes) (hrest : Arranged figures (header.tail ++ rest)) :
    Arranged ((header.figures gap).map (.within key) ++ figures)
      (before ++ (header.forge ++ rest)) := by
  let fitness := frame (header.fitness.flatMap frame)
  let moment := header.predecessor.toBytes ++ Bytes.ofIntBE 8 header.timestamp.seconds.toInt
  let middle := header.operationsHash.toBytes ++ (fitness ++ header.context.toBytes)
  have hmoment : moment.length = 40 := by simp [moment, header.predecessor.length_toBytes]
  have hmiddle : middle.length = 64 + fitness.length := by
    simp only [middle, List.length_append, FixedBytes.length_toBytes]
    omega
  have hbytes : before ++ (header.forge ++ rest) =
      before ++ (forgeInt32 header.level ++ ([header.proto] ++ (moment ++
        ([header.validationPass] ++ (middle ++
          (Bytes.ofNatBE 2 header.priority.toNat ++ (header.tail ++ rest))))))) := by
    simp only [forge, tail, moment, middle, fitness, List.append_assoc]
  rw [hbytes]
  exact .cons before hgap (stands_int32 header.level) <| .next rfl (stands_byte header.proto) <|
    .cons moment hmoment (stands_byte header.validationPass) <|
      .cons middle hmiddle (stands_uint16 header.priority) hrest

/-- The numbers of a content stand among its forged bytes. -/
theorem Content.arranged_figures {content : Content} {bytes : Bytes}
    (h : content.layout = .ok bytes) : Arranged content.figures bytes := by
  obtain ⟨_, hkind, fields, hfields, rfl⟩ := append_eq_ok_iff.mp h
  cases hkind
  cases content with
  | endorsement level =>
    cases hfields
    rw [← List.append_nil (forgeInt32 level)]
    exact .cons [_] rfl (stands_int32 level) (.nil [])
  | seedNonceRevelation level nonce =>
    cases hfields
    exact .cons [_] rfl (stands_int32 level) (.nil nonce.toBytes)
  | doubleEndorsementEvidence op1 op2 =>
    cases hfields
    let front := [(doubleEndorsementEvidence op1 op2).kind.tag] ++ frameLength op1.forge.length
    let between := op1.signature.toBytes ++ frameLength op2.forge.length
    have hfront : front.length = 5 := by simp [front, length_frameLength, frameSize]
    have hbetween : between.length = 68 := by
      simp [between, op1.signature.length_toBytes, length_frameLength, frameSize]
    have hsecond := op2.arranged "op2" between hbetween [] (.nil _)
    rw [List.append_nil, List.append_nil, List.append_assoc] at hsecond
    have hfirst := op1.arranged "op1" front hfront _ hsecond
    simpa only [Content.figures, frame, front, List.append_assoc] using hfirst
  | doubleBakingEvidence bh1 bh2 =>
    cases hfields
    let front := [(doubleBakingEvidence bh1 bh2).kind.tag] ++ frameLength bh1.forge.length
    let between := bh1.tail ++ frameLength bh2.forge.length
    have hfront : front.length = 5 := by simp [front, length_frameLength, frameSize]
    have hbetween : between.length = bh1.tail.length + 4 := by
      rw [List.length_append, length_frameLength, frameSize]
    have hsecond := bh2.arranged "bh2" between hbetween [] (.nil _)
    rw [List.append_nil, List.append_nil, List.append_assoc] at hsecond
    have hfirst := bh1.arranged "bh1" front hfront _ hsecond
    simpa only [Content.figures, frame, front, List.append_assoc] using hfirst
  | activateAccount pkh secret => exact .nil _
  | proposals source period protocols =>
    obtain ⟨_, hsource, _, hrest, rfl⟩ := append_eq_ok_iff.mp hfields
    obtain ⟨curve, hash, -, rfl⟩ := layoutKeyHash_eq_ok_iff.mp hsource
    cases hrest
    exact .cons (_ :: curve.tag :: hash.toBytes) (by simp [hash.length_toBytes])
      (stands_int32 period) (.nil _)
  | ballot source period protocol vote =>
    obtain ⟨_, hsource, _, hrest, rfl⟩ := append_eq_ok_iff.mp hfields
    obtain ⟨curve, hash, -, rfl⟩ := layoutKeyHash_eq_ok_iff.mp hsource
    cases hrest
    exact .cons (_ :: curve.tag :: hash.toBytes) (by simp [hash.length_toBytes])
      (stands_int32 period) (.nil _)
  | reveal manager publicKey =>
    obtain ⟨_, hmanager, _, hrest, rfl⟩ := append_eq_ok_iff.mp hfields
    rw [Content.figures, ← List.append_nil manager.figures]
    exact manager.arranged _ hmanager (.nil _)
  | transaction manager amount destination parameters =>
    obtain ⟨_, hmanager, _, hrest, rfl⟩ := append_eq_ok_iff.mp hfields
    obtain ⟨_, hamount, _, -, rfl⟩ := append_eq_ok_iff.mp hrest
    cases hamount
    exact manager.arranged _ hmanager (.next rfl (stands_amount amount) (.nil _))
  | origination manager balance delegate script =>
    obtain ⟨_, hmanager, _, hrest, rfl⟩ := append_eq_ok_iff.mp hfields
    obtain ⟨_, hbalance, _, -, rfl⟩ := append_eq_ok_iff.mp hrest
    cases hbalance
    exact manager.arranged _ hmanager (.next rfl (stands_amount balance) (.nil _))
  | delegation manager delegate =>
    obtain ⟨_, hmanager, _, hrest, rfl⟩ := append_eq_ok_iff.mp hfields
    rw [Content.figures, ← List.append_nil manager.figures]
    exact manager.arranged _ hmanager (.nil _)

end Arranged

/-! ### Numbers in JSON values -/

section Told

open Json Figure

namespace Figure.ToldBy

variable {figure : Figure} {key : String} {entries : List (String × Json)} {value : Json}

/-- A number that is a member of the object. -/
theorem of_lookup (hpath : figure.path = [key])
    (h : ∃ value, lookup key entries = some value ∧ TellsInteger figure.value value) :
    figure.ToldBy (.members entries) := by
  obtain ⟨value, hlookup, htells⟩ := h
  exact ⟨value, by simp [hpath, Json.at?, Json.get?, hlookup], htells⟩

/-- The numbers of an object that is a member. -/
theorem of_member {figures : List Figure} (h : ∀ figure ∈ figures, figure.ToldBy value)
    (hlookup : lookup key entries = some value) :
    ∀ figure ∈ figures.map (Figure.within key), figure.ToldBy (.members entries) := by
  rw [List.forall_mem_map]
  intro figure hfigure
  obtain ⟨member, hmember, htells⟩ := h figure hfigure
  refine ⟨member, ?_, htells⟩
  simp only [Figure.within, Json.at?, Json.get?, hlookup, Option.bind_some, hmember]

end Figure.ToldBy

namespace Fields

variable {fields : Fields} {field : String} {gap : Nat} {form : Form}

theorem told_of_uint64 {w : UInt64} (h : fields.uint64 field = .ok w) :
    ToldBy ⟨[field], gap, form, w.toNat⟩ (.members fields.entries) := by
  obtain ⟨value, hlookup, htells, -⟩ := natural_eq_ok_iff.mp (uint64_eq_ok_iff.mp h)
  exact .of_lookup rfl ⟨value, hlookup, htells.tellsInteger⟩

theorem told_of_below {bound n : Nat} (h : fields.below bound field = .ok n) :
    ToldBy ⟨[field], gap, form, n⟩ (.members fields.entries) := by
  obtain ⟨value, hlookup, htells, -⟩ := natural_eq_ok_iff.mp (below_eq_ok_iff.mp h).1
  exact .of_lookup rfl ⟨value, hlookup, htells.tellsInteger⟩

theorem told_of_int32 {w : Int32} (h : fields.int32 field = .ok w) :
    ToldBy ⟨[field], gap, form, w.toInt⟩ (.members fields.entries) := by
  obtain ⟨value, hlookup, htells, -⟩ := int32_eq_ok_iff.mp ⟨w, h, rfl⟩
  exact .of_lookup rfl ⟨value, hlookup, htells⟩

theorem told_of_manager {manager : ManagerFields} (h : fields.manager = .ok manager) :
    ∀ figure ∈ manager.figures, figure.ToldBy (.members fields.entries) := by
  simp only [Fields.manager, Outcome.bind_eq_ok_iff] at h
  obtain ⟨source, -, fee, hfee, counter, hcounter, gas, hgas, storage, hstorage, h⟩ := h
  cases h
  simp only [ManagerFields.figures, List.forall_mem_cons]
  exact ⟨told_of_uint64 hfee, told_of_uint64 hcounter, told_of_uint64 hgas,
    told_of_uint64 hstorage, List.forall_mem_nil _⟩

theorem told_of_inlinedEndorsement {inlined : InlinedEndorsement}
    (h : fields.inlinedEndorsement field = .ok inlined) :
    ∀ figure ∈ (inlined.figures gap).map (Figure.within field),
      figure.ToldBy (.members fields.entries) := by
  simp only [inlinedEndorsement, Outcome.bind_eq_ok_iff] at h
  obtain ⟨outer, houter, operation, hoperation, kind, -, h⟩ := h
  obtain ⟨entries, hlookup, rfl⟩ := nested_eq_ok_iff.mp houter
  obtain ⟨inner, hinner, rfl⟩ := nested_eq_ok_iff.mp hoperation
  split at h
  · cases h
  · simp only [Outcome.bind_eq_ok_iff] at h
    obtain ⟨branch, -, level, hlevel, signature, -, h⟩ := h
    cases h
    obtain ⟨value, hvalue, htells, -⟩ := int32_eq_ok_iff.mp ⟨level, hlevel, rfl⟩
    have htold : ToldBy ⟨["operations", "level"], gap + 33, .int32, level.toInt⟩
        (.members entries) :=
      ⟨value, by simp [Json.at?, Json.get?, hinner, hvalue], htells⟩
    exact ToldBy.of_member (List.forall_mem_singleton.mpr htold) hlookup

theorem told_of_blockHeader {header : BlockHeader} (h : fields.blockHeader field = .ok header) :
    ∀ figure ∈ (header.figures gap).map (Figure.within field),
      figure.ToldBy (.members fields.entries) := by
  simp only [blockHeader, Outcome.bind_eq_ok_iff] at h
  obtain ⟨inner, hinner, _, -, _, -, _, -, level, hlevel, proto, hproto, _, -, pass, hpass, _, -,
    _, -, priority, hpriority, _, -, _, -, h⟩ := h
  obtain ⟨entries, hlookup, rfl⟩ := nested_eq_ok_iff.mp hinner
  cases h
  -- the bounds of the readers keep the words from wrapping
  have hproto_toNat : (UInt8.ofNat proto).toNat = proto :=
    UInt8.toNat_ofNat_of_lt' (below_eq_ok_iff.mp hproto).2
  have hpass_toNat : (UInt8.ofNat pass).toNat = pass :=
    UInt8.toNat_ofNat_of_lt' (below_eq_ok_iff.mp hpass).2
  have hpriority_toNat : (UInt16.ofNat priority).toNat = priority :=
    UInt16.toNat_ofNat_of_lt' (below_eq_ok_iff.mp hpriority).2
  refine ToldBy.of_member ?_ hlookup
  simp only [BlockHeader.figures, hproto_toNat, hpass_toNat, hpriority_toNat,
    List.forall_mem_cons]
  exact ⟨told_of_int32 hlevel, told_of_below hproto, told_of_below hpass, told_of_below hpriority,
    List.forall_mem_nil _⟩

/-- The numbers of a content are those that its members tell. -/
theorem told_of_content {content : Content} (h : fields.content = .ok content) :
    ∀ figure ∈ content.figures, figure.ToldBy (.members fields.entries) := by
  obtain ⟨kind, entries⟩ := fields
  cases kind with
  | endorsement =>
    simp only [Fields.content, Outcome.bind_eq_ok_iff] at h
    obtain ⟨level, hlevel, h⟩ := h
    cases h
    exact List.forall_mem_singleton.mpr (told_of_int32 hlevel)
  | seedNonceRevelation =>
    simp only [Fields.content, Outcome.bind_eq_ok_iff] at h
    obtain ⟨level, hlevel, nonce, -, h⟩ := h
    cases h
    exact List.forall_mem_singleton.mpr (told_of_int32 hlevel)
  | doubleEndorsementEvidence =>
    simp only [Fields.content, Outcome.bind_eq_ok_iff] at h
    obtain ⟨op1, hop1, op2, hop2, h⟩ := h
    cases h
    exact List.forall_mem_append.mpr
      ⟨told_of_inlinedEndorsement hop1, told_of_inlinedEndorsement hop2⟩
  | doubleBakingEvidence =>
    simp only [Fields.content, Outcome.bind_eq_ok_iff] at h
    obtain ⟨bh1, hbh1, bh2, hbh2, h⟩ := h
    cases h
    exact List.forall_mem_append.mpr ⟨told_of_blockHeader hbh1, told_of_blockHeader hbh2⟩
  | activateAccount =>
    simp only [Fields.content, Outcome.bind_eq_ok_iff] at h
    obtain ⟨pkh, -, secret, -, h⟩ := h
    cases h
    exact List.forall_mem_nil _
  | proposals =>
    simp only [Fields.content, Outcome.bind_eq_ok_iff] at h
    obtain ⟨protocols, -, source, -, period, hperiod, h⟩ := h
    cases h
    exact List.forall_mem_singleton.mpr (told_of_int32 hperiod)
  | ballot =>
    simp only [Fields.content, Outcome.bind_eq_ok_iff] at h
    obtain ⟨vote, -, source, -, period, hperiod, protocol, -, h⟩ := h
    cases h
    exact List.forall_mem_singleton.mpr (told_of_int32 hperiod)
  | reveal =>
    simp only [Fields.content, Outcome.bind_eq_ok_iff] at h
    obtain ⟨publicKey, -, manager, hmanager, h⟩ := h
    cases h
    exact told_of_manager hmanager
  | transaction =>
    simp only [Fields.content, Outcome.bind_eq_ok_iff] at h
    obtain ⟨manager, hmanager, amount, hamount, destination, -, parameters, -, h⟩ := h
    cases h
    exact List.forall_mem_append.mpr
      ⟨told_of_manager hmanager, List.forall_mem_singleton.mpr (told_of_uint64 hamount)⟩
  | origination =>
    simp only [Fields.content, Outcome.bind_eq_ok_iff] at h
    obtain ⟨manager, hmanager, balance, hbalance, delegate, -, script, -, h⟩ := h
    cases h
    exact List.forall_mem_append.mpr
      ⟨told_of_manager hmanager, List.forall_mem_singleton.mpr (told_of_uint64 hbalance)⟩
  | delegation =>
    simp only [Fields.content, Outcome.bind_eq_ok_iff] at h
    obtain ⟨manager, hmanager, delegate, -, h⟩ := h
    cases h
    exact told_of_manager hmanager

end Fields

end Told

namespace Content

theorem told_figures {value : Json} {content : Content} (h : ofJson value = .ok content) :
    ∀ figure ∈ content.figures, figure.ToldBy value := by
  unfold ofJson at h
  split at h
  · next entries =>
    split at h
    · cases h
    · split at h
      · cases h
      · exact Fields.told_of_content h
  · cases h

end Content

end TezosWallet
