import TezosWallet.Proofs.Micheline.Unique
import TezosWallet.Proofs.Operation.Layout
import TezosWallet.Proofs.Zarith

/-!
# Fields that end by themselves

No separator stands between the fields of an operation. Each field has a fixed size, tells its size
by its first byte, ends by itself as a number does, or stands behind its length. So bytes that
begin with two fields of one type begin with the same value.

## Main definitions

* `BlockHeader.wholeSecond` — a block header whose time is cut to the second before.

## Main results

* `forgeInt32_append_inj`, `forgeAmount_append_inj`, `BlockHeader.forge_append_inj`, … — fields
  that can always be written.
* `Content.settles_keyHash`, `Content.settles_parameters`, … — fields that may have no layout.
-/

namespace TezosWallet

variable {s t : Bytes}

/-! ### Numbers -/

theorem forgeInt32_append_inj {m n : Int32} :
    forgeInt32 m ++ s = forgeInt32 n ++ t ↔ m = n ∧ s = t := by
  have hm := m.toInt_lt
  have hm' := m.le_toInt
  have hn := n.toInt_lt
  have hn' := n.le_toInt
  rw [forgeInt32, forgeInt32, Bytes.ofIntBE_append_inj (by omega), Int32.toInt_inj]

/-- Times less than the range of sixty-four bits apart. -/
theorem natAbs_sub_toInt_lt (m n : Int64) : (m.toInt - n.toInt).natAbs < 256 ^ 8 := by
  have hm := m.toInt_lt
  have hm' := m.le_toInt
  have hn := n.toInt_lt
  have hn' := n.le_toInt
  omega

theorem forgeUInt16_append_inj {m n : UInt16} :
    Bytes.ofNatBE 2 m.toNat ++ s = Bytes.ofNatBE 2 n.toNat ++ t ↔ m = n ∧ s = t := by
  rw [List.append_eq_append_iff_of_size_eq_left (by simp),
    Bytes.ofNatBE_inj m.toNat_lt n.toNat_lt, UInt16.toNat_inj]

theorem forgeAmount_append_inj {m n : UInt64} :
    forgeAmount m ++ s = forgeAmount n ++ t ↔ m = n ∧ s = t := by
  rw [forgeAmount, forgeAmount, Zarith.encodeNatural_append_inj, UInt64.toNat_inj]

/-! ### Accounts and keys -/

theorem Curve.tag_inj {c d : Curve} : c.tag = d.tag ↔ c = d := by
  cases c <;> cases d <;> simp [Curve.tag]

theorem PublicKey.forge_append_inj {k l : PublicKey} :
    k.forge ++ s = l.forge ++ t ↔ k = l ∧ s = t := by
  refine ⟨fun h => ?_, fun ⟨hkey, hst⟩ => hkey ▸ hst ▸ rfl⟩
  obtain ⟨curve, bytes, hlength⟩ := k
  obtain ⟨curve', bytes', hlength'⟩ := l
  simp only [forge, List.cons_append, List.cons.injEq, Curve.tag_inj] at h
  obtain ⟨rfl, h⟩ := h
  obtain ⟨rfl, rfl⟩ := List.append_inj h (hlength.trans hlength'.symm)
  exact ⟨rfl, rfl⟩

theorem Address.forgeContract_append_inj {a b : Address} :
    a.forgeContract ++ s = b.forgeContract ++ t ↔ a = b ∧ s = t := by
  cases a <;> cases b <;>
    simp [forgeContract, FixedBytes.toBytes_append_inj, Curve.tag_inj, and_assoc]

/-! ### Evidence -/

theorem InlinedEndorsement.forge_append_inj {a b : InlinedEndorsement} :
    a.forge ++ s = b.forge ++ t ↔ a = b ∧ s = t := by
  obtain ⟨branch, level, signature⟩ := a
  obtain ⟨branch', level', signature'⟩ := b
  simp only [forge, List.append_assoc, FixedBytes.toBytes_append_inj, List.append_cancel_left_eq,
    forgeInt32_append_inj, InlinedEndorsement.mk.injEq, and_assoc]

theorem flagged_append_inj {n : Nat} {v w : Option (FixedBytes n)} :
    flagged (v.map FixedBytes.toBytes) ++ s = flagged (w.map FixedBytes.toBytes) ++ t ↔
      v = w ∧ s = t := by
  cases v <;> cases w <;>
    simp [flagged, presentFlag, absentFlag, FixedBytes.toBytes_append_inj]

theorem length_lt_of_mem_flatMap_frame {xs : List Bytes} {x : Bytes} (hx : x ∈ xs)
    (hlt : (xs.flatMap frame).length < 2 ^ 32) : x.length < 2 ^ 32 := by
  obtain ⟨before, after, rfl⟩ := List.append_of_mem hx
  simp only [List.flatMap_append, List.flatMap_cons, List.length_append, frame] at hlt
  omega

/-- Fitness components stand behind their lengths, and all of them behind the total length. -/
theorem fitness_append_inj {xs ys : List Bytes} (hxs : (xs.flatMap frame).length < 2 ^ 32)
    (hys : (ys.flatMap frame).length < 2 ^ 32) :
    frame (xs.flatMap frame) ++ s = frame (ys.flatMap frame) ++ t ↔ xs = ys ∧ s = t := by
  rw [frame_append_inj hxs hys]
  refine and_congr_left fun _ => ⟨Layout.eq_of_flatMap_eq (fun x => ?_) fun x hx y hy s t => ?_,
    congrArg _⟩
  · simp [frame, ← List.length_eq_zero_iff, length_frameLength, frameSize]
  · exact (frame_append_inj (length_lt_of_mem_flatMap_frame hx hxs)
      (length_lt_of_mem_flatMap_frame hy hys)).mp

/-- A block header whose time is cut to the second before. -/
def BlockHeader.wholeSecond (header : BlockHeader) : BlockHeader :=
  { header with timestamp := { header.timestamp with nanoseconds := 0 } }

/-- The bytes of a header do not show the fraction of a second. -/
theorem BlockHeader.forge_eq_of_wholeSecond_eq {a b : BlockHeader}
    (h : a.wholeSecond = b.wholeSecond) : a.forge = b.forge :=
  calc
    a.forge = a.wholeSecond.forge := rfl
    _ = b.wholeSecond.forge := by rw [h]
    _ = b.forge := rfl

/-- The fitness of a block header is not too long for the length in front of it. -/
def BlockHeader.Framable (header : BlockHeader) : Prop :=
  (header.fitness.flatMap frame).length < 2 ^ 32

/-- A header's bytes tell all of it but the fraction of a second. -/
theorem BlockHeader.forge_append_inj {a b : BlockHeader} (ha : a.Framable) (hb : b.Framable) :
    a.forge ++ s = b.forge ++ t ↔ a.wholeSecond = b.wholeSecond ∧ s = t := by
  obtain ⟨level, proto, predecessor, ⟨seconds, nanoseconds⟩, validationPass, operationsHash,
    fitness, context, priority, nonce, seedNonceHash, signature⟩ := a
  obtain ⟨level', proto', predecessor', ⟨seconds', nanoseconds'⟩, validationPass', operationsHash',
    fitness', context', priority', nonce', seedNonceHash', signature'⟩ := b
  simp only [forge, wholeSecond, List.append_assoc, List.cons_append, List.nil_append,
    List.cons.injEq, FixedBytes.toBytes_append_inj, forgeInt32_append_inj,
    Bytes.ofIntBE_append_inj (natAbs_sub_toInt_lt seconds seconds'), Int64.toInt_inj,
    forgeUInt16_append_inj, flagged_append_inj, fitness_append_inj ha hb, BlockHeader.mk.injEq,
    Timestamp.mk.injEq, and_assoc, and_true]

/-! ### Fields without a layout for some values -/

namespace Content

open Layout

variable {kind : Kind} {field : String}

theorem layoutKeyHash_eq_ok_iff {address : Address} {bytes : Bytes} :
    layoutKeyHash kind field address = .ok bytes ↔
      ∃ curve hash, address = .implicit curve hash ∧ bytes = curve.tag :: hash.toBytes := by
  rw [layoutKeyHash, Outcome.mapError_eq_ok_iff]
  cases address <;> simp [Address.forgeKeyHash, eq_comm (a := bytes)]

theorem settles_keyHash (a b : Address) :
    Settles (layoutKeyHash kind field a) (layoutKeyHash kind field b) (a = b) := by
  intro _ _ s t ha hb heq
  obtain ⟨curve, hash, rfl, rfl⟩ := layoutKeyHash_eq_ok_iff.mp ha
  obtain ⟨curve', hash', rfl, rfl⟩ := layoutKeyHash_eq_ok_iff.mp hb
  rw [List.cons_append, List.cons_append, List.cons.injEq, Curve.tag_inj,
    FixedBytes.toBytes_append_inj] at heq
  obtain ⟨rfl, rfl, rfl⟩ := heq
  exact ⟨rfl, rfl⟩

theorem layoutTz1Hash_eq_ok_iff {address : Address} {bytes : Bytes} :
    layoutTz1Hash kind field address = .ok bytes ↔
      ∃ hash, address = .implicit .ed25519 hash ∧ bytes = hash.toBytes := by
  match address with
  | .implicit .ed25519 hash => simp [layoutTz1Hash, eq_comm (a := bytes)]
  | .implicit .secp256k1 _ | .implicit .p256 _ | .originated _ => simp [layoutTz1Hash]

theorem settles_tz1Hash (a b : Address) :
    Settles (layoutTz1Hash kind field a) (layoutTz1Hash kind field b) (a = b) := by
  intro _ _ s t ha hb heq
  obtain ⟨hash, rfl, rfl⟩ := layoutTz1Hash_eq_ok_iff.mp ha
  obtain ⟨hash', rfl, rfl⟩ := layoutTz1Hash_eq_ok_iff.mp hb
  obtain ⟨rfl, rfl⟩ := FixedBytes.toBytes_append_inj.mp heq
  exact ⟨rfl, rfl⟩

theorem settles_amount (m n : UInt64) :
    Settles (.ok (forgeAmount m) : Layout ForgeError) (.ok (forgeAmount n)) (m = n) :=
  settles_ok fun _ _ => forgeAmount_append_inj.mp

theorem settles_int32 (m n : Int32) :
    Settles (.ok (forgeInt32 m) : Layout ForgeError) (.ok (forgeInt32 n)) (m = n) :=
  settles_ok fun _ _ => forgeInt32_append_inj.mp

theorem settles_fixedBytes {n : Nat} (x y : FixedBytes n) :
    Settles (.ok x.toBytes : Layout ForgeError) (.ok y.toBytes) (x = y) :=
  settles_ok fun _ _ => FixedBytes.toBytes_append_inj.mp

theorem settles_manager (m n : ManagerFields) :
    Settles (layoutManager kind m) (layoutManager kind n) (m = n) := by
  have h : Settles (layoutManager kind m) (layoutManager kind n) (m.source = n.source ∧
      m.fee = n.fee ∧ m.counter = n.counter ∧ m.gasLimit = n.gasLimit ∧
        m.storageLimit = n.storageLimit) :=
    (settles_keyHash m.source n.source).append fun _ => (settles_amount m.fee n.fee).append
      fun _ => (settles_amount m.counter n.counter).append fun _ =>
        (settles_amount m.gasLimit n.gasLimit).append fun _ =>
          settles_amount m.storageLimit n.storageLimit
  refine h.imp fun hfields => ?_
  cases m
  cases n
  simpa using hfields

theorem settles_delegate (v w : Option Address) :
    Settles (layoutDelegate kind v) (layoutDelegate kind w) (v = w) := by
  have h : Settles (layoutDelegate kind v) (layoutDelegate kind w) (Option.Rel Eq v w) :=
    settles_optional (by decide) fun a _ b _ => settles_keyHash a b
  refine h.imp fun hrel => ?_
  cases hrel with
  | some hab => rw [hab]
  | none => rfl

theorem settles_tree {m n : Micheline} (hm : m.Framable) (hn : n.Framable) :
    Settles (layoutTree m) (layoutTree n) (m.Alike n) := by
  have h : Settles m.layout n.layout (m.Alike n) := fun _ _ _ _ hx hy =>
    Micheline.layout_unique m n hm hn hx hy
  exact (settles_mapError h).framed

/-- The entrypoints with a byte of their own. -/
theorem entrypointTag?_eq_some_iff {name : String} {tag : UInt8} :
    entrypointTag? name = some tag ↔ (name, tag) ∈ [("default", 0), ("root", 1), ("do", 2),
      ("set_delegate", 3), ("remove_delegate", 4)] := by
  unfold entrypointTag?
  split_ifs <;> simp_all [eq_comm (a := tag)]

theorem entrypointTag?_inj {f g : String} {tag : UInt8} (hf : entrypointTag? f = some tag)
    (hg : entrypointTag? g = some tag) : f = g := by
  simp only [entrypointTag?_eq_some_iff, List.mem_cons, Prod.mk.injEq, List.not_mem_nil,
    or_false] at hf hg
  rcases hf with ⟨rfl, rfl⟩ | ⟨rfl, rfl⟩ | ⟨rfl, rfl⟩ | ⟨rfl, rfl⟩ | ⟨rfl, rfl⟩ <;>
    simpa [eq_comm] using hg

theorem entrypointTag?_ne_some_wide (name : String) : entrypointTag? name ≠ some 0xff := by
  simp [entrypointTag?_eq_some_iff]

theorem layoutEntrypoint_eq_ok_iff {name : String} {bytes : Bytes} :
    layoutEntrypoint kind name = .ok bytes ↔
      (∃ tag, entrypointTag? name = some tag ∧ bytes = [tag]) ∨
        entrypointTag? name = none ∧ 0 < (Bytes.utf8 name).length ∧
          (Bytes.utf8 name).length ≤ longestEntrypoint ∧
            bytes = 0xff :: UInt8.ofNat (Bytes.utf8 name).length :: Bytes.utf8 name := by
  rw [layoutEntrypoint]
  cases entrypointTag? name with
  | some tag => simp [eq_comm (a := bytes)]
  | none => simp [ite_eq_iff, eq_comm (a := bytes), and_assoc]

/-- Entrypoints with a byte of their own never begin as the others do. -/
theorem settles_entrypoint (f g : String) :
    Settles (layoutEntrypoint kind f) (layoutEntrypoint kind g) (f = g) := by
  intro _ _ s t hf hg heq
  -- A name without a byte of its own begins with `ff`, which is the byte of no other.
  rcases layoutEntrypoint_eq_ok_iff.mp hf with ⟨a, hfa, rfl⟩ | ⟨-, -, hfle, rfl⟩ <;>
    rcases layoutEntrypoint_eq_ok_iff.mp hg with ⟨b, hgb, rfl⟩ | ⟨-, -, hgle, rfl⟩
  · obtain ⟨rfl, hst⟩ := List.cons.inj heq
    exact ⟨entrypointTag?_inj hfa hgb, hst⟩
  · obtain ⟨rfl, -⟩ := List.cons.inj heq
    exact absurd hfa (entrypointTag?_ne_some_wide f)
  · obtain ⟨rfl, -⟩ := List.cons.inj heq
    exact absurd hgb (entrypointTag?_ne_some_wide g)
  · simp only [List.cons_append, List.cons.injEq, true_and] at heq
    obtain ⟨hbyte, heq⟩ := heq
    have hlength : (Bytes.utf8 f).length = (Bytes.utf8 g).length := by
      have hlongest : longestEntrypoint = 31 := rfl
      rwa [← UInt8.toNat_inj, Bytes.toNat_byte (by omega), Bytes.toNat_byte (by omega)] at hbyte
    obtain ⟨hname, hst⟩ := List.append_inj heq hlength
    exact ⟨Bytes.utf8_injective hname, hst⟩

end Content

end TezosWallet
