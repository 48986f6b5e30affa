import TezosWallet.Proofs.Operation.Delimited
import TezosWallet.Sample

/-!
# A forged operation has one reading

The bytes of an operation name its branch and its contents, up to what the layout leaves out: how
the annotations of a tree are split, and the fraction of a second in a block header. The byte of
the kind tells which fields follow, the fields end by themselves, and so do the contents.

## Main definitions

* `Content.Alike` — equal up to what the layout leaves out.
* `Content.Framable` — no body is too long for the length in front of it.

## Main results

* `Content.settles_layout`, `Content.layout_eq_of_alike` — the bytes of a content tell it up to
  likeness, and tell no more.
* `ForgedOperation.bytes_eq_iff` — operations have the same bytes exactly if they are on the same
  branch and have alike contents.
-/

namespace TezosWallet

/-- Calls of one entrypoint with alike values. -/
def Parameters.Alike (a b : Parameters) : Prop :=
  a.entrypoint = b.entrypoint ∧ a.value.Alike b.value

namespace Content

/-- Equal, except that annotations may be split otherwise and that block headers may differ in the
fraction of a second. -/
inductive Alike : Content → Content → Prop
  | same (content : Content) : Alike content content
  | evidence {a b a' b' : BlockHeader} (h₁ : a.wholeSecond = a'.wholeSecond)
      (h₂ : b.wholeSecond = b'.wholeSecond) :
      Alike (.doubleBakingEvidence a b) (.doubleBakingEvidence a' b')
  | call {manager : ManagerFields} {amount : UInt64} {destination : Address} {a b : Parameters}
      (h : a.Alike b) :
      Alike (.transaction manager amount destination (some a))
        (.transaction manager amount destination (some b))
  | script {manager : ManagerFields} {balance : UInt64} {delegate : Option Address} {a b : Script}
      (hcode : a.code.Alike b.code) (hstorage : a.storage.Alike b.storage) :
      Alike (.origination manager balance delegate a) (.origination manager balance delegate b)

/-- No list of proposals, fitness or part of a tree is too long for the length in front of it. -/
def Framable : Content → Prop
  | doubleBakingEvidence bh1 bh2 => bh1.Framable ∧ bh2.Framable
  | proposals _ _ protocols => (protocols.flatMap FixedBytes.toBytes).length < 2 ^ 32
  | transaction _ _ _ parameters => ∀ call ∈ parameters, call.value.Framable
  | origination _ _ _ script => script.code.Framable ∧ script.storage.Framable
  | _ => True

open Layout

theorem settles_parameters {kind : Kind} {v w : Option Parameters}
    (hv : ∀ call ∈ v, call.value.Framable) (hw : ∀ call ∈ w, call.value.Framable) :
    Settles (layoutParameters kind v) (layoutParameters kind w)
      (Option.Rel Parameters.Alike v w) :=
  settles_optional (by decide) fun a ha b hb =>
    (settles_entrypoint a.entrypoint b.entrypoint).append fun _ => settles_tree (hv a ha) (hw b hb)

theorem settles_protocols {xs ys : List (FixedBytes 32)}
    (hxs : (xs.flatMap FixedBytes.toBytes).length < 2 ^ 32)
    (hys : (ys.flatMap FixedBytes.toBytes).length < 2 ^ 32) :
    Settles (.ok (frame (xs.flatMap FixedBytes.toBytes)) : Layout ForgeError)
      (.ok (frame (ys.flatMap FixedBytes.toBytes))) (xs = ys) := by
  refine settles_ok fun s t heq => ?_
  obtain ⟨hflat, hst⟩ := (frame_append_inj hxs hys).mp heq
  refine ⟨eq_of_flatMap_eq (fun x hnil => ?_) (fun x _ y _ s t => ?_) hflat, hst⟩
  · have hlength := x.length_toBytes
    rw [hnil] at hlength
    cases hlength
  · exact FixedBytes.toBytes_append_inj.mp

theorem settles_vote (v w : Vote) :
    Settles (.ok [v.byte] : Layout ForgeError) (.ok [w.byte]) (v = w) :=
  settles_byte (by cases v <;> cases w <;> simp [Vote.byte])

theorem settles_kind (k l : Kind) :
    Settles (.ok [k.tag] : Layout ForgeError) (.ok [l.tag]) (k = l) :=
  settles_byte (by cases k <;> cases l <;> simp [Kind.tag])

/-- The fields of contents of one kind tell the contents. -/
theorem settles_fields {c d : Content} (hc : c.Framable) (hd : d.Framable)
    (hkind : c.kind = d.kind) : Settles c.layoutFields d.layoutFields (c.Alike d) := by
  cases c <;> cases d <;> cases hkind
  case endorsement level level' =>
    exact (settles_int32 level level').imp fun h => h ▸ .same _
  case seedNonceRevelation level nonce level' nonce' =>
    refine ((settles_int32 level level').append fun _ => settles_fixedBytes nonce nonce').imp ?_
    rintro ⟨rfl, rfl⟩
    exact .same _
  case doubleEndorsementEvidence op1 op2 op1' op2' =>
    refine (settles_frames (fun _ _ => InlinedEndorsement.forge_append_inj.mp)
      fun _ _ => InlinedEndorsement.forge_append_inj.mp).imp ?_
    rintro ⟨rfl, rfl⟩
    exact .same _
  case doubleBakingEvidence bh1 bh2 bh1' bh2' =>
    exact (settles_frames (fun _ _ => (BlockHeader.forge_append_inj hc.1 hd.1).mp)
      fun _ _ => (BlockHeader.forge_append_inj hc.2 hd.2).mp).imp fun h => .evidence h.1 h.2
  case activateAccount pkh secret pkh' secret' =>
    refine ((settles_tz1Hash pkh pkh').append fun _ => settles_fixedBytes secret secret').imp ?_
    rintro ⟨rfl, rfl⟩
    exact .same _
  case proposals source period protocols source' period' protocols' =>
    refine ((settles_keyHash source source').append fun _ =>
      (settles_int32 period period').append fun _ => settles_protocols hc hd).imp ?_
    rintro ⟨rfl, rfl, rfl⟩
    exact .same _
  case ballot source period protocol vote source' period' protocol' vote' =>
    refine ((settles_keyHash source source').append fun _ =>
      (settles_int32 period period').append fun _ =>
        (settles_fixedBytes protocol protocol').append fun _ => settles_vote vote vote').imp ?_
    rintro ⟨rfl, rfl, rfl, rfl⟩
    exact .same _
  case reveal manager key manager' key' =>
    refine ((settles_manager manager manager').append fun _ =>
      settles_ok fun _ _ => PublicKey.forge_append_inj.mp).imp ?_
    rintro ⟨rfl, rfl⟩
    exact .same _
  case transaction manager amount destination call manager' amount' destination' call' =>
    refine ((settles_manager manager manager').append fun _ =>
      (settles_amount amount amount').append fun _ =>
        (settles_ok fun _ _ => Address.forgeContract_append_inj.mp).append fun _ =>
          settles_parameters hc hd).imp ?_
    rintro ⟨rfl, rfl, rfl, hcall | _⟩
    · exact .call hcall
    · exact .same _
  case origination manager balance delegate script manager' balance' delegate' script' =>
    refine ((settles_manager manager manager').append fun _ =>
      (settles_amount balance balance').append fun _ =>
        (settles_delegate delegate delegate').append fun _ =>
          (settles_tree hc.1 hd.1).append fun _ => settles_tree hc.2 hd.2).imp ?_
    rintro ⟨rfl, rfl, rfl, hcode, hstorage⟩
    exact .script hcode hstorage
  case delegation manager delegate manager' delegate' =>
    refine ((settles_manager manager manager').append fun _ =>
      settles_delegate delegate delegate').imp ?_
    rintro ⟨rfl, rfl⟩
    exact .same _

/-- Contents end by themselves, and their bytes tell them up to likeness. -/
theorem settles_layout {c d : Content} (hc : c.Framable) (hd : d.Framable) :
    Settles c.layout d.layout (c.Alike d) :=
  ((settles_kind c.kind d.kind).append (settles_fields hc hd)).imp And.right

theorem layout_ne_nil (content : Content) : content.layout ≠ .ok [] := by
  intro h
  obtain ⟨_, ⟨⟩, _, -, hnil⟩ := append_eq_ok_iff.mp h
  cases hnil

theorem layoutTree_eq_of_alike {m n : Micheline} (h : m.Alike n) : layoutTree m = layoutTree n := by
  rw [layoutTree, layoutTree, Micheline.layout_eq_of_alike h]

theorem layoutParameters_eq_of_alike {kind : Kind} {a b : Parameters} (h : a.Alike b) :
    layoutParameters kind (some a) = layoutParameters kind (some b) := by
  change _ ++ (layoutEntrypoint kind a.entrypoint ++ layoutTree a.value) =
    _ ++ (layoutEntrypoint kind b.entrypoint ++ layoutTree b.value)
  rw [h.1, layoutTree_eq_of_alike h.2]

/-- Alike contents have the same layout. -/
theorem layout_eq_of_alike {c d : Content} (h : c.Alike d) : c.layout = d.layout := by
  cases h with
  | same => rfl
  | evidence h₁ h₂ =>
    simp only [layout, layoutFields, BlockHeader.forge_eq_of_wholeSecond_eq h₁,
      BlockHeader.forge_eq_of_wholeSecond_eq h₂]
    rfl
  | call h =>
    simp only [layout, layoutFields, kind, layoutParameters_eq_of_alike h]
  | script hcode hstorage =>
    simp only [layout, layoutFields, layoutTree_eq_of_alike hcode, layoutTree_eq_of_alike hstorage]
    rfl

end Content

namespace ForgedOperation

/-- Operations that can be forged have the same bytes exactly if they are on the same branch and
have alike contents in the same order. -/
theorem bytes_eq_iff {branch branch' : String} {contents contents' : List Content}
    {operation operation' : ForgedOperation}
    (h : ofContents branch contents = .ok operation)
    (h' : ofContents branch' contents' = .ok operation')
    (hframable : ∀ content ∈ contents, content.Framable)
    (hframable' : ∀ content ∈ contents', content.Framable) :
    operation.bytes = operation'.bytes ↔
      branch = branch' ∧ List.Forall₂ Content.Alike contents contents' := by
  obtain ⟨hash, rfl, bytes, hbytes, heq⟩ := ofContents_eq_ok_iff.mp h
  obtain ⟨hash', rfl, bytes', hbytes', heq'⟩ := ofContents_eq_ok_iff.mp h'
  rw [heq, heq', FixedBytes.toBytes_append_inj]
  constructor
  · rintro ⟨rfl, rfl⟩
    exact ⟨rfl, Layout.forall₂_of_each_eq Content.layout_ne_nil (fun c hc d hd =>
      Content.settles_layout (hframable c hc) (hframable' d hd)) hbytes hbytes'⟩
  · rintro ⟨hbranch, halike⟩
    have hsame := Layout.each_eq_of_forall₂ (halike.imp fun _ _ => Content.layout_eq_of_alike)
    rw [hbytes, hbytes', Except.ok.injEq] at hsame
    exact ⟨FixedBytes.ext (Base58Check.encode_inj.mp hbranch), hsame⟩

/-- A call of the sample contract with an annotated pair. -/
def annotatedCall (annots : List String) : Content :=
  .transaction (Sample.manager 1283 7 10307 0) 20000000000 Sample.contract
    (some ⟨"do", .prim "Pair" [.prim "Unit" [] annots, .int 10] []⟩)

/-- Whether a text is one annotation or two is not seen in a forged call. -/
theorem bytes_eq_iff_annotatedCall :
    let branch := Base58Check.encode Version.blockHash.bytes (List.replicate 32 0)
    ∃ operation operation',
      ofContents branch [annotatedCall ["%a", "%b"]] = .ok operation ∧
        ofContents branch [annotatedCall ["%a %b"]] = .ok operation' ∧
        (∀ annots ∈ [["%a", "%b"], ["%a %b"]], (annotatedCall annots).Framable) ∧
        operation.bytes = operation'.bytes := by
  intro branch
  have hframable : ∀ annots ∈ [["%a", "%b"], ["%a %b"]], (annotatedCall annots).Framable := by
    simp [annotatedCall, Content.Framable, Micheline.Framable, Micheline.FramableAll]
    decide
  have halike : (annotatedCall ["%a", "%b"]).Alike (annotatedCall ["%a %b"]) :=
    .call ⟨rfl, .prim (.cons (.prim .nil (by simp) (by simp)) (.cons (.int 10) .nil)) rfl (by simp)⟩
  have h : ofContents branch [annotatedCall ["%a", "%b"]] = .ok ⟨_⟩ :=
    ofContents_eq_ok_iff.mpr ⟨⟨List.replicate 32 0, rfl⟩, rfl, _, rfl, rfl⟩
  have h' : ofContents branch [annotatedCall ["%a %b"]] = .ok ⟨_⟩ :=
    ofContents_eq_ok_iff.mpr ⟨⟨List.replicate 32 0, rfl⟩, rfl, _, rfl, rfl⟩
  refine ⟨_, _, h, h', hframable, (bytes_eq_iff h h' ?_ ?_).mpr ⟨rfl, .cons halike .nil⟩⟩
  · exact List.forall_mem_singleton.mpr (hframable _ (by simp))
  · exact List.forall_mem_singleton.mpr (hframable _ (by simp))

end ForgedOperation

end TezosWallet
