import TezosWallet.Proofs.CommandLine.Generate
import TezosWallet.Proofs.Hex
import TezosWallet.Proofs.Identifier
import TezosWallet.Proofs.Operation.Signing

/-!
# Forging from the command line

A run that forges does three things in order: it forges the contents, then it looks for a key, and
with a key it signs. So contents that cannot be forged are reported alike whatever is given as a
key, and contents that can be forged are printed alike. Nothing is printed before everything is
done. What is printed with a key belongs together: the signed bytes are the forged ones and those
of the signature, and the hash is theirs.

## Main definitions

* `forgeArguments` — the arguments that forge contents on a branch, with a key or without.
* `Command.forgeContents`, `Command.printForged` — the two halves of a run.
* `signedReport` — the lines that are printed with a key; `Coherent` — they belong together.

## Main results

* `Command.parse_forgeArguments` — the arguments are understood, whatever is given as a key.
* `Command.runForge_eq` — a run is its two halves.
* `respond_eq_forging_failed_iff` — contents that cannot be forged.
* `coherent_of_printForged` — what is printed with a key.
* `forge_coherent` — all of this for the outcomes of arguments.
-/

namespace TezosWallet.CommandLine

/-! ### Arguments -/

/-- The options that give a choice of a key. -/
def KeyChoice.options (choice : KeyChoice) : List (String × String) :=
  (match choice.source with
    | .absent => []
    | .secret text => [("secret", text)]
    | .mnemonic phrase email curve =>
      [("mnemonic", phrase), ("email", email), ("curve", curve.name)]) ++
    (choice.password.map (("password", ·))).toList

/-- The arguments that forge contents on a branch, with a choice of a key. -/
def forgeArguments (branch contents : String) (choice : KeyChoice) : List String :=
  "forge" :: ((("branch", branch) :: choice.options).map attached ++ ["--", contents])

namespace Command

theorem parse_forge (rest : List String) : parse ("forge" :: rest) = parseForge rest := by
  have hread : programLevel.read ("forge" :: rest) = .ok { subcommand := some ("forge", rest) } :=
    rfl
  rw [parse, hread]
  rfl

theorem forgeLevel_takes {name : String}
    (hname : name ∈ ["branch", "secret", "mnemonic", "email", "password"]) :
    forgeLevel.Takes name anyText := by
  simp only [List.mem_cons, List.not_mem_nil, or_false] at hname
  rcases hname with rfl | rfl | rfl | rfl | rfl <;> exact ⟨by decide, by decide, _, rfl⟩

theorem forgeLevel_takes_curve : forgeLevel.Takes "curve" isCurve :=
  ⟨by decide, by decide, _, rfl⟩

/-- The level takes the options of every choice, with their values. -/
theorem forgeLevel_takes_options (branch : String) (choice : KeyChoice) :
    ∀ option ∈ ("branch", branch) :: choice.options,
      ∃ valid, forgeLevel.Takes option.1 valid ∧ valid option.2 = true := by
  have htext (name text : String)
      (hname : name ∈ ["branch", "secret", "mnemonic", "email", "password"]) :
      ∃ valid, forgeLevel.Takes name valid ∧ valid text = true :=
    ⟨anyText, forgeLevel_takes hname, rfl⟩
  obtain ⟨source, password⟩ := choice
  simp only [KeyChoice.options, List.forall_mem_cons, List.forall_mem_append]
  refine ⟨htext "branch" branch (by decide), ?_, ?_⟩
  · cases source with
    | absent => nofun
    | secret text => exact List.forall_mem_singleton.mpr (htext "secret" text (by decide))
    | mnemonic phrase email curve =>
      simp only [List.forall_mem_cons]
      exact ⟨htext "mnemonic" phrase (by decide), htext "email" email (by decide),
        ⟨isCurve, forgeLevel_takes_curve, isCurve_name curve⟩, nofun⟩
  · cases password with
    | none => nofun
    | some text => exact List.forall_mem_singleton.mpr (htext "password" text (by decide))

theorem nodup_options (branch : String) (choice : KeyChoice) :
    ((("branch", branch) :: choice.options).map Prod.fst).Nodup := by
  obtain ⟨source, password⟩ := choice
  cases source <;> cases password <;> simp [KeyChoice.options]

/-- The options of a choice are read as the choice. -/
theorem keyChoiceOf_options (branch contents : String) (choice : KeyChoice) :
    keyChoiceOf { given := ("branch", branch) :: choice.options, operands := [contents] } =
      .ok choice := by
  obtain ⟨source, password⟩ := choice
  cases source with
  | absent => cases password <;> rfl
  | secret text => cases password <;> rfl
  | mnemonic phrase email curve =>
    let all : Arguments :=
      { given := ("branch", branch) :: KeyChoice.options ⟨.mnemonic phrase email curve, password⟩,
        operands := [contents] }
    have hcurve : curveOf all = curve := curveOf_eq (by cases password <;> rfl)
    conv_rhs => rw [← hcurve]
    cases password <;> rfl

/-- The arguments are understood, whatever is given as a key. -/
theorem parse_forgeArguments (branch contents : String) (choice : KeyChoice) :
    parse (forgeArguments branch contents choice) =
      .ok (.forge branch (Input.ofArgument contents) choice) := by
  let all : Arguments :=
    { given := ("branch", branch) :: choice.options, operands := [contents] }
  have hread : readOperand forgeLevel
      ((("branch", branch) :: choice.options).map attached ++ ["--", contents]) =
        .ok (all, contents) := by
    rw [readOperand, Level.read, Level.readFrom_map_attached rfl
      (forgeLevel_takes_options branch choice) (nodup_options branch choice) fun _ _ => rfl]
    rfl
  have hbranch : all.value? "branch" = some branch := rfl
  have hchoice : keyChoiceOf all = .ok choice := keyChoiceOf_options branch contents choice
  rw [forgeArguments, parse_forge, parseForge, hread, Outcome.ok_bind]
  simp only [hbranch, hchoice, Outcome.ok_bind, Outcome.pure_eq_ok]

/-! ### The two halves of a run -/

/-- Forges the contents of a command. The key does not come into it. -/
def forgeContents (branch : String) (contents : Input) (around : Surroundings) :
    Except CommandError ForgedOperation := do
  let contents ← (around.read contents).mapError .input
  (ForgedOperation.ofJson branch contents).mapError .forging

end Command

/-- The lines that are printed with a key. -/
def signedReport (forged signature signed hash : String) : String := lines [
  "Forged:    " ++ forged, "Signature: " ++ signature, "Signed:    " ++ signed,
  "Hash:      " ++ hash]

/-- What is printed of an operation that has been forged: its signature as well, if there is a
key. -/
def Command.printForged (choice : KeyChoice) (around : Surroundings) (forged : ForgedOperation) :
    Printing CommandError Unit := do
  match ← choice.load around with
  | none => Printing.line forged.toHex
  | some key =>
    let signed ← (forged.sign key).mapError CommandError.signing
    Printing.line ("Forged:    " ++ forged.toHex)
    Printing.line ("Signature: " ++ signed.signature.toText)
    Printing.line ("Signed:    " ++ signed.toHex)
    Printing.line ("Hash:      " ++ signed.hash)

variable {arguments : List String} {branch : String} {contents : Input}
  {choice : KeyChoice} {around : Surroundings} {forged : ForgedOperation} {fault : CommandError}
  {key : Key}

/-- The contents are forged before the key is looked at. -/
theorem Command.runForge_eq (branch : String) (contents : Input) (choice : KeyChoice)
    (around : Surroundings) : runForge branch contents choice around =
      Printing.ofResult (forgeContents branch contents around) >>= printForged choice around := by
  rw [runForge, forgeContents]
  cases around.read contents with
  | error cause => rfl
  | ok text =>
    simp only [Outcome.mapError_ok, Outcome.ok_bind, Printing.liftM_eq, Printing.ofResult_ok_bind]
    rfl

/-! ### Trouble with a key -/

/-- The error is about a key. -/
inductive CommandError.OfKey : CommandError → Prop
  | loading (cause : KeyError) : OfKey (.loading cause)
  | lockedSecret : OfKey .lockedSecret
  | signing (cause : KeyError) : OfKey (.signing cause)

/-- Errors about a key are not worded like those of forging. -/
theorem CommandError.OfKey.message_ne (h : fault.OfKey) (complaint : String → String)
    (text : String) : fault.message complaint ≠ "Forging failed: " ++ text := by
  have hfront (front rest : String) (hlength : 2 ≤ front.toList.length)
      (hne : front.toList.take 2 ≠ ['F', 'o']) : front ++ rest ≠ "Forging failed: " ++ text := by
    intro heq
    have htake := congrArg (fun message => message.toList.take 2) heq
    simp only [String.toList_append, List.take_append_of_le_length hlength] at htake
    exact hne htake
  cases h with
  | loading cause => exact hfront "Failed to load key: " _ (by decide) (by decide)
  | lockedSecret =>
    exact hfront "An encrypted secret needs --password or TZFORGE_PASSWORD" ""
      (by decide) (by decide)
  | signing cause => exact hfront "Signing failed: " _ (by decide) (by decide)

/-- A key that does not load is an error about it. -/
theorem ofKey_of_load (h : choice.load around = .error fault) : fault.OfKey := by
  have hread {x : Except KeyError Key}
      (h : (x.mapError CommandError.loading >>= fun key => pure (some key)) = .error fault) :
      fault.OfKey := by
    cases x with
    | ok key => cases h
    | error cause =>
      cases h
      exact .loading cause
  rw [KeyChoice.load] at h
  split at h
  · cases h
  · split at h
    · split at h
      · cases h
        exact .lockedSecret
      · exact hread h
    · exact hread h
  · exact hread h

/-- Once the contents are forged, what goes wrong is the key. -/
theorem ofKey_of_printForged
    (h : (Command.printForged choice around forged).result = .error fault) : fault.OfKey := by
  rw [Command.printForged, Printing.liftM_eq] at h
  cases hload : choice.load around with
  | error cause =>
    rw [hload] at h
    cases h
    exact ofKey_of_load hload
  | ok loaded =>
    rw [hload, Printing.ofResult_ok_bind] at h
    cases loaded with
    | none => cases h
    | some key =>
      cases hsign : forged.sign key with
      | ok signed =>
        simp only [hsign] at h
        cases h
      | error cause =>
        simp only [hsign] at h
        cases h
        exact .signing cause

/-- Only the choice of no key gives none. -/
theorem source_eq_absent_of_load (h : choice.load around = .ok none) :
    choice.source = .absent := by
  have hread {x : Except CommandError Key}
      (h : (x >>= fun key => pure (some key)) = .ok none) : False := by
    obtain ⟨key, -, hnone⟩ := Outcome.bind_eq_ok_iff.mp h
    cases hnone
  rw [KeyChoice.load] at h
  split at h
  · assumption
  · split at h
    · split at h
      · cases h
      · exact (hread h).elim
    · exact (hread h).elim
  · exact (hread h).elim

/-! ### What is printed with a key -/

/-- The texts that are printed of an operation and its signature belong together. -/
structure Coherent (key : Key) (forged signature signed hash : String) : Prop where
  /-- The signature is one of the curve of the key, and its bytes follow the forged ones. -/
  signed_eq : ∃ sig, Signature.ofText signature = .ok sig ∧ sig.curve = key.curve ∧
    signed = forged ++ Hex.encode sig.bytes.toBytes
  /-- The hash is that of the signed bytes. -/
  hash_eq : ∃ bytes, Hex.decode signed = .ok bytes ∧
    hash = Base58Check.encode Version.operationHash.bytes (Blake2b.digest256 bytes).toBytes
  /-- The hash can be told from other identifiers. -/
  hash_tag : Text.hasTag "o" hash = true

theorem coherent_of_sign {signed : SignedOperation} (h : forged.sign key = .ok signed) :
    Coherent key forged.toHex signed.signature.toText signed.toHex signed.hash where
  signed_eq := by
    refine ⟨signed.signature, Signature.ofText_toText _,
      (ForgedOperation.verify_of_sign h).1, ?_⟩
    rw [SignedOperation.toHex, SignedOperation.toBytes, (ForgedOperation.signWith_of_sign h).1,
      Hex.encode_append, ForgedOperation.toHex]
  hash_eq := ⟨signed.toBytes, Hex.decode_of_writes (Hex.writes_encode _), rfl⟩
  hash_tag := Version.hasTag_encode (v := .operationHash) (FixedBytes.length_toBytes _)

/-- A key that signs the operation prints the four lines. -/
theorem printForged_of_sign {signed : SignedOperation} (hload : choice.load around = .ok (some key))
    (hsign : forged.sign key = .ok signed) :
    (Command.printForged choice around forged).result = .ok () ∧
      (Command.printForged choice around forged).printed =
        signedReport forged.toHex signed.signature.toText signed.toHex signed.hash := by
  simp only [Command.printForged, Printing.liftM_eq, hload, hsign, Outcome.mapError_ok,
    Printing.ofResult_ok_bind]
  exact ⟨rfl, by simp [signedReport, lines_cons, lines_nil, String.append_assoc]⟩

/-- With a key, what is printed belongs together. -/
theorem coherent_of_printForged (h : (Command.printForged choice around forged).result = .ok ())
    (hsource : choice.source ≠ .absent) :
    ∃ key signature signed hash, choice.load around = .ok (some key) ∧
      (Command.printForged choice around forged).printed =
        signedReport forged.toHex signature signed hash ∧
      Coherent key forged.toHex signature signed hash := by
  obtain ⟨loaded, hload, hprint⟩ := Printing.result_ofResult_bind_eq_ok_iff.mp h
  cases loaded with
  | none => exact absurd (source_eq_absent_of_load hload) hsource
  | some key =>
    obtain ⟨signed, hsign, -⟩ := Printing.result_ofResult_bind_eq_ok_iff.mp hprint
    have hsign := Outcome.mapError_eq_ok_iff.mp hsign
    exact ⟨key, _, _, _, hload, (printForged_of_sign hload hsign).2, coherent_of_sign hsign⟩

/-! ### Outcomes -/

/-- Whether forging fails, and with which message, does not depend on the choice of a key. -/
theorem respond_eq_forging_failed_iff
    (hparse : Command.parse arguments = .ok (.forge branch contents choice)) (text : String) :
    respond arguments around = failure ("Forging failed: " ++ text) ↔
      ∃ fault, Command.forgeContents branch contents around = .error fault ∧
        fault.message around.complaint = "Forging failed: " ++ text := by
  have hrun : Command.run (.forge branch contents choice) around =
      Printing.ofResult (Command.forgeContents branch contents around) >>=
        Command.printForged choice around :=
    Command.runForge_eq branch contents choice around
  cases hforge : Command.forgeContents branch contents around with
  | error fault =>
    rw [hforge, Printing.ofResult_error_bind] at hrun
    rw [respond_of_error hparse (congrArg Printing.result hrun), failure_injective.eq_iff]
    simp
  | ok forged =>
    rw [hforge, Printing.ofResult_ok_bind] at hrun
    refine iff_of_false (fun hfailed => ?_) (by simp)
    cases hprint : (Command.printForged choice around forged).result with
    | ok done =>
      rw [respond_of_ok hparse (by rw [hrun, hprint])] at hfailed
      cases congrArg Outcome.code hfailed
    | error fault =>
      rw [respond_of_error hparse (by rw [hrun, hprint]), failure_injective.eq_iff] at hfailed
      exact (ofKey_of_printForged hprint).message_ne around.complaint text hfailed

/-- Without a key the forged bytes are the one line that is printed. -/
theorem respond_of_forgeContents {password : Option String}
    (hparse : Command.parse arguments = .ok (.forge branch contents ⟨.absent, password⟩))
    (hforge : Command.forgeContents branch contents around = .ok forged) :
    respond arguments around = { code := 0, output := lines [forged.toHex] } := by
  have hrun : Command.run (.forge branch contents ⟨.absent, password⟩) around =
      Printing.line forged.toHex := by
    rw [Command.run, Command.runForge_eq, hforge, Printing.ofResult_ok_bind]
    rfl
  have hresult : (Command.run (.forge branch contents ⟨.absent, password⟩) around).result =
      .ok () := congrArg Printing.result hrun
  rw [respond_of_ok hparse hresult, hrun, Printing.printed_line, lines_cons, lines_nil,
    String.append_empty]

/-- Arguments that forge are understood whatever is given as a key. If the contents cannot be
forged, the outcome is the same as without a key, down to the message, whether or not the key is a
right one. If a run with a key succeeds, then its first line is the one that is printed without a
key, and the others belong together with it and with the key. A run that fails prints nothing. -/
theorem forge_coherent :
    (∀ branch contents choice, Command.parse (forgeArguments branch contents choice) =
      .ok (.forge branch (Input.ofArgument contents) choice)) ∧
    (∀ (arguments bare : List String) (branch : String) (contents : Input) (choice : KeyChoice)
        (password : Option String) (around : Surroundings),
      Command.parse arguments = .ok (.forge branch contents choice) →
      Command.parse bare = .ok (.forge branch contents ⟨.absent, password⟩) →
      (∀ text, respond arguments around = failure ("Forging failed: " ++ text) ↔
        respond bare around = failure ("Forging failed: " ++ text)) ∧
      (choice.source ≠ .absent → (respond arguments around).code = 0 →
        ∃ key forged signature signed hash, choice.load around = .ok (some key) ∧
          respond bare around = { code := 0, output := lines [forged] } ∧
          respond arguments around =
            { code := 0, output := signedReport forged signature signed hash } ∧
          Coherent key forged signature signed hash)) ∧
    ∀ (arguments : List String) (around : Surroundings),
      (respond arguments around).code = 1 → (respond arguments around).output = "" := by
  refine ⟨Command.parse_forgeArguments, ?_, fun _ _ => output_of_code_eq_one⟩
  intro arguments bare branch contents choice password around hparse hbare
  constructor
  · intro text
    rw [respond_eq_forging_failed_iff hparse, respond_eq_forging_failed_iff hbare]
  · intro hsource hcode
    have hrun := Command.runForge_eq branch contents choice around
    have hresult := result_run_of_code_eq_zero hparse hcode
    obtain ⟨forged, hforge, hprint⟩ := Printing.result_ofResult_bind_eq_ok_iff.mp
      ((congrArg Printing.result hrun).symm.trans hresult)
    obtain ⟨key, signature, signed, hash, hload, hprinted, hcoherent⟩ :=
      coherent_of_printForged hprint hsource
    rw [hforge, Printing.ofResult_ok_bind] at hrun
    refine ⟨key, forged.toHex, signature, signed, hash, hload,
      respond_of_forgeContents hbare hforge, ?_, hcoherent⟩
    rw [respond_of_ok hparse hresult, Command.run, hrun, hprinted]

/-- Surroundings that offer nothing but the arguments themselves. -/
def inlineOnly : Surroundings where
  read := fun
    | .inline text => .ok text
    | .stdin => .error (.stdin "closed")
    | .file path => .error (.missingFile path)
  password := none
  entropy := .constant 7
  complaint := fun _ => "syntax error"

/-- An endorsement in JSON. -/
def endorsementText : String := "\x7b\"kind\":\"endorsement\",\"level\":1\x7d"

/-- An endorsement signed with the sample seed, and contents that are no object beside a secret that
is none. -/
theorem forge_coherent_seedKey :
    let branch := Sample.constantBranch 7
    let signing := forgeArguments branch endorsementText ⟨.secret Sample.seedKey.secretText, none⟩
    let bare := forgeArguments branch endorsementText ⟨.absent, none⟩
    let refused := forgeArguments branch "[7]" ⟨.secret "nonsense", none⟩
    (respond signing inlineOnly).code = 0 ∧
      (∃ forged signature signed hash,
        respond bare inlineOnly = { code := 0, output := lines [forged] } ∧
        respond signing inlineOnly =
          { code := 0, output := signedReport forged signature signed hash } ∧
        Coherent Sample.seedKey forged signature signed hash) ∧
      respond refused inlineOnly =
        failure "Forging failed: JSON error: content must be an object, got 7" ∧
      (respond refused inlineOnly).output = "" := by
  intro branch signing bare refused
  obtain ⟨hparse, hcoherent, hsilent⟩ := forge_coherent
  have hsigning := hparse branch endorsementText ⟨.secret Sample.seedKey.secretText, none⟩
  have hbare := hparse branch endorsementText ⟨.absent, none⟩
  have hload : KeyChoice.load ⟨.secret Sample.seedKey.secretText, none⟩ inlineOnly =
      .ok (some Sample.seedKey) := load_secretText Sample.seedKey none inlineOnly
  have hcode : (respond signing inlineOnly).code = 0 := by
    have hread : Content.parseAll endorsementText = .ok [.endorsement 1] := rfl
    have hforge : Command.forgeContents branch (Input.ofArgument endorsementText) inlineOnly =
        .ok ⟨List.replicate 32 7 ++ [0, 0, 0, 0, 1]⟩ := by
      have hinput : inlineOnly.read (Input.ofArgument endorsementText) =
          .ok endorsementText := rfl
      rw [Command.forgeContents, hinput, Outcome.mapError_ok, Outcome.ok_bind,
        ForgedOperation.ofJson, hread, Outcome.ok_bind, Sample.ofContents_constantBranch,
        Outcome.mapError_ok]
    obtain ⟨signed, hsign⟩ : ∃ signed,
        ForgedOperation.sign ⟨List.replicate 32 7 ++ [0, 0, 0, 0, 1]⟩ Sample.seedKey = .ok signed :=
      ⟨_, rfl⟩
    have hrun : (Command.run (.forge branch (Input.ofArgument endorsementText)
        ⟨.secret Sample.seedKey.secretText, none⟩) inlineOnly).result = .ok () := by
      rw [Command.run, Command.runForge_eq, hforge, Printing.ofResult_ok_bind]
      exact (printForged_of_sign hload hsign).1
    rw [respond_of_ok hsigning hrun]
  have hrefused : respond refused inlineOnly =
      failure "Forging failed: JSON error: content must be an object, got 7" := by
    refine ((hcoherent refused (forgeArguments branch "[7]" ⟨.absent, none⟩) _ _ _ none inlineOnly
      (hparse _ _ _) (hparse _ _ _)).1 "JSON error: content must be an object, got 7").mpr ?_
    decide +kernel
  obtain ⟨key, forged, signature, signed, hash, hkey, hplain, hsigned, htexts⟩ :=
    (hcoherent signing bare _ _ _ none inlineOnly hsigning hbare).2 (by simp) hcode
  obtain rfl : Sample.seedKey = key := Option.some.inj (Except.ok.inj (hload.symm.trans hkey))
  exact ⟨hcode, ⟨forged, signature, signed, hash, hplain, hsigned, htexts⟩, hrefused,
    hsilent _ _ (congrArg Outcome.code hrefused)⟩

end TezosWallet.CommandLine
