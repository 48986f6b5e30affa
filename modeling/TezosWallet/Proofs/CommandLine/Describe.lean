import TezosWallet.Proofs.CommandLine.Arguments
import TezosWallet.Proofs.CommandLine.Run

/-!
# Showing a key

A key is shown from its written secret or from its phrase, with the password in front of it or set
for the session.

## Main definitions

* `showSecret`, `showMnemonic` — the arguments that show a key.
* `keyLines` — the lines that show a key; `shownKey` — the outcome of printing them.

## Main results

* `Command.parse_showSecret`, `Command.parse_showMnemonic` — these arguments are understood.
* `respond_describe` — what is printed where they give a key.
-/

namespace TezosWallet.CommandLine

/-- The arguments that give a password, if there is one. -/
def passwordArguments (password : Option String) : List String :=
  (password.map ("--password=" ++ ·)).toList

/-- The arguments that show the key of a written secret. -/
def showSecret (secret : String) (password : Option String) : List String :=
  "show" :: "--secret" :: secret :: passwordArguments password

/-- The arguments that show the key of a phrase on a curve. -/
def showMnemonic (phrase : String) (curve : Curve) (password : Option String) : List String :=
  "show" :: "--mnemonic" :: phrase :: "--curve" :: curve.name :: passwordArguments password

/-- The lines that show a key. -/
def keyLines (key : Key) : List String := [
  "Curve:      " ++ key.curve.name,
  "Address:    " ++ key.address.toText,
  "Public Key: " ++ key.publicKey.toText]

/-- The outcome of showing a key. -/
def shownKey (key : Key) : Outcome := { code := 0, output := lines (keyLines key) }

namespace Command

theorem parse_show (rest : List String) : parse ("show" :: rest) = parseDescribe rest := by
  have hread : programLevel.read ("show" :: rest) = .ok { subcommand := some ("show", rest) } := rfl
  rw [parse, hread]
  rfl

/-! ### The options of a key -/

variable {arguments : Arguments} {text : String}

theorem describeLevel_takes {name : String} (hname : name ∈ ["secret", "mnemonic", "password"]) :
    describeLevel.Takes name anyText := by
  simp only [List.mem_cons, List.not_mem_nil, or_false] at hname
  rcases hname with rfl | rfl | rfl <;> exact ⟨by decide, by decide, _, rfl⟩

theorem describeLevel_takes_curve : describeLevel.Takes "curve" isCurve :=
  ⟨by decide, by decide, _, rfl⟩

theorem ofName?_name (curve : Curve) : Curve.ofName? curve.name = some curve := by
  cases curve <;> decide +kernel

theorem isCurve_name (curve : Curve) : isCurve curve.name = true := by
  rw [isCurve, ofName?_name, Option.isSome_some]

/-- The name of a curve is read as the curve. -/
theorem curveOf_eq {curve : Curve} (h : arguments.value? "curve" = some curve.name) :
    curveOf arguments = curve := by
  rw [curveOf, h, Option.bind_some, ofName?_name, Option.getD_some]

theorem isValue_name (curve : Curve) : Level.isValue curve.name = true := by
  cases curve <;> decide

theorem read_describeLevel (arguments : List String) :
    describeLevel.read arguments = describeLevel.readFrom ({}, none) arguments := by
  rw [Level.read]
  cases describeLevel.readFrom ({}, none) arguments with
  | error fault => rfl
  | ok result => rfl

theorem readFrom_passwordArguments (hfresh : arguments.has "password" = false)
    (password : Option String) :
    describeLevel.readFrom (arguments, none) (passwordArguments password) =
      .ok (password.elim arguments (arguments.push "password")) := by
  cases password with
  | none => rfl
  | some text =>
    have htakes : describeLevel.Takes "password" anyText := describeLevel_takes (by decide)
    exact Level.readFrom_attached htakes rfl hfresh (rfl : anyText text = true) []

/-- A written secret is understood, if it does not look like an option. -/
theorem parse_showSecret (hvalue : Level.isValue text = true) (password : Option String) :
    parse (showSecret text password) = .ok (.describe ⟨.secret text, password⟩ false false) := by
  have htakes : describeLevel.Takes "secret" anyText := describeLevel_takes (by decide)
  have hread : describeLevel.read ("--secret" :: text :: passwordArguments password) =
      .ok (password.elim (Arguments.push {} "secret" text)
        ((Arguments.push {} "secret" text).push "password")) := by
    rw [read_describeLevel, ← readFrom_passwordArguments rfl]
    exact Level.readFrom_separate htakes rfl rfl hvalue rfl _
  rw [showSecret, parse_show, parseDescribe, hread]
  cases password <;> rfl

/-- A phrase for a curve is understood, if it does not look like an option. -/
theorem parse_showMnemonic (hvalue : Level.isValue text = true) (curve : Curve)
    (password : Option String) :
    parse (showMnemonic text curve password) =
      .ok (.describe ⟨.mnemonic text "" curve, password⟩ false false) := by
  have htakes : describeLevel.Takes "mnemonic" anyText := describeLevel_takes (by decide)
  let given := (Arguments.push {} "mnemonic" text).push "curve" curve.name
  let all := password.elim given (given.push "password")
  have hread : describeLevel.read
      ("--mnemonic" :: text :: "--curve" :: curve.name :: passwordArguments password) =
        .ok all := by
    rw [read_describeLevel, ← readFrom_passwordArguments rfl]
    exact (Level.readFrom_separate htakes rfl rfl hvalue rfl _).trans
      (Level.readFrom_separate describeLevel_takes_curve rfl rfl (isValue_name curve)
        (isCurve_name curve) _)
  have hcurve : curveOf all = curve := curveOf_eq (by cases password <;> rfl)
  have hchoice : keyChoiceOf all = .ok ⟨.mnemonic text "" curve, password⟩ := by
    conv_rhs => rw [← hcurve]
    cases password <;> rfl
  have hflags : all.has "show-secret" = false ∧ all.has "json" = false := by
    cases password <;> exact ⟨rfl, rfl⟩
  rw [showMnemonic, parse_show, parseDescribe, hread, Outcome.ok_bind, hchoice, Outcome.ok_bind,
    hflags.1, hflags.2, Outcome.pure_eq_ok]

end Command

/-! ### What is shown -/

variable {key : Key} {password : Option String} {around : Surroundings}

/-- A choice that gives a key shows it. -/
theorem respond_describe {arguments : List String} {choice : KeyChoice}
    (hparse : Command.parse arguments = .ok (.describe choice false false))
    (hload : choice.load around = .ok (some key)) : respond arguments around = shownKey key := by
  have hrequire : choice.require around = .ok key := by
    rw [KeyChoice.require, hload]
    rfl
  have hrun : Command.run (.describe choice false false) around =
      KeyReport.print ⟨key, none, none⟩ false := by
    rw [Command.run, Command.runDescribe, hrequire, Printing.liftM_eq, Printing.ofResult_ok_bind]
    rfl
  rw [respond_of_ok hparse (by rw [hrun, KeyReport.result_print]), hrun, KeyReport.printed_print]
  rfl

end TezosWallet.CommandLine
