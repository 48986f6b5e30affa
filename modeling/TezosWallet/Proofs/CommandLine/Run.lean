import TezosWallet.CommandLine.Run
import TezosWallet.Proofs.Outcome

/-!
# Runs and their outcomes

A run is a chain of steps, some of which may fail and print nothing, while the others print a line
and never fail. All commands take the steps of the first kind before those of the second, so a run
prints all its lines or fails without any.

## Main definitions

* `Printing.PrintsLast` — a run that prints nothing if it fails.
* `failure` — the outcome of a run that fails.

## Main results

* `Printing.exists_printed_bind` — what is printed is never taken back.
* `Printing.printsLast_ofResult_bind` — a step that prints nothing, in front of such a run.
* `KeyReport.printed_print` — what is printed about a key.
* `Command.run_printsLast` — every command prints last.
* `respond_of_ok`, `respond_of_error` — the outcome of a run.
-/

namespace TezosWallet.CommandLine

/-! ### Steps -/

namespace Printing

variable {ε α β : Type}

theorem liftM_eq (result : Except ε α) : (liftM result : Printing ε α) = ofResult result := rfl

@[simp] theorem ofResult_ok_bind (a : α) (next : α → Printing ε β) :
    (ofResult (.ok a) >>= next) = next a :=
  Printing.ext rfl (String.empty_append ..)

@[simp] theorem ofResult_error_bind (fault : ε) (next : α → Printing ε β) :
    (ofResult (.error fault) >>= next) = ofResult (.error fault) := rfl

/-- Something comes of a run that begins with such a step exactly if something comes of both. -/
theorem result_ofResult_bind_eq_ok_iff {result : Except ε α} {next : α → Printing ε β} {b : β} :
    (ofResult result >>= next).result = .ok b ↔ ∃ a, result = .ok a ∧ (next a).result = .ok b := by
  cases result with
  | ok a => simp
  | error fault => exact iff_of_false nofun (by simp)

@[simp] theorem printed_pure (a : α) : (pure a : Printing ε α).printed = "" := rfl

@[simp] theorem printed_line (text : String) :
    (line text : Printing ε Unit).printed = text ++ "\n" := rfl

/-- A line stands in front of what is printed after it. -/
@[simp] theorem printed_line_bind (text : String) (next : Unit → Printing ε α) :
    (line text >>= next).printed = text ++ "\n" ++ (next ()).printed := rfl

/-- What is printed stays printed, whatever comes after it and whether or not that fails. -/
theorem exists_printed_bind (first : Printing ε α) (next : α → Printing ε β) :
    ∃ rest, (first >>= next).printed = first.printed ++ rest := by
  obtain ⟨result, printed⟩ := first
  cases result with
  | ok a => exact ⟨(next a).printed, rfl⟩
  | error fault => exact ⟨"", String.append_empty.symm⟩

/-- The run prints nothing if it fails. -/
def PrintsLast (run : Printing ε α) : Prop := ∀ fault, run.result = .error fault → run.printed = ""

/-- A run that does not fail may print what it wants. -/
theorem PrintsLast.of_ok {run : Printing ε α} {a : α} (h : run.result = .ok a) :
    run.PrintsLast := by
  intro fault hfault
  rw [h] at hfault
  cases hfault

/-- A step that may fail and prints nothing does no harm in front of a run. -/
theorem printsLast_ofResult_bind {result : Except ε α} {next : α → Printing ε β}
    (h : ∀ a, (next a).PrintsLast) : (ofResult result >>= next).PrintsLast := by
  cases result with
  | ok a =>
    rw [ofResult_ok_bind]
    exact h a
  | error fault => exact fun _ _ => rfl

end Printing

theorem lines_nil : lines [] = "" := rfl

theorem lines_cons (text : String) (texts : List String) :
    lines (text :: texts) = text ++ "\n" ++ lines texts := by
  rw [lines, List.map_cons, String.join_cons, lines]

/-! ### Commands -/

open Printing

/-- Printing a report never fails. -/
theorem KeyReport.result_print (report : KeyReport) (json : Bool) :
    (report.print json).result = .ok () := by
  obtain ⟨key, secret, mnemonic⟩ := report
  cases json <;> cases secret <;> cases mnemonic <;> rfl

/-- A report that is not printed as JSON has three lines about the key, and one each for a secret
and a mnemonic. -/
theorem KeyReport.printed_print (report : KeyReport) :
    (report.print false).printed = lines ([
      "Curve:      " ++ report.key.curve.name,
      "Address:    " ++ report.key.address.toText,
      "Public Key: " ++ report.key.publicKey.toText] ++
      (report.secret.map ("Secret Key: " ++ ·)).toList ++
      (report.mnemonic.map ("Mnemonic:   " ++ ·.toText)).toList) := by
  obtain ⟨key, secret, mnemonic⟩ := report
  cases secret <;> cases mnemonic <;>
    simp [print, lines_cons, lines_nil, String.append_assoc]

namespace Command

variable {branch message : String} {contents : Input} {choice : KeyChoice} {around : Surroundings}

theorem runForge_printsLast : (runForge branch contents choice around).PrintsLast := by
  refine printsLast_ofResult_bind fun text => printsLast_ofResult_bind fun forged =>
    printsLast_ofResult_bind fun loaded => ?_
  cases loaded with
  | none => exact .of_ok rfl
  | some key => exact printsLast_ofResult_bind fun signed => .of_ok rfl

theorem runSign_printsLast : (runSign message choice around).PrintsLast :=
  printsLast_ofResult_bind fun _ => printsLast_ofResult_bind fun _ => .of_ok rfl

theorem runDescribe_printsLast {withSecret json : Bool} :
    (runDescribe choice withSecret json around).PrintsLast :=
  printsLast_ofResult_bind fun _ => .of_ok (KeyReport.result_print _ _)

theorem runExpression_printsLast {value : ExpressionKey} :
    (runExpression value around).PrintsLast :=
  printsLast_ofResult_bind fun _ => .of_ok rfl

theorem runGenerate_printsLast {curve : Curve} {words : Option Nat} {encrypted : Bool}
    {password : Option String} :
    (runGenerate curve words encrypted password around).PrintsLast :=
  printsLast_ofResult_bind fun _ => printsLast_ofResult_bind fun _ =>
    .of_ok (KeyReport.result_print _ _)

/-- Every command prints after the last of its steps that may fail. -/
theorem run_printsLast (command : Command) (around : Surroundings) :
    (command.run around).PrintsLast := by
  cases command with
  | forge branch contents key => exact runForge_printsLast
  | sign message key => exact runSign_printsLast
  | describe key withSecret json => exact runDescribe_printsLast
  | expression value => exact runExpression_printsLast
  | generate curve words encrypted password => exact runGenerate_printsLast

end Command

/-! ### Outcomes -/

/-- The outcome of a run that fails with a message and prints nothing. -/
def failure (message : String) : Outcome :=
  { code := 1, diagnostic := lines ["Error: " ++ message] }

theorem failure_injective : Function.Injective failure := by
  intro message message' h
  have hlines : lines ["Error: " ++ message] = lines ["Error: " ++ message'] :=
    congrArg Outcome.diagnostic h
  simpa [lines] using hlines

variable {arguments : List String} {command : Command} {around : Surroundings}

theorem respond_of_ok (hparse : Command.parse arguments = .ok command)
    (hrun : (command.run around).result = .ok ()) :
    respond arguments around = { code := 0, output := (command.run around).printed } := by
  simp only [respond, hparse, hrun]

theorem respond_of_error {fault : CommandError} (hparse : Command.parse arguments = .ok command)
    (hrun : (command.run around).result = .error fault) :
    respond arguments around = failure (fault.message around.complaint) := by
  simp only [respond, hparse, hrun, command.run_printsLast around fault hrun, failure]

/-- A run that exits with zero has not failed. -/
theorem result_run_of_code_eq_zero (hparse : Command.parse arguments = .ok command)
    (hcode : (respond arguments around).code = 0) : (command.run around).result = .ok () := by
  cases hrun : (command.run around).result with
  | ok done => rfl
  | error fault =>
    rw [respond_of_error hparse hrun] at hcode
    cases hcode

/-- A run that fails prints nothing. -/
theorem output_of_code_eq_one (h : (respond arguments around).code = 1) :
    (respond arguments around).output = "" := by
  cases hparse : Command.parse arguments with
  | error halt => cases halt <;> simp [respond, hparse] at h ⊢
  | ok command =>
    cases hrun : (command.run around).result with
    | ok done =>
      rw [respond_of_ok hparse hrun] at h
      cases h
    | error fault => rw [respond_of_error hparse hrun, failure]

end TezosWallet.CommandLine
