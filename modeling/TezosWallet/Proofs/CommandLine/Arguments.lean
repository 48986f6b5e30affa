import Mathlib.Data.List.TakeDrop
import Mathlib.Data.List.TakeWhile
import TezosWallet.CommandLine.Arguments
import TezosWallet.Proofs.Outcome

/-!
# Options that take a value

The value of an option stands in the argument after it or behind an equals sign. Either way the
option is noted with exactly that text, and reading goes on behind it. Behind an equals sign the
text may be any at all; in an argument of its own it must not look like an option.

## Main definitions

* `Level.Takes` — a level has an option of a name, with a check of its value.
* `Arguments.push` — what has been read, with one more option.
* `attached` — an option with its value in one argument.

## Main results

* `Level.readFrom_separate`, `Level.readFrom_attached` — reading one option.
* `Level.readFrom_map_attached` — reading any number of options.
* `Level.isValue_of_notMem` — texts that do not look like an option.
-/

namespace TezosWallet.CommandLine

/-- What has been read, with one more option. -/
def Arguments.push (arguments : Arguments) (name text : String) : Arguments :=
  { arguments with given := arguments.given ++ [(name, text)] }

/-- An option with its value behind an equals sign. -/
def attached (option : String × String) : String := "--" ++ option.1 ++ "=" ++ option.2

theorem Arguments.has_push (arguments : Arguments) (name text other : String) :
    (arguments.push name text).has other = (arguments.has other || decide (name = other)) := by
  simp [has, push]

theorem Arguments.note_eq_ok {arguments : Arguments} {name : String}
    (hfresh : arguments.has name = false) (text : String) :
    arguments.note name text = .ok (arguments.push name text) := by
  rw [note, hfresh, if_neg Bool.false_ne_true, push]

namespace Level

variable {level : Level} {arguments : Arguments} {name text : String} {valid : String → Bool}

/-- The level has an option of that name, whose value must pass that check. -/
def Takes (level : Level) (name : String) (valid : String → Bool) : Prop :=
  name ≠ "" ∧ '=' ∉ name.toList ∧
    ∃ letter, level.rule? name = some ⟨name, letter, .value valid⟩

/-- A text without dashes does not look like an option. -/
theorem isValue_of_notMem (h : '-' ∉ text.toList) : isValue text = true := by
  rw [isValue]
  split
  · next heq =>
    rw [heq] at h
    exact absurd List.mem_cons_self h
  · rfl

/-! ### Words and attached values -/

theorem bne_equals_of_notMem {word : List Char} (hword : '=' ∉ word) :
    ∀ c ∈ word, (c != '=') = true := by
  intro c hc
  rw [bne_iff_ne]
  rintro rfl
  exact hword hc

theorem splitValue_of_notMem {word : List Char} (hword : '=' ∉ word) :
    splitValue word = (String.ofList word, none) := by
  have hkeep := bne_equals_of_notMem hword
  rw [splitValue, List.span_eq_takeWhile_dropWhile, List.takeWhile_eq_self_iff.mpr hkeep,
    List.dropWhile_eq_nil_iff.mpr hkeep]

theorem splitValue_append {word : List Char} (hword : '=' ∉ word) (value : List Char) :
    splitValue (word ++ '=' :: value) = (String.ofList word, some (String.ofList value)) := by
  have hkeep := bne_equals_of_notMem hword
  rw [splitValue, List.span_eq_takeWhile_dropWhile, List.takeWhile_append_of_pos hkeep,
    List.dropWhile_append_of_pos hkeep]
  simp

theorem readArgument_separate (htakes : level.Takes name valid) (arguments : Arguments) :
    level.readArgument arguments ("--" ++ name) = .ok (arguments, some (name, valid)) := by
  obtain ⟨-, hname, letter, hrule⟩ := htakes
  have htext : ("--" ++ name).toList = '-' :: '-' :: name.toList := String.toList_append ..
  simp only [readArgument, htext, splitValue_of_notMem hname, String.ofList_toList, hrule, apply,
    Outcome.pure_eq_ok]

theorem readArgument_attached (htakes : level.Takes name valid)
    (hfresh : arguments.has name = false) (hvalid : valid text = true) :
    level.readArgument arguments ("--" ++ name ++ "=" ++ text) =
      .ok (arguments.push name text, none) := by
  obtain ⟨-, hname, letter, hrule⟩ := htakes
  have htext : ("--" ++ name ++ "=" ++ text).toList =
      '-' :: '-' :: (name.toList ++ '=' :: text.toList) := by
    simp only [String.toList_append, List.append_assoc]
    rfl
  simp only [readArgument, htext, splitValue_append hname, String.ofList_toList, hrule, apply,
    hvalid, if_true, Arguments.note_eq_ok hfresh, Outcome.ok_bind, Outcome.pure_eq_ok]

/-! ### Reading one option -/

/-- An option whose value is the next argument. -/
theorem readFrom_separate (htakes : level.Takes name valid) (hsub : level.subcommands = [])
    (hfresh : arguments.has name = false) (hvalue : isValue text = true)
    (hvalid : valid text = true) (rest : List String) :
    level.readFrom (arguments, none) (("--" ++ name) :: text :: rest) =
      level.readFrom (arguments.push name text, none) rest := by
  have hdashes : "--" ++ name ≠ "--" := by
    have := htakes.1
    simpa using this
  rw [readFrom, hsub]
  simp only [List.contains_nil, Bool.false_eq_true, if_false, if_neg hdashes,
    readArgument_separate htakes, Outcome.ok_bind]
  simp only [readFrom, hvalue, hvalid, Bool.and_self, if_true, Arguments.note_eq_ok hfresh,
    Outcome.ok_bind]

/-- An option whose value is attached to it. -/
theorem readFrom_attached (htakes : level.Takes name valid) (hsub : level.subcommands = [])
    (hfresh : arguments.has name = false) (hvalid : valid text = true) (rest : List String) :
    level.readFrom (arguments, none) (("--" ++ name ++ "=" ++ text) :: rest) =
      level.readFrom (arguments.push name text, none) rest := by
  have hdashes : "--" ++ name ++ "=" ++ text ≠ "--" := by
    intro heq
    have hlength := congrArg String.length heq
    rw [String.length_append, String.length_append, String.length_append] at hlength
    have hdash : "--".length = 2 := by decide
    have hequals : "=".length = 1 := by decide
    omega
  rw [readFrom, hsub]
  simp only [List.contains_nil, Bool.false_eq_true, if_false, if_neg hdashes,
    readArgument_attached htakes hfresh hvalid, Outcome.ok_bind]

/-- Options whose values are attached to them are noted one after the other, if no two of them are
the same and none has been read before. -/
theorem readFrom_map_attached {options : List (String × String)} (hsub : level.subcommands = [])
    (htakes : ∀ option ∈ options, ∃ valid, level.Takes option.1 valid ∧ valid option.2 = true)
    (hdistinct : (options.map Prod.fst).Nodup)
    (hfresh : ∀ option ∈ options, arguments.has option.1 = false) (rest : List String) :
    level.readFrom (arguments, none) (options.map attached ++ rest) =
      level.readFrom ({ arguments with given := arguments.given ++ options }, none) rest := by
  induction options generalizing arguments with
  | nil => rw [List.map_nil, List.nil_append, List.append_nil]
  | cons option options ih =>
    obtain ⟨valid, hoption, hvalid⟩ := htakes option List.mem_cons_self
    rw [List.map_cons, List.nodup_cons] at hdistinct
    have hlater : ∀ other ∈ options, (arguments.push option.1 option.2).has other.1 = false := by
      intro other hother
      have hne : option.1 ≠ other.1 := fun h =>
        hdistinct.1 (List.mem_map.mpr ⟨other, hother, h.symm⟩)
      rw [Arguments.has_push, hfresh other (List.mem_cons_of_mem _ hother), decide_eq_false hne,
        Bool.or_self]
    rw [List.map_cons, List.cons_append, attached,
      readFrom_attached hoption hsub (hfresh option List.mem_cons_self) hvalid,
      ih (fun other hother => htakes other (List.mem_cons_of_mem _ hother)) hdistinct.2 hlater]
    simp [Arguments.push]

end Level

end TezosWallet.CommandLine
