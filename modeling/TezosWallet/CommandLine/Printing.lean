/-!
# Runs that print

A command prints line by line, and may fail between two lines. What it has printed by then stays
printed. So a run is told by its result together with all that is printed until it ends.

## Main definitions

* `Printing` — a run, as its result and what it prints.
* `Printing.line` — prints a line.
* `lines` — a text of several lines.
-/

namespace TezosWallet.CommandLine

/-- A run that prints and may fail. -/
@[ext]
structure Printing (ε α : Type) where
  /-- What comes of the run, or why it fails. -/
  result : Except ε α
  /-- What is printed until the run ends. -/
  printed : String

namespace Printing

variable {ε α β : Type}

/-- A step that prints nothing. -/
def ofResult (result : Except ε α) : Printing ε α := ⟨result, ""⟩

/-- Runs one thing and, unless it fails, another thing with what comes of it. -/
def andThen (first : Printing ε α) (next : α → Printing ε β) : Printing ε β :=
  match first.result with
  | .ok a =>
    let second := next a
    ⟨second.result, first.printed ++ second.printed⟩
  | .error fault => ⟨.error fault, first.printed⟩

instance : Monad (Printing ε) where
  pure a := ofResult (.ok a)
  bind := andThen

instance : MonadLift (Except ε) (Printing ε) := ⟨ofResult⟩

/-- Prints a line. -/
def line (text : String) : Printing ε Unit := ⟨.ok (), text ++ "\n"⟩

end Printing

/-- A text of several lines. -/
def lines (texts : List String) : String := String.join (texts.map (· ++ "\n"))

end TezosWallet.CommandLine
