import TezosWallet.Proofs.Buffer
import TezosWallet.Micheline.Binary

/-!
# The layout of Micheline

The writer of trees fills a buffer in place. What it appends is the layout of the tree: a function
of the tree alone, in which every length stands in front of a finished body.

## Main definitions

* `Micheline.layout` — the bytes of a tree, or the first primitive without opcode.

## Main results

* `Micheline.write_denotes` — writing a tree appends its layout.
* `Micheline.encode_eq_layout` — so the binary form of a tree is its layout.
-/

namespace TezosWallet.Micheline

mutual

/-- The bytes of a tree. -/
def layout : Micheline → Layout MichelineError
  | int value => .ok (intTag :: Zarith.encodeInteger value)
  | string value => .ok (stringTag :: frame (Bytes.utf8 value))
  | bytes value => .ok (bytesTag :: frame value)
  | seq items => .ok [seqTag] ++ (layoutAll items).framed
  | prim name args annots =>
    match opcode? name with
    | none => .error (.unknownPrimitive name)
    | some code =>
      if args.length ≤ 2 then
        .ok [primTag args.length (!annots.isEmpty), code] ++
          (layoutAll args ++ .ok (if annots.isEmpty then [] else frame (joinAnnots annots)))
      else
        .ok [wideTag, code] ++ ((layoutAll args).framed ++ .ok (frame (joinAnnots annots)))

/-- The bytes of trees, one after the other. -/
def layoutAll : List Micheline → Layout MichelineError
  | [] => .ok []
  | item :: rest => layout item ++ layoutAll rest

end

open Writer

mutual

/-- Writing a tree appends its layout. -/
theorem write_denotes : (node : Micheline) → node.write.Denotes node.layout
  | int _ => (denotes_put [intTag]).andThen (denotes_put _)
  | string _ => (denotes_put [stringTag]).andThen (denotes_putFramed _)
  | bytes _ => (denotes_put [bytesTag]).andThen (denotes_putFramed _)
  | seq items => (denotes_put [seqTag]).andThen (writeAll_denotes items).framed
  | prim name args annots => by
    rw [write, layout]
    cases opcode? name with
    | none => exact denotes_fail _
    | some code =>
      have hargs := writeAll_denotes args
      dsimp only
      by_cases harity : args.length ≤ 2
      · have hannots : (if annots.isEmpty = true then Writer.done else
            .putFramed (joinAnnots annots) : Writer MichelineError).Denotes
            (.ok (if annots.isEmpty then [] else frame (joinAnnots annots))) := by
          split
          · exact denotes_done
          · exact denotes_putFramed _
        rw [if_pos harity, if_pos harity]
        exact (denotes_put _).andThen (hargs.andThen hannots)
      · rw [if_neg harity, if_neg harity]
        exact (denotes_put _).andThen (hargs.framed.andThen (denotes_putFramed _))

/-- Writing trees in turn appends their layouts. -/
theorem writeAll_denotes : (items : List Micheline) → (writeAll items).Denotes (layoutAll items)
  | [] => denotes_done
  | item :: rest => by
    rw [writeAll, layoutAll]
    exact (write_denotes item).andThen (writeAll_denotes rest)

end

/-- The binary form of a tree is its layout. -/
theorem encode_eq_layout (node : Micheline) : node.encode = node.layout :=
  (write_denotes node).run_eq

end TezosWallet.Micheline
