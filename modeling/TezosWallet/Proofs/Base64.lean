import TezosWallet.Proofs.Bytes
import TezosWallet.Proofs.Outcome
import TezosWallet.Proofs.Text.Blank
import TezosWallet.Base64

/-!
# Base64 texts of byte strings

Three bytes are four numbers below sixty-four, and each number has a symbol of its own. So the
padded text of a byte string is read group by group as the byte string, whatever number of bytes
its last group has.

## Main definitions

* `Base64.symbolByte`, `Base64.code` — symbols and texts as bytes.

## Main results

* `Base64.decodeLast_eq_finish` — a last group that is read to its end.
* `Base64.decodeGroups_code` — all groups are read, whatever number of bytes the last one has.
* `Base64.decode_encode` — the text of a byte string is read as the byte string.
* `Base64.isBlank_of_mem_encode` — it has no blanks.
-/

namespace TezosWallet.Base64

/-! ### Symbols -/

/-- The byte of the symbol of a number. -/
def symbolByte (n : Nat) : UInt8 := UInt8.ofNat (symbol n).toNat

/-- The bytes of the text of a byte string. -/
def code (bytes : Bytes) : Bytes := (encodeChars bytes).map fun c => UInt8.ofNat c.toNat

theorem symbol_graphic : ∀ n < 64, 0x20 < (symbol n).toNat ∧ (symbol n).toNat < 128 := by decide

theorem symbolValue?_symbolByte : ∀ n < 64, symbolValue? (symbolByte n) = some n := by decide

theorem symbolByte_ne_pad : ∀ n < 64, symbolByte n ≠ pad := by decide

theorem symbolAt_symbolByte {n : Nat} (hn : n < 64) (offset : Nat) :
    symbolAt (symbolByte n) offset = .ok n := by
  rw [symbolAt, symbolValue?_symbolByte n hn]

/-! ### The last group -/

theorem foldlM_read_symbols {ns : List Nat} (hns : ∀ n ∈ ns, n < 64) (start : Nat)
    (symbols : List (UInt8 × Nat)) :
    (ns.map symbolByte).foldlM (LastGroup.read start) ⟨symbols, 0⟩ =
      .ok ⟨(ns.map fun n => (symbolByte n, n)).reverse ++ symbols, 0⟩ := by
  induction ns generalizing symbols with
  | nil => rfl
  | cons n ns ih =>
    have hn := hns n (by simp)
    have hread : LastGroup.read start ⟨symbols, 0⟩ (symbolByte n) =
        .ok ⟨(symbolByte n, n) :: symbols, 0⟩ := by
      rw [LastGroup.read, if_neg (symbolByte_ne_pad n hn), if_neg (by simp),
        symbolAt_symbolByte hn]
      rfl
    rw [List.map_cons, List.foldlM_cons, hread, Outcome.ok_bind,
      ih fun m hm => hns m (List.mem_cons_of_mem n hm)]
    simp

theorem foldlM_read_pads {symbols : List (UInt8 × Nat)} (hcount : 2 ≤ symbols.length)
    (start pads k : Nat) :
    (List.replicate k pad).foldlM (LastGroup.read start) ⟨symbols, pads⟩ =
      .ok ⟨symbols, pads + k⟩ := by
  induction k generalizing pads with
  | zero => rfl
  | succ k ih =>
    have hread : LastGroup.read start ⟨symbols, pads⟩ pad = .ok ⟨symbols, pads + 1⟩ := by
      rw [LastGroup.read, if_pos rfl, if_neg (by simp only; omega)]
    rw [List.replicate_succ, List.foldlM_cons, hread, Outcome.ok_bind, ih, Nat.add_right_comm,
      Nat.add_assoc]

/-- A last group of symbols and `=` signs behind them is read to its end. -/
theorem decodeLast_eq_finish (ns : List Nat) (hns : ∀ n ∈ ns, n < 64) (hcount : 2 ≤ ns.length)
    (start pads : Nat) :
    decodeLast start (ns.map symbolByte ++ List.replicate pads pad) =
      LastGroup.finish start ⟨(ns.map fun n => (symbolByte n, n)).reverse, pads⟩ := by
  rw [decodeLast, List.foldlM_append, foldlM_read_symbols hns, Outcome.ok_bind, List.append_nil,
    foldlM_read_pads (by simpa using hcount), Outcome.ok_bind, Nat.zero_add]

/-- A text that ends after one byte of a group. -/
theorem decodeLast_code_one (a : UInt8) (start : Nat) : decodeLast start (code [a]) = .ok [a] := by
  have ha := a.toNat_lt
  have hgroup := decodeLast_eq_finish [a.toNat / 4, a.toNat % 4 * 16] (by simp; omega) (by simp)
    start 2
  refine hgroup.trans ?_
  rw [LastGroup.finish, if_neg (by simp), if_neg (by simp)]
  refine (if_neg (by simp)).trans (congrArg Except.ok ?_)
  rw [Bytes.byte_eq (b := a) (by omega)]

/-- A text that ends after two bytes of a group. -/
theorem decodeLast_code_two (a b : UInt8) (start : Nat) :
    decodeLast start (code [a, b]) = .ok [a, b] := by
  have ha := a.toNat_lt
  have hb := b.toNat_lt
  have hgroup := decodeLast_eq_finish
    [a.toNat / 4, a.toNat % 4 * 16 + b.toNat / 16, b.toNat % 16 * 4] (by simp; omega) (by simp)
    start 1
  refine hgroup.trans ?_
  rw [LastGroup.finish, if_neg (by simp), if_neg (by simp)]
  refine (if_neg (by simp)).trans (congrArg Except.ok ?_)
  rw [Bytes.byte_eq (b := a) (by omega), Bytes.byte_eq (b := b) (by omega)]

/-- A text that ends after a whole group. -/
theorem decodeLast_code_three (a b c : UInt8) (start : Nat) :
    decodeLast start (code [a, b, c]) = .ok [a, b, c] := by
  have ha := a.toNat_lt
  have hb := b.toNat_lt
  have hc := c.toNat_lt
  have hgroup := decodeLast_eq_finish [a.toNat / 4, a.toNat % 4 * 16 + b.toNat / 16,
    b.toNat % 16 * 4 + c.toNat / 64, c.toNat % 64] (by simp; omega) (by simp) start 0
  refine hgroup.trans ?_
  rw [LastGroup.finish, if_neg (by simp), if_neg (by simp)]
  refine congrArg Except.ok ?_
  rw [Bytes.byte_eq (b := a) (by omega), Bytes.byte_eq (b := b) (by omega),
    Bytes.byte_eq (b := c) (by omega)]

/-! ### Whole texts -/

theorem decodeGroups_four (start : Nat) (p q r s : UInt8) :
    decodeGroups start [p, q, r, s] = decodeLast start [p, q, r, s] := by
  simp [decodeGroups]

theorem exists_code_eq_cons (a : UInt8) (bytes : Bytes) :
    ∃ p rest, code (a :: bytes) = p :: rest := by
  match bytes with
  | [] | [_] | _ :: _ :: _ => exact ⟨_, _, rfl⟩

/-- The groups of a byte string are read one after the other. -/
theorem decodeGroups_code (bytes : Bytes) (start : Nat) :
    decodeGroups start (code bytes) = .ok bytes := by
  induction bytes using encodeChars.induct generalizing start with
  | case1 => rfl
  | case2 a => exact (decodeGroups_four start ..).trans (decodeLast_code_one a start)
  | case3 a b => exact (decodeGroups_four start ..).trans (decodeLast_code_two a b start)
  | case4 a b c rest ih =>
    have ha := a.toNat_lt
    have hb := b.toNat_lt
    have hc := c.toNat_lt
    match rest with
    | [] => exact (decodeGroups_four start ..).trans (decodeLast_code_three a b c start)
    | d :: rest =>
      -- Another group follows, so this one is read without looking for `=` signs.
      obtain ⟨p, tail, htail⟩ := exists_code_eq_cons d rest
      have hcode : code (a :: b :: c :: d :: rest) = symbolByte (a.toNat / 4) ::
          symbolByte (a.toNat % 4 * 16 + b.toNat / 16) ::
          symbolByte (b.toNat % 16 * 4 + c.toNat / 64) :: symbolByte (c.toNat % 64) ::
          code (d :: rest) := rfl
      rw [hcode, htail, decodeGroups, ← htail, ih]
      rw [symbolAt_symbolByte (by omega), Outcome.ok_bind, symbolAt_symbolByte (by omega),
        Outcome.ok_bind, symbolAt_symbolByte (by omega), Outcome.ok_bind,
        symbolAt_symbolByte (by omega), Outcome.ok_bind, Outcome.ok_bind]
      rw [Bytes.byte_eq (b := a) (by omega), Bytes.byte_eq (b := b) (by omega),
        Bytes.byte_eq (b := c) (by omega)]
      rfl

theorem length_code (bytes : Bytes) : (code bytes).length % 4 = 0 := by
  rw [code, List.length_map]
  induction bytes using encodeChars.induct with
  | case1 | case2 | case3 => simp [encodeChars]
  | case4 a b c rest ih =>
    simp only [encodeChars, List.length_cons]
    omega

/-- The characters of the text are graphic and ASCII. -/
theorem graphic_of_mem_encodeChars (bytes : Bytes) :
    ∀ c ∈ encodeChars bytes, 0x20 < c.toNat ∧ c.toNat < 128 := by
  have hpad : 0x20 < '='.toNat ∧ '='.toNat < 128 := by decide
  induction bytes using encodeChars.induct with
  | case1 => simp [encodeChars]
  | case2 a =>
    have ha := a.toNat_lt
    simp only [encodeChars, List.forall_mem_cons]
    exact ⟨symbol_graphic _ (by omega), symbol_graphic _ (by omega), hpad, hpad, by simp⟩
  | case3 a b =>
    have ha := a.toNat_lt
    have hb := b.toNat_lt
    simp only [encodeChars, List.forall_mem_cons]
    exact ⟨symbol_graphic _ (by omega), symbol_graphic _ (by omega), symbol_graphic _ (by omega),
      hpad, by simp⟩
  | case4 a b c rest ih =>
    have ha := a.toNat_lt
    have hb := b.toNat_lt
    have hc := c.toNat_lt
    simp only [encodeChars, List.forall_mem_cons]
    exact ⟨symbol_graphic _ (by omega), symbol_graphic _ (by omega), symbol_graphic _ (by omega),
      symbol_graphic _ (by omega), ih⟩

theorem utf8_encode (bytes : Bytes) : Bytes.utf8 (encode bytes) = code bytes :=
  Bytes.utf8_ofList fun c hc => (graphic_of_mem_encodeChars bytes c hc).2

/-- The text of a byte string is read as the byte string. -/
theorem decode_encode (bytes : Bytes) : decode (encode bytes) = .ok bytes := by
  rw [decode, utf8_encode]
  cases hlast : (code bytes).getLast? with
  | none =>
    have hnil := List.getLast?_eq_none_iff.mp hlast
    match bytes, hnil with
    | [], _ => rfl
    | a :: rest, hnil =>
      obtain ⟨p, tail, htail⟩ := exists_code_eq_cons a rest
      rw [htail] at hnil
      cases hnil
  | some last =>
    have hlength := length_code bytes
    simp only
    rw [if_neg (by omega), decodeGroups_code]

/-- The text of a byte string has no blanks. -/
theorem isBlank_of_mem_encode {bytes : Bytes} {c : Char} (hc : c ∈ (encode bytes).toList) :
    Text.isBlank c = false := by
  rw [encode, String.toList_ofList] at hc
  obtain ⟨hgraphic, hascii⟩ := graphic_of_mem_encodeChars bytes c hc
  exact Text.isBlank_of_graphic hgraphic hascii

/-- Texts of one to four bytes, the last of which begins a second group. -/
example : [encode [102], encode [102, 111], encode [102, 111, 111], encode [102, 111, 111, 98]] =
    ["Zg==", "Zm8=", "Zm9v", "Zm9vYg=="] := by
  decide

end TezosWallet.Base64
