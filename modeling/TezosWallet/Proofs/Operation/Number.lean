import TezosWallet.Proofs.Outcome
import TezosWallet.Proofs.Text.Numeral
import TezosWallet.Operation.Json

/-!
# Numbers in contents

A number comes as a JSON integer or as a plain numeral in a string, and either way it is read as
the number that it is, or not at all: a field of sixty-four bits, of thirty-two with a sign, or of
fewer takes the numbers in its range. Anything else is an error that names the field.

## Main definitions

* `Json.TellsNatural`, `Json.TellsInteger` — the values that tell a number.
* `Fields.Names` — a reader that fails names the field.

## Main results

* `Fields.natural_eq_ok_iff`, `Fields.int32_eq_ok_iff`, `Fields.below_eq_ok_iff` — the fields that
  are read as a number.
* `Fields.natural_names`, `Fields.int32_names`, `Fields.below_names` — the errors of all others.
-/

namespace TezosWallet

/-! ### Values -/

namespace Json

/-- The value holds a natural number, or is a plain numeral of it. -/
inductive TellsNatural (n : Nat) : Json → Prop
  | number : TellsNatural n (.number (.integer n))
  | numeral {text : String} (h : Numeral.WritesNatural text.toList n) :
    TellsNatural n (.string text)

/-- The value holds an integer, or is a plain numeral of it. -/
inductive TellsInteger (z : Int) : Json → Prop
  | number : TellsInteger z (.number (.integer z))
  | numeral {text : String} (h : Numeral.WritesInteger text.toList z) :
    TellsInteger z (.string text)

theorem TellsNatural.tellsInteger {n : Nat} {value : Json} (h : TellsNatural n value) :
    TellsInteger n value := by
  cases h with
  | number => exact .number
  | numeral hwrites => exact .numeral hwrites.writesInteger

theorem TellsInteger.ne_null {z : Int} {value : Json} (h : TellsInteger z value) :
    value ≠ .null := by
  cases h <;> nofun

end Json

open Json

namespace Fields

theorem naturalOf_eq_ok_iff {value : Json} {n : Nat} :
    naturalOf value = .ok n ↔ TellsNatural n value ∧ n < 2 ^ 64 := by
  constructor
  · intro h
    unfold naturalOf at h
    split at h
    · next text =>
      split at h
      · next m hread =>
        split at h
        · next hlt =>
          cases h
          exact ⟨.numeral (Numeral.natural?_eq_some_iff.mp hread), hlt⟩
        · cases h
      · cases h
    · next z =>
      split at h
      · next hrange =>
        cases h
        obtain ⟨m, rfl⟩ := Int.eq_ofNat_of_zero_le hrange.1
        exact ⟨.number, Int.ofNat_lt.mp hrange.2⟩
      · cases h
    · cases h
    · cases h
  · rintro ⟨htells, hlt⟩
    cases htells with
    | number =>
      rw [naturalOf, if_pos ⟨Int.natCast_nonneg n, Int.ofNat_lt.mpr hlt⟩]
      rfl
    | numeral hwrites =>
      simp only [naturalOf, Numeral.natural?_eq_some_iff.mpr hwrites]
      exact if_pos hlt

theorem int32Of_eq_ok_iff {value : Json} {z : Int} :
    int32Of value = .ok z ↔ TellsInteger z value ∧ -2 ^ 31 ≤ z ∧ z < 2 ^ 31 := by
  constructor
  · intro h
    unfold int32Of at h
    split at h
    · next text =>
      split at h
      · next m hread =>
        split at h
        · next hrange =>
          cases h
          exact ⟨.numeral (Numeral.integer?_eq_some_iff.mp hread), hrange⟩
        · cases h
      · cases h
    · next m =>
      split at h
      · next hrange =>
        cases h
        exact ⟨.number, hrange⟩
      · cases h
    · cases h
    · cases h
  · rintro ⟨htells, hrange⟩
    cases htells with
    | number => exact if_pos hrange
    | numeral hwrites =>
      simp only [int32Of, Numeral.integer?_eq_some_iff.mpr hwrites]
      exact if_pos hrange

/-! ### Fields -/

variable {fields : Fields} {field : String}

/-- A field can be read if it is there and not null. -/
theorem get_eq_ok_iff {value : Json} :
    fields.get field = .ok value ↔ lookup field fields.entries = some value ∧ value ≠ .null := by
  rw [get, Outcome.elim_eq_ok_iff, optional]
  cases lookup field fields.entries with
  | none => simp
  | some found =>
    cases found with
    | null => simp +contextual [eq_comm]
    | _ =>
      simp only [Option.some.injEq, iff_self_and]
      rintro rfl
      nofun

theorem nested_eq_ok_iff {inner : Fields} :
    fields.nested field = .ok inner ↔
      ∃ entries, lookup field fields.entries = some (.members entries) ∧
        inner = ⟨fields.kind, entries⟩ := by
  rw [nested, Outcome.bind_eq_ok_iff]
  simp only [get_eq_ok_iff]
  constructor
  · rintro ⟨value, ⟨hlookup, -⟩, h⟩
    split at h
    · next entries =>
      cases h
      exact ⟨entries, hlookup, rfl⟩
    · cases h
  · rintro ⟨entries, hlookup, rfl⟩
    exact ⟨.members entries, ⟨hlookup, nofun⟩, rfl⟩

theorem checked_eq_ok_iff {ε α : Type} {cause : ε → FieldFault} {result : Except ε α} {a : α} :
    fields.checked field cause result = .ok a ↔ result = .ok a :=
  Outcome.mapError_eq_ok_iff

/-- A natural number is read from the values that tell it, if sixty-four bits hold it. -/
theorem natural_eq_ok_iff {n : Nat} :
    fields.natural field = .ok n ↔
      ∃ value, lookup field fields.entries = some value ∧ TellsNatural n value ∧ n < 2 ^ 64 := by
  simp only [natural, Outcome.bind_eq_ok_iff, get_eq_ok_iff, checked_eq_ok_iff, naturalOf_eq_ok_iff]
  constructor
  · rintro ⟨value, ⟨hlookup, -⟩, htells⟩
    exact ⟨value, hlookup, htells⟩
  · rintro ⟨value, hlookup, htells⟩
    exact ⟨value, ⟨hlookup, htells.1.tellsInteger.ne_null⟩, htells⟩

/-- The word of a natural number is the number. -/
theorem uint64_eq_ok_iff {w : UInt64} :
    fields.uint64 field = .ok w ↔ fields.natural field = .ok w.toNat := by
  rw [uint64, Outcome.bind_eq_ok_iff]
  constructor
  · rintro ⟨n, hn, hw⟩
    obtain ⟨-, -, -, hlt⟩ := natural_eq_ok_iff.mp hn
    cases hw
    rwa [UInt64.toNat_ofNat_of_lt' hlt]
  · intro h
    exact ⟨w.toNat, h, by rw [UInt64.ofNat_toNat]; rfl⟩

/-- Fewer bits hold fewer of the natural numbers. -/
theorem below_eq_ok_iff {bound n : Nat} :
    fields.below bound field = .ok n ↔ fields.natural field = .ok n ∧ n < bound := by
  rw [below, Outcome.bind_eq_ok_iff]
  constructor
  · rintro ⟨m, hm, h⟩
    split at h
    · next hlt =>
      cases h
      exact ⟨hm, hlt⟩
    · cases h
  · rintro ⟨hn, hlt⟩
    exact ⟨n, hn, if_pos hlt⟩

/-- An integer is read from the values that tell it, if thirty-two bits hold it. -/
theorem int32_eq_ok_iff {z : Int} :
    (∃ w, fields.int32 field = .ok w ∧ w.toInt = z) ↔
      ∃ value, lookup field fields.entries = some value ∧
        TellsInteger z value ∧ -2 ^ 31 ≤ z ∧ z < 2 ^ 31 := by
  simp only [int32, Outcome.bind_eq_ok_iff, get_eq_ok_iff, checked_eq_ok_iff, int32Of_eq_ok_iff]
  constructor
  · rintro ⟨w, ⟨value, ⟨hlookup, -⟩, m, ⟨htells, hrange⟩, hw⟩, rfl⟩
    cases hw
    rw [Int32.toInt_ofInt_of_le hrange.1 hrange.2]
    exact ⟨value, hlookup, htells, hrange⟩
  · rintro ⟨value, hlookup, htells, hrange⟩
    exact ⟨Int32.ofInt z, ⟨value, ⟨hlookup, htells.ne_null⟩, z, ⟨htells, hrange⟩, rfl⟩,
      Int32.toInt_ofInt_of_le hrange.1 hrange.2⟩

/-! ### Errors -/

/-- Where the result is an error, it is one of the field, in a content of the kind. -/
def Names {α : Type} (fields : Fields) (field : String) (result : Except ForgeError α) : Prop :=
  ∀ fault, result = .error fault → ∃ cause, fault = .invalidField fields.kind field cause

variable {α β : Type}

theorem Names.bind {x : Except ForgeError α} {f : α → Except ForgeError β}
    (hx : fields.Names field x) (hf : ∀ a, fields.Names field (f a)) :
    fields.Names field (x >>= f) := by
  intro fault h
  obtain h | ⟨a, -, h⟩ := Outcome.bind_eq_error_iff.mp h
  · exact hx fault h
  · exact hf a fault h

theorem names_ok (a : α) : fields.Names field (.ok a) := nofun

theorem get_names : fields.Names field (fields.get field) := by
  intro fault h
  rw [get, Outcome.elim_eq_error_iff] at h
  exact ⟨_, h.2⟩

theorem checked_names {ε : Type} (cause : ε → FieldFault) (result : Except ε α) :
    fields.Names field (fields.checked field cause result) := by
  intro fault h
  cases result with
  | ok a => cases h
  | error e =>
    cases h
    exact ⟨_, rfl⟩

theorem natural_names : fields.Names field (fields.natural field) :=
  get_names.bind fun _ => checked_names _ _

theorem uint64_names : fields.Names field (fields.uint64 field) :=
  natural_names.bind fun _ => names_ok _

theorem int32_names : fields.Names field (fields.int32 field) :=
  get_names.bind fun _ => (checked_names _ _).bind fun _ => names_ok _

theorem below_names (bound : Nat) : fields.Names field (fields.below bound field) := by
  refine natural_names.bind fun n => ?_
  split
  · exact names_ok n
  · rintro _ ⟨⟩
    exact ⟨_, rfl⟩

end Fields

end TezosWallet
