import Mathlib.Data.Nat.ModEq
import Mathlib.Tactic.Ring
import TezosWallet.Proofs.Radix
import TezosWallet.Bytes

/-!
# Byte strings, numbers and texts

A byte string of known length and the number it stands for determine each other, and a text and
its UTF-8 form do. Both facts are used wherever a field of a layout is read back.

## Main definitions

* `Bytes.toIntBE` — the integer that bytes in two's complement stand for.

## Main results

* `Bytes.toNatBE_append`, `Bytes.toNatBE_lt` — the number of a concatenation, and its size.
* `Bytes.toNatBE_ofNatBE`, `Bytes.ofNatBE_toNatBE` — to bytes of a fixed width and back.
* `Bytes.ofNatBE_inj`, `Bytes.ofIntBE_inj` — numbers in their range have different bytes.
* `Bytes.toIntBE_ofIntBE` — integers in their range are read back.
* `Bytes.utf8_injective`, `Bytes.utf8_ofList` — the UTF-8 form of a text, and of an ASCII one.
* `Bytes.toList_of_ascii` — the characters of a text whose UTF-8 form is ASCII.
-/

namespace TezosWallet

namespace Bytes

/-- The byte of a number in range. -/
theorem toNat_byte {n : Nat} (h : n < 256) : (UInt8.ofNat n).toNat = n :=
  UInt8.toNat_ofNat_of_lt' h

theorem byte_eq {n : Nat} {b : UInt8} (h : n = b.toNat) : UInt8.ofNat n = b := by
  rw [h, UInt8.ofNat_toNat]

/-! ### Big-endian numbers -/

theorem toNatBE_append_singleton (bytes : Bytes) (b : UInt8) :
    toNatBE (bytes ++ [b]) = 256 * toNatBE bytes + b.toNat := by
  simp [toNatBE]

theorem toNatBE_eq_ofDigits (bytes : Bytes) :
    toNatBE bytes = Radix.ofDigits 256 (bytes.map UInt8.toNat).reverse := by
  induction bytes using List.reverseRecOn with
  | nil => rfl
  | append_singleton bytes b ih =>
    rw [toNatBE_append_singleton, ih, List.map_append, List.reverse_append]
    simp only [List.map_cons, List.map_nil, List.reverse_singleton, List.singleton_append,
      Radix.ofDigits]
    omega

/-- The number of a concatenation: the first part stands before all bytes of the second. -/
theorem toNatBE_append (x y : Bytes) :
    toNatBE (x ++ y) = toNatBE x * 256 ^ y.length + toNatBE y := by
  induction y using List.reverseRecOn with
  | nil => simp [toNatBE]
  | append_singleton y b ih =>
    rw [← List.append_assoc, toNatBE_append_singleton, toNatBE_append_singleton, ih,
      List.length_append, List.length_singleton, pow_succ]
    ring

theorem toNatBE_lt (bytes : Bytes) : toNatBE bytes < 256 ^ bytes.length := by
  induction bytes using List.reverseRecOn with
  | nil => simp [toNatBE]
  | append_singleton bytes b ih =>
    have hb := b.toNat_lt
    rw [toNatBE_append_singleton, List.length_append, List.length_singleton, pow_succ]
    omega

/-! ### Numbers of a fixed width -/

/-- Reading the low bytes of a number gives it modulo their range. -/
theorem toNatLE_ofNatLE (width n : Nat) : toNatLE (ofNatLE width n) = n % 256 ^ width := by
  induction width generalizing n with
  | zero => simp [ofNatLE, toNatLE, Nat.mod_one]
  | succ width ih =>
    have hlow : (UInt8.ofNat n).toNat = n % 256 := by simp
    rw [ofNatLE, toNatLE, ih, hlow, pow_succ', Nat.mod_mul]

theorem toNatBE_reverse (bytes : Bytes) : toNatBE bytes.reverse = toNatLE bytes := by
  induction bytes with
  | nil => rfl
  | cons b rest ih =>
    rw [List.reverse_cons, toNatBE_append_singleton, ih, toNatLE, Nat.add_comm]

theorem toNatBE_ofNatBE (width n : Nat) : toNatBE (ofNatBE width n) = n % 256 ^ width := by
  rw [ofNatBE, toNatBE_reverse, toNatLE_ofNatLE]

theorem ofNatBE_inj {width m n : Nat} (hm : m < 256 ^ width) (hn : n < 256 ^ width) :
    ofNatBE width m = ofNatBE width n ↔ m = n := by
  refine ⟨fun h => ?_, congrArg _⟩
  have hle : ofNatLE width m = ofNatLE width n := List.reverse_injective h
  have hnat := congrArg toNatLE hle
  rwa [toNatLE_ofNatLE, toNatLE_ofNatLE, Nat.mod_eq_of_lt hm, Nat.mod_eq_of_lt hn] at hnat

/-- Bytes are written back from the number that they stand for. -/
theorem ofNatBE_toNatBE (bytes : Bytes) : ofNatBE bytes.length (toNatBE bytes) = bytes := by
  induction bytes using List.reverseRecOn with
  | nil => rfl
  | append_singleton bytes b ih =>
    have hb := b.toNat_lt
    have hlast : UInt8.ofNat (256 * toNatBE bytes + b.toNat) = b := by
      rw [← UInt8.toNat_inj, UInt8.toNat_ofNat']
      omega
    have hquot : (256 * toNatBE bytes + b.toNat) / 256 = toNatBE bytes := by omega
    rw [ofNatBE] at ih
    rw [toNatBE_append_singleton, List.length_append, List.length_singleton, ofNatBE, ofNatLE,
      List.reverse_cons, hlast, hquot, ih]

/-- A byte string is the bytes of a number if it has their count and their number. -/
theorem eq_ofNatBE_iff {bytes : Bytes} {width n : Nat} :
    bytes = ofNatBE width n ↔ bytes.length = width ∧ toNatBE bytes = n % 256 ^ width := by
  constructor
  · rintro rfl
    exact ⟨length_ofNatBE .., toNatBE_ofNatBE ..⟩
  · rintro ⟨rfl, hnumber⟩
    have hback := ofNatBE_toNatBE (ofNatBE bytes.length n)
    rwa [length_ofNatBE, toNatBE_ofNatBE, ← hnumber, ofNatBE_toNatBE] at hback

theorem ofIntBE_eq (width : Nat) (n : Int) :
    ofIntBE width n = ofNatBE width (n % (256 ^ width : Nat)).toNat := rfl

/-- Two integers less than the range of the width apart have different bytes. -/
theorem ofIntBE_inj {width : Nat} {m n : Int} (hlt : (m - n).natAbs < 256 ^ width) :
    ofIntBE width m = ofIntBE width n ↔ m = n := by
  refine ⟨fun h => ?_, congrArg _⟩
  rw [ofIntBE_eq, ofIntBE_eq] at h
  have hpos : (0 : Int) < (256 ^ width : Nat) := by positivity
  have hm := Int.emod_nonneg m hpos.ne'
  have hn := Int.emod_nonneg n hpos.ne'
  have hm' := Int.emod_lt_of_pos m hpos
  have hn' := Int.emod_lt_of_pos n hpos
  have hmod : m % (256 ^ width : Nat) = n % (256 ^ width : Nat) := by
    have := (ofNatBE_inj (by omega) (by omega)).mp h
    omega
  have hdvd : ((256 ^ width : Nat) : Int) ∣ m - n :=
    Int.dvd_of_emod_eq_zero (Int.emod_eq_emod_iff_emod_sub_eq_zero.mp hmod)
  exact Int.eq_of_sub_eq_zero
    (Int.eq_zero_of_dvd_of_natAbs_lt_natAbs hdvd (by rwa [Int.natAbs_natCast]))

/-- Integers less than the range of the width apart, in front of anything. -/
theorem ofIntBE_append_inj {width : Nat} {m n : Int} {s t : Bytes}
    (hlt : (m - n).natAbs < 256 ^ width) :
    ofIntBE width m ++ s = ofIntBE width n ++ t ↔ m = n ∧ s = t := by
  rw [List.append_eq_append_iff_of_size_eq_left (by simp), ofIntBE_inj hlt]

/-- The integer that bytes in two's complement stand for, most significant first. -/
def toIntBE (bytes : Bytes) : Int := (toNatBE bytes : Int).bmod (256 ^ bytes.length)

/-- An integer in the range of the width is read back from its bytes. -/
theorem toIntBE_ofIntBE {width : Nat} {z : Int} (hmin : -(256 ^ width : Int) ≤ 2 * z)
    (hmax : 2 * z < 256 ^ width) : toIntBE (ofIntBE width z) = z := by
  have hpos : (0 : Int) < (256 ^ width : Nat) := by positivity
  have hnonneg := Int.emod_nonneg z hpos.ne'
  have hlt := Int.emod_lt_of_pos z hpos
  rw [toIntBE, length_ofIntBE, ofIntBE_eq, toNatBE_ofNatBE, Nat.mod_eq_of_lt (by omega),
    Int.toNat_of_nonneg hnonneg, Int.emod_bmod]
  exact Int.bmod_eq_of_le_mul_two (by push_cast; omega) (by push_cast; omega)

/-! ### Texts -/

theorem utf8_eq_flatMap (text : String) :
    utf8 text = text.toList.flatMap String.utf8EncodeChar := by
  rw [utf8, String.toUTF8_eq_toByteArray, ← String.utf8Encode_toList, List.utf8Encode]
  simp

theorem utf8_injective : Function.Injective utf8 := by
  intro s t h
  rw [← String.toByteArray_inj]
  exact ByteArray.ext (Array.ext' h)

theorem length_utf8 (text : String) : (utf8 text).length = text.utf8ByteSize := rfl

/-- An ASCII character is one byte of the same number. -/
theorem utf8EncodeChar_of_ascii {c : Char} (h : c.toNat < 128) :
    String.utf8EncodeChar c = [UInt8.ofNat c.toNat] := by
  rw [String.utf8EncodeChar]
  exact if_pos (Nat.le_of_lt_succ h)

/-- The UTF-8 form of an ASCII text has a byte for each character. -/
theorem utf8_ofList {cs : List Char} (h : ∀ c ∈ cs, c.toNat < 128) :
    utf8 (String.ofList cs) = cs.map fun c => UInt8.ofNat c.toNat := by
  rw [utf8_eq_flatMap, String.toList_ofList]
  induction cs with
  | nil => rfl
  | cons c cs ih =>
    rw [List.flatMap_cons, utf8EncodeChar_of_ascii (h c (by simp)), List.map_cons,
      ih fun d hd => h d (List.mem_cons_of_mem _ hd), List.singleton_append]

/-- An ASCII number is the number of its character. -/
theorem toNat_ofNat_ascii : ∀ n < 128, (Char.ofNat n).toNat = n := by decide

/-- A text whose UTF-8 form is ASCII has a character for each byte. -/
theorem toList_of_ascii {text : String} (h : ∀ b ∈ utf8 text, b.toNat < 128) :
    text.toList = (utf8 text).map fun b => Char.ofNat b.toNat := by
  have hascii : ∀ c ∈ (utf8 text).map (fun b => Char.ofNat b.toNat), c.toNat < 128 := by
    intro c hc
    obtain ⟨b, hb, rfl⟩ := List.mem_map.mp hc
    rw [toNat_ofNat_ascii _ (h b hb)]
    exact h b hb
  have hself : (utf8 text).map (fun b => UInt8.ofNat (Char.ofNat b.toNat).toNat) = utf8 text := by
    refine (List.map_congr_left fun b hb => ?_).trans (List.map_id _)
    rw [toNat_ofNat_ascii _ (h b hb), UInt8.ofNat_toNat, id]
  have hutf8 := utf8_ofList hascii
  rw [List.map_map, Function.comp_def, hself] at hutf8
  conv_lhs => rw [← utf8_injective hutf8, String.toList_ofList]

end Bytes

namespace FixedBytes

theorem ofBytes?_eq_some_iff {n : Nat} {bytes : Bytes} {fixed : FixedBytes n} :
    ofBytes? n bytes = some fixed ↔ bytes = fixed.toBytes := by
  unfold ofBytes?
  constructor
  · intro h
    split at h
    · cases h
      rfl
    · cases h
  · rintro rfl
    exact dif_pos fixed.length_toBytes

theorem ofBytes?_eq_none_iff {n : Nat} {bytes : Bytes} :
    ofBytes? n bytes = none ↔ bytes.length ≠ n := by
  rw [ofBytes?]
  split <;> simp [*]

@[simp] theorem ofBytes?_toBytes {n : Nat} (fixed : FixedBytes n) :
    ofBytes? n fixed.toBytes = some fixed :=
  ofBytes?_eq_some_iff.mpr rfl

/-- Bytes of a known number end by themselves. -/
theorem toBytes_append_inj {n : Nat} {x y : FixedBytes n} {s t : Bytes} :
    x.toBytes ++ s = y.toBytes ++ t ↔ x = y ∧ s = t := by
  rw [List.append_eq_append_iff_of_size_eq_left (x.length_toBytes.trans y.length_toBytes.symm),
    FixedBytes.ext_iff]

end FixedBytes

end TezosWallet
