import Mathlib.Data.List.TakeWhile
import TezosWallet.Text.Basic

/-!
# Blanks around a text and within it

Trimming removes the blanks on both sides of a text, whatever they are and however many. A text
that has none is not changed by it. Spaces between words are the seams at which a text is cut into
its words again.

## Main definitions

* `Text.AllBlank` — texts of blanks.

## Main results

* `Text.isBlank_of_graphic` — no graphic character of ASCII is blank.
* `Text.trim_append` — blanks around a text do not show after trimming.
* `Text.exists_append_trim` — a text is what is left of it after trimming, between blanks.
* `Text.trim_eq_self` — texts without blanks.
* `Text.hasTagAmong_append_iff` — blanks hide a tag in front of a text, but not behind it.
* `Text.words_intercalate` — words joined by spaces.
-/

namespace TezosWallet.Text

/-- All characters of a text are blank. -/
def AllBlank (text : String) : Prop := ∀ c ∈ text.toList, isBlank c = true

theorem allBlank_empty : AllBlank "" := by simp [AllBlank]

/-- The graphic characters of ASCII are not blank. -/
theorem isBlank_of_graphic {c : Char} (hgraphic : 0x20 < c.toNat) (hascii : c.toNat < 128) :
    isBlank c = false := by
  simp only [isBlank, Bool.or_eq_false_iff, Bool.and_eq_false_iff, decide_eq_false_iff_not,
    beq_eq_false_iff_ne]
  omega

/-- Blanks around a text do not show after trimming. -/
theorem trim_append {before after : String} (hbefore : AllBlank before) (hafter : AllBlank after)
    (text : String) : trim (before ++ text ++ after) = trim text := by
  have hafter' : ∀ c ∈ after.toList.reverse, isBlank c = true := by
    simpa [AllBlank] using hafter
  have hlead : (before ++ text ++ after).toList.dropWhile isBlank =
      (text.toList ++ after.toList).dropWhile isBlank := by
    rw [String.toList_append, String.toList_append, List.append_assoc,
      List.dropWhile_append_of_pos hbefore]
  rw [trim, trim, hlead, List.dropWhile_append]
  -- The blanks at the end are dropped from the front if the text itself is blank.
  split
  · next hblank =>
    rw [List.dropWhile_eq_nil_iff.mpr hafter, List.isEmpty_iff.mp hblank]
  · rw [List.reverse_append, List.dropWhile_append_of_pos hafter']

/-- A text is what is left of it after trimming, between blanks. -/
theorem exists_append_trim (text : String) :
    ∃ before after, AllBlank before ∧ AllBlank after ∧ before ++ trim text ++ after = text := by
  let rest := (text.toList.dropWhile isBlank).reverse
  refine ⟨String.ofList (text.toList.takeWhile isBlank),
    String.ofList (rest.takeWhile isBlank).reverse, ?_, ?_, ?_⟩
  · intro c hc
    rw [String.toList_ofList] at hc
    exact List.mem_takeWhile_imp hc
  · intro c hc
    rw [String.toList_ofList, List.mem_reverse] at hc
    exact List.mem_takeWhile_imp hc
  · have hrest : (rest.dropWhile isBlank).reverse ++ (rest.takeWhile isBlank).reverse =
        text.toList.dropWhile isBlank := by
      rw [← List.reverse_append, List.takeWhile_append_dropWhile, List.reverse_reverse]
    rw [trim, String.append_assoc, ← String.ofList_append, ← String.ofList_append, hrest,
      List.takeWhile_append_dropWhile, String.ofList_toList]

theorem dropWhile_isBlank_eq_self {cs : List Char} (h : ∀ c ∈ cs, isBlank c = false) :
    cs.dropWhile isBlank = cs := by
  cases cs with
  | nil => rfl
  | cons c cs => exact List.dropWhile_cons_of_neg (by simp [h c (by simp)])

/-- Trimming does not change a text without blanks. -/
theorem trim_eq_self {text : String} (h : ∀ c ∈ text.toList, isBlank c = false) :
    trim text = text := by
  have hreverse : ∀ c ∈ text.toList.reverse, isBlank c = false := by simpa using h
  rw [trim, dropWhile_isBlank_eq_self h, dropWhile_isBlank_eq_self hreverse, List.reverse_reverse,
    String.ofList_toList]

/-- Words joined by single spaces are read back. -/
theorem words_intercalate {ws : List String}
    (h : ∀ w ∈ ws, w ≠ "" ∧ ∀ c ∈ w.toList, isBlank c = false) :
    words (String.intercalate " " ws) = ws := by
  induction ws with
  | nil => rfl
  | cons w rest ih =>
    obtain ⟨hne, hword⟩ := h w (by simp)
    have hrest := ih fun v hv => h v (List.mem_cons_of_mem w hv)
    cases rest with
    | nil => rw [String.intercalate_singleton, words_of_notBlank hne hword]
    | cons v rest =>
      rw [String.intercalate_cons_cons, words_append_space hne hword, hrest]

/-- Words joined by single spaces have no other characters. -/
theorem mem_of_mem_intercalate {ws : List String} {c : Char}
    (hc : c ∈ (String.intercalate " " ws).toList) : c = ' ' ∨ ∃ w ∈ ws, c ∈ w.toList := by
  induction ws with
  | nil => cases hc
  | cons w rest ih =>
    cases rest with
    | nil =>
      rw [String.intercalate_singleton] at hc
      exact .inr ⟨w, by simp, hc⟩
    | cons v rest =>
      rw [String.intercalate_cons_cons, String.toList_append, String.toList_append,
        List.mem_append, List.mem_append] at hc
      rcases hc with (hc | hc) | hc
      · exact .inr ⟨w, by simp, hc⟩
      · exact .inl (List.mem_singleton.mp hc)
      · rcases ih hc with hc | ⟨u, hu, hc⟩
        · exact .inl hc
        · exact .inr ⟨u, List.mem_cons_of_mem w hu, hc⟩

/-! ### Tags -/

/-- A text that can tell something at the front of another one: it is not empty and has no
blanks. -/
def Plain (tag : String) : Prop := tag ≠ "" ∧ ∀ c ∈ tag.toList, isBlank c = false

/-- Characters that are not blank are none of the blanks at the end. -/
theorem prefix_of_prefix_append {tag cs blanks : List Char} (h : tag <+: cs ++ blanks)
    (htag : ∀ c ∈ tag, isBlank c = false) (hblanks : ∀ c ∈ blanks, isBlank c = true) :
    tag <+: cs := by
  obtain htag_cs | ⟨rest, rfl⟩ := List.prefix_or_prefix_of_prefix h (List.prefix_append cs blanks)
  · exact htag_cs
  · obtain ⟨more, hmore⟩ := h
    rw [List.append_assoc, List.append_cancel_left_eq] at hmore
    cases rest with
    | nil => simp
    | cons c rest =>
      have hblank : isBlank c = true := hblanks c (by simp [← hmore])
      rw [htag c (by simp)] at hblank
      cases hblank

variable {before after : String}

/-- No tag stands in front of blanks, and blanks behind a text do not add to how it begins. -/
theorem hasTag_append_iff {tag : String} (htag : Plain tag) (hbefore : AllBlank before)
    (hafter : AllBlank after) (text : String) :
    hasTag tag (before ++ text ++ after) = true ↔ before = "" ∧ hasTag tag text = true := by
  obtain ⟨hne, hplain⟩ := htag
  simp only [hasTag, List.isPrefixOf_iff_prefix, String.toList_append]
  constructor
  · intro hprefix
    have hfront := prefix_of_prefix_append hprefix hplain hafter
    cases hchars : before.toList with
    | nil =>
      rw [hchars, List.nil_append] at hfront
      exact ⟨String.toList_eq_nil_iff.mp hchars, hfront⟩
    | cons b blanks =>
      cases htext : tag.toList with
      | nil => exact absurd (String.toList_eq_nil_iff.mp htext) hne
      | cons c cs =>
        rw [hchars, htext, List.cons_append, List.cons_prefix_cons] at hfront
        have hblank : isBlank c = true := hfront.1 ▸ hbefore b (by simp [hchars])
        rw [hplain c (by simp [htext])] at hblank
        cases hblank
  · rintro ⟨rfl, hprefix⟩
    exact hprefix.trans (List.prefix_append _ _)

/-- The same holds of several tags at once. -/
theorem hasTagAmong_append_iff {tags : List String} (htags : ∀ tag ∈ tags, Plain tag)
    (hbefore : AllBlank before) (hafter : AllBlank after) (text : String) :
    hasTagAmong tags (before ++ text ++ after) = true ↔
      before = "" ∧ hasTagAmong tags text = true := by
  simp only [hasTagAmong, List.any_eq_true]
  constructor
  · rintro ⟨tag, hmem, htag⟩
    obtain ⟨hempty, htag⟩ := (hasTag_append_iff (htags tag hmem) hbefore hafter text).mp htag
    exact ⟨hempty, tag, hmem, htag⟩
  · rintro ⟨hempty, tag, hmem, htag⟩
    exact ⟨tag, hmem, (hasTag_append_iff (htags tag hmem) hbefore hafter text).mpr ⟨hempty, htag⟩⟩

end TezosWallet.Text
