/-
Texts with the blanks at both ends cut off: what is kept begins and ends with no blank, and only blanks stand
around it. A text of blanks only leaves nothing.
-/
import Mathlib.Data.List.DropRight
import NamedDispatch.Text.Blank

namespace NamedDispatch.Text

/-- What is kept of characters when the blanks at both ends are cut off. -/
structure Trims (cs kept : List Char) : Prop where
  around : ∃ before after, cs = before ++ kept ++ after ∧ (∀ c ∈ before, isBlank c = true) ∧
    ∀ c ∈ after, isBlank c = true
  first : ∀ c ∈ kept.head?, isBlank c = false
  last : ∀ c ∈ kept.getLast?, isBlank c = false

theorem dropWhile_of_first {cs : List Char} (h : ∀ c ∈ cs.head?, isBlank c = false) :
    cs.dropWhile isBlank = cs := by
  cases cs with
  | nil => rfl
  | cons c cs => rw [List.dropWhile_cons_of_neg (by rw [h c rfl]; decide)]

theorem first_dropWhile (cs : List Char) : ∀ c ∈ (cs.dropWhile isBlank).head?, isBlank c = false := by
  intro c hc
  have := List.head?_dropWhile_not isBlank cs
  rw [hc] at this
  simpa using this

theorem trims_trimChars (cs : List Char) : Trims cs (trimChars cs) := by
  have kept : trimChars cs = (cs.dropWhile isBlank).rdropWhile isBlank := rfl
  refine ⟨⟨cs.takeWhile isBlank, (cs.dropWhile isBlank).rtakeWhile isBlank, ?_, ?_, ?_⟩, ?_, ?_⟩
  · rw [kept, List.append_assoc, List.rdropWhile_append_rtakeWhile, List.takeWhile_append_dropWhile]
  · exact fun c hc => List.mem_takeWhile_imp hc
  · exact fun c hc => List.mem_rtakeWhile_imp hc
  · -- what is kept begins as the characters do after the blanks in front
    intro c hc
    obtain ⟨rest, hrest⟩ := List.rdropWhile_prefix isBlank (l := cs.dropWhile isBlank)
    refine first_dropWhile cs c ?_
    rw [← hrest, ← kept, List.head?_append, hc]
    rfl
  · intro c hc
    rw [trimChars, List.getLast?_reverse] at hc
    exact first_dropWhile _ c hc

theorem Trims.eq {cs kept : List Char} (h : Trims cs kept) : trimChars cs = kept := by
  obtain ⟨before, after, rfl, hb, ha⟩ := h.around
  have dropped : (before ++ kept ++ after).dropWhile isBlank = (kept ++ after).dropWhile isBlank := by
    rw [List.append_assoc, List.dropWhile_append_of_pos hb]
  have ends : after.reverse.dropWhile isBlank = [] := by
    simpa [List.dropWhile_eq_nil_iff] using ha
  rw [trimChars, dropped]
  cases kept with
  | nil =>
    have : after.dropWhile isBlank = [] := by simpa [List.dropWhile_eq_nil_iff] using ha
    rw [List.nil_append, this]
    rfl
  | cons c kept =>
    have first : (c :: kept ++ after).dropWhile isBlank = c :: kept ++ after :=
      dropWhile_of_first (by simpa using h.first)
    have last : (c :: kept).reverse.dropWhile isBlank = (c :: kept).reverse :=
      dropWhile_of_first (by simpa only [List.head?_reverse] using h.last)
    rw [first, List.reverse_append, List.dropWhile_append, ends, List.isEmpty_nil, if_pos rfl, last,
      List.reverse_reverse]

theorem trims_iff {cs kept : List Char} : Trims cs kept ↔ trimChars cs = kept :=
  ⟨Trims.eq, by rintro rfl; exact trims_trimChars cs⟩

/-! ## Texts of blanks -/

theorem trimChars_eq_nil_iff {cs : List Char} : trimChars cs = [] ↔ cs.all isBlank = true := by
  rw [List.all_eq_true]
  constructor
  · intro h
    obtain ⟨before, after, rfl, hb, ha⟩ := (trims_iff.2 h).around
    simpa [or_imp, forall_and] using ⟨hb, ha⟩
  · exact fun h => Trims.eq ⟨⟨cs, [], by simp, h, nofun⟩, nofun, nofun⟩

/-- Nothing is left of a text trimmed at both ends if and only if it is blank. -/
theorem trim_eq_empty_iff {s : String} : trim s = "" ↔ isBlankText s = true := by
  rw [trim, String.ofList_eq_empty_iff, trimChars_eq_nil_iff]
  rfl

end NamedDispatch.Text
