/-
Which stems are legal: exactly those with which every name of a macro is an identifier. A single name tells, since
in each of them an identifier follows the stem. An empty stem leaves it as it is, and any other has to be an
identifier itself, since the name begins with its characters.

What an identifier is is said by its characters alone, apart from the way a text is tested for it.
-/
import NamedDispatch.Proofs.Header.Names

namespace NamedDispatch

namespace Text

/-! ## Identifiers by their characters -/

/-- An ASCII letter. -/
def IsLetter (c : Char) : Prop := ('A' ≤ c ∧ c ≤ 'Z') ∨ ('a' ≤ c ∧ c ≤ 'z')

/-- An ASCII digit. -/
def IsDigit (c : Char) : Prop := '0' ≤ c ∧ c ≤ '9'

/-- A text of ASCII letters, digits and underscores, at least one, that does not start with a digit. -/
structure IsIdentifier (s : String) : Prop where
  nonempty : s ≠ ""
  word : ∀ c ∈ s.toList, IsLetter c ∨ IsDigit c ∨ c = '_'
  noDigit : ∀ c ∈ s.toList.head?, ¬IsDigit c

theorem isAlpha_iff (c : Char) : c.isAlpha = true ↔ IsLetter c := by
  unfold Char.isAlpha Char.isUpper Char.isLower IsLetter
  simp only [Bool.or_eq_true, Bool.and_eq_true, decide_eq_true_eq, ge_iff_le, Char.le_def]

theorem isDigit_iff (c : Char) : c.isDigit = true ↔ IsDigit c := by
  unfold Char.isDigit IsDigit
  simp only [Bool.and_eq_true, decide_eq_true_eq, ge_iff_le, Char.le_def]

theorem not_isDigit_of_isLetter {c : Char} (h : IsLetter c) : ¬IsDigit c := by
  rintro ⟨-, h9⟩
  rcases h with ⟨hA, -⟩ | ⟨ha, -⟩
  · exact absurd (Char.le_trans hA h9) (by decide)
  · exact absurd (Char.le_trans ha h9) (by decide)

theorem isWordChar_iff (c : Char) : isWordChar c = true ↔ IsLetter c ∨ IsDigit c ∨ c = '_' := by
  unfold isWordChar Char.isAlphanum
  rw [Bool.or_eq_true, Bool.or_eq_true, isAlpha_iff, isDigit_iff, beq_iff_eq, or_assoc]

/-- A word may start with each of its characters but the digits. -/
theorem isWordStart_iff (c : Char) : isWordStart c = true ↔ isWordChar c = true ∧ ¬IsDigit c := by
  rw [isWordChar_iff]
  unfold isWordStart
  rw [Bool.or_eq_true, isAlpha_iff, beq_iff_eq]
  constructor
  · rintro (hl | rfl)
    · exact ⟨.inl hl, not_isDigit_of_isLetter hl⟩
    · exact ⟨.inr (.inr rfl), by unfold IsDigit; decide⟩
  · rintro ⟨hl | hd | hu, hn⟩
    · exact .inl hl
    · exact absurd hd hn
    · exact .inr hu

/-- The test `isIdentifier` accepts identifiers and nothing else. -/
theorem isIdentifier_iff (s : String) : isIdentifier s = true ↔ IsIdentifier s := by
  have hs : s.toList = [] ↔ s = "" := String.toList_eq_nil_iff
  unfold isIdentifier
  constructor
  · intro h
    have hw := all_isWordChar_of_isIdentifier h
    refine ⟨fun he => ?_, fun c hc => (isWordChar_iff c).1 (hw c hc), ?_⟩
    · rw [hs.2 he] at h
      cases h
    · intro c hc
      obtain ⟨cs, hcs⟩ := List.head?_eq_some_iff.1 hc
      rw [hcs, isIdentifierChars, Bool.and_eq_true] at h
      exact ((isWordStart_iff c).1 h.1).2
  · rintro ⟨hne, hw, hd⟩
    obtain ⟨c, cs, hcs⟩ := List.exists_cons_of_ne_nil (mt hs.1 hne)
    rw [hcs] at hw hd ⊢
    have word : ∀ d ∈ c :: cs, isWordChar d = true := fun d hm => (isWordChar_iff d).2 (hw d hm)
    obtain ⟨hc, hrest⟩ := List.forall_mem_cons.1 word
    rw [isIdentifierChars, Bool.and_eq_true, List.all_eq_true, isWordStart_iff]
    exact ⟨⟨hc, hd c rfl⟩, hrest⟩

/-! ## Stems of identifiers -/

/-- What stands in front of an identifier leaves it one exactly when it is a stem. -/
theorem isIdentifier_append_iff {s t : String} (ht : isIdentifier t = true) :
    isIdentifier (s ++ t) = true ↔ isStem s = true := by
  constructor
  · intro h
    unfold isStem isIdentifier
    unfold isIdentifier at h
    rw [String.toList_append] at h
    cases hs : s.toList with
    | nil => rfl
    | cons c cs =>
      rw [hs, List.cons_append, isIdentifierChars, List.all_append, Bool.and_eq_true, Bool.and_eq_true] at h
      obtain ⟨hc, hcs, -⟩ := h
      rw [isIdentifierChars, hc, hcs]
      rfl
  · exact fun hs => isIdentifier_append_of_isStem hs ht

end Text

namespace Naming

/-! ## Names with a stem -/

/-- The names that begin with the stem of a naming: the levels `FE_k` and `FE2_k`, `GET_MACRO` and the
selectors, `HEADER_FUNC`, and all that a server registers its functions with, from `ATTACH_FUNC` to
`DEFAULT_DISPATCH`. -/
inductive Gives (n : Naming) : String → Prop where
  | level (k : Nat) : n.Gives (n.level k)
  | pairLevel (k : Nat) : n.Gives (n.pairLevel k)
  | counter : n.Gives n.counter
  | forEach : n.Gives n.forEach
  | forEachPair : n.Gives n.forEachPair
  | headerFunc : n.Gives n.headerFunc
  | attach (cached : Bool) : n.Gives (n.attach cached)
  | attachMany (cached : Bool) : n.Gives (n.attachMany cached)
  | singleAlias (cached : Bool) : n.Gives (n.singleAlias cached)
  | multiAlias (cached : Bool) : n.Gives (n.multiAlias cached)
  | aliasPairs (cached : Bool) : n.Gives (n.aliasPairs cached)
  | defaultDispatch : n.Gives n.defaultDispatch

variable {n : Naming} {name : String}

/-- Each name is the stem with an identifier after it. -/
theorem Gives.exists_rest (h : n.Gives name) : ∃ rest, Text.isIdentifier rest = true ∧ name = n.stem ++ rest := by
  cases h with
  | level k => exact ⟨_, isIdentifier_number (by decide) k, n.level_eq k⟩
  | pairLevel k => exact ⟨_, isIdentifier_number (by decide) k, n.pairLevel_eq k⟩
  | counter => exact ⟨"GET_MACRO", by decide, rfl⟩
  | forEach => exact ⟨"FOR_EACH", by decide, rfl⟩
  | forEachPair => exact ⟨"FOR_EACH2", by decide, rfl⟩
  | headerFunc => exact ⟨"HEADER_FUNC", by decide, rfl⟩
  | attach cached => exact ⟨_, by cases cached <;> decide, n.attach_eq cached⟩
  | attachMany cached => exact ⟨_, by cases cached <;> decide, n.attachMany_eq cached⟩
  | singleAlias cached => exact ⟨_, by cases cached <;> decide, n.singleAlias_eq cached⟩
  | multiAlias cached => exact ⟨_, by cases cached <;> decide, n.multiAlias_eq cached⟩
  | aliasPairs cached => exact ⟨_, by cases cached <;> decide, n.aliasPairs_eq cached⟩
  | defaultDispatch => exact ⟨"DEFAULT_DISPATCH", by decide, rfl⟩

/-- Each name by itself tells whether the stem is legal. -/
theorem Gives.isIdentifier_iff (h : n.Gives name) : Text.IsIdentifier name ↔ Text.isStem n.stem = true := by
  obtain ⟨rest, hr, rfl⟩ := h.exists_rest
  rw [← Text.isIdentifier_iff, Text.isIdentifier_append_iff hr]

/-- A stem passes `isStem` exactly when every name that begins with it is an identifier. With any other
stem none is. -/
theorem isStem_iff_names (stem : String) :
    (Text.isStem stem = true ↔ ∀ name, Gives ⟨stem⟩ name → Text.IsIdentifier name) ∧
    (Text.isStem stem = false ↔ ∀ name, Gives ⟨stem⟩ name → ¬Text.IsIdentifier name) := by
  -- any name would do
  have given := Gives.counter (n := ⟨stem⟩)
  constructor
  · constructor
    · intro hs name hg
      exact hg.isIdentifier_iff.2 hs
    · intro h
      exact given.isIdentifier_iff.1 (h _ given)
  · rw [← Bool.not_eq_true]
    constructor
    · intro hs name hg hi
      exact hs (hg.isIdentifier_iff.1 hi)
    · intro h hs
      exact h _ given (given.isIdentifier_iff.2 hs)

/-- The empty stem is legal; one that starts with a digit or holds a letter outside ASCII is not. -/
example : Text.isStem "" = true ∧ Text.isStem "_my2_" = true ∧ Text.isStem "2RPC" = false ∧
    Text.isStem "é" = false := by decide

end Naming

end NamedDispatch
