/-
The identifiers of a text that is put together from parts. Where two parts meet at a character that
belongs to no word, the identifiers of the whole are those of the one followed by those of the
other; a part that is an identifier itself contributes just that. And a text contains another exactly
when that stands in it in one piece.
-/
import Mathlib.Data.List.Infix
import NamedDispatch.Text.Identifier

namespace NamedDispatch.Text

/-! ## Words of a list of characters -/

theorem wordsFrom_append_word {w : List Char} (hw : ∀ c ∈ w, isWordChar c = true) (before : Option Char)
    (run cs : List Char) : wordsFrom before run (w ++ cs) = wordsFrom before (w.reverse ++ run) cs := by
  induction w generalizing run with
  | nil => rfl
  | cons c w ih =>
    rw [List.cons_append, wordsFrom, if_pos (hw c (List.mem_cons_self ..)),
      ih fun d hd => hw d (List.mem_cons_of_mem _ hd)]
    simp

theorem wordsFrom_append_sign {c : Char} (hc : isWordChar c = false) (ds : List Char) :
    ∀ (cs : List Char) (before : Option Char) (run : List Char),
      wordsFrom before run (cs ++ c :: ds) = wordsFrom before run cs ++ wordsFrom (some c) [] ds
  | [], before, run => by simp [wordsFrom, hc]
  | d :: cs, before, run => by
    rw [List.cons_append, wordsFrom, wordsFrom]
    split
    · exact wordsFrom_append_sign hc ds cs before (d :: run)
    · rw [wordsFrom_append_sign hc ds cs (some d) [], List.append_assoc]

/-- What stands before a text matters for its first word only, and there only a `#` does. -/
theorem names_before {b b' : Option Char} (h : (b != some '#') = (b' != some '#')) :
    ∀ (cs run : List Char), ((wordsFrom b run cs).filter Word.isName).map Word.chars =
      ((wordsFrom b' run cs).filter Word.isName).map Word.chars := by
  -- the character before matters only when a word is closed
  have closed : ∀ run, ((closeWord b run).filter Word.isName).map Word.chars =
      ((closeWord b' run).filter Word.isName).map Word.chars := by
    intro run
    unfold closeWord
    split
    · rfl
    · have hn : Word.isName ⟨b, run.reverse⟩ = Word.isName ⟨b', run.reverse⟩ := by
        rw [Word.isName, Word.isName, h]
      cases e : Word.isName ⟨b', run.reverse⟩
      · rw [List.filter_cons_of_neg (by rw [hn, e]; decide), List.filter_cons_of_neg (by rw [e]; decide)]
      · rw [List.filter_cons_of_pos (hn.trans e), List.filter_cons_of_pos e]
        rfl
  intro cs
  induction cs with
  | nil => intro run; simpa only [wordsFrom] using closed run
  | cons c cs ih =>
    intro run
    rw [wordsFrom, wordsFrom]
    split
    · exact ih (c :: run)
    · simp only [List.filter_append, List.map_append, closed]

/-! ## Identifiers of joined texts -/

theorem identifiers_eq (s : String) :
    identifiers s = (((words s.toList).filter Word.isName).map Word.chars).map String.ofList := by
  rw [identifiers, List.map_map]; rfl

/-- The text ends in a character that is in no word and turns none into a string. -/
def endsApart (s : String) : Bool := s.toList.getLast?.any fun c => !isWordChar c && c != '#'

/-- The text starts with a character that is in no word. -/
def startsApart (s : String) : Bool := s.toList.head?.any fun c => !isWordChar c

theorem endsApart_append (s : String) {t : String} (h : endsApart t = true) : endsApart (s ++ t) = true := by
  unfold endsApart at h ⊢
  rw [String.toList_append, List.getLast?_append]
  cases e : t.toList.getLast? with
  | none => rw [e] at h; cases h
  | some c => rw [e] at h; exact h

theorem startsApart_append {s : String} (h : startsApart s = true) (t : String) :
    startsApart (s ++ t) = true := by
  unfold startsApart at h ⊢
  rw [String.toList_append, List.head?_append]
  cases e : s.toList.head? with
  | none => rw [e] at h; cases h
  | some c => rw [e] at h; exact h

theorem identifiers_append_of_endsApart {s : String} (h : endsApart s = true) (t : String) :
    identifiers (s ++ t) = identifiers s ++ identifiers t := by
  rcases List.eq_nil_or_concat s.toList with hs | ⟨cs, c, hs⟩
  · rw [endsApart, hs] at h; cases h
  · rw [endsApart, hs] at h
    simp only [List.concat_eq_append, List.getLast?_append, List.getLast?_singleton, Option.some_or,
      Option.any_some, Bool.and_eq_true, Bool.not_eq_true', bne_iff_ne, ne_eq] at h
    obtain ⟨hc, hne⟩ := h
    -- the last character is no `#`, so that the words after it read as at the start of a text
    have hb : (some c != some '#') = ((none : Option Char) != some '#') :=
      bne_iff_ne.2 fun e => hne (Option.some.inj e)
    rw [identifiers_eq, identifiers_eq s, identifiers_eq t, String.toList_append, hs,
      List.concat_eq_append, List.append_assoc, List.singleton_append, words, wordsFrom_append_sign hc,
      words, wordsFrom_append_sign hc, words, List.filter_append, List.map_append, List.map_append,
      names_before hb, wordsFrom, closeWord, List.isEmpty_nil, if_pos rfl, List.append_nil]

theorem identifiers_append_of_startsApart (s : String) {t : String} (h : startsApart t = true) :
    identifiers (s ++ t) = identifiers s ++ identifiers t := by
  rcases ht : t.toList with _ | ⟨c, cs⟩
  · rw [startsApart, ht] at h; cases h
  · rw [startsApart, ht] at h
    simp only [List.head?_cons, Option.any_some, Bool.not_eq_true'] at h
    rw [identifiers_eq, identifiers_eq s, identifiers_eq t, String.toList_append, ht, words,
      wordsFrom_append_sign h, words, words, List.filter_append, List.map_append, List.map_append]
    simp [wordsFrom, h, closeWord]

/-- An identifier is one word. -/
theorem all_isWordChar_of_isIdentifier {s : String} (h : isIdentifier s = true) :
    ∀ c ∈ s.toList, isWordChar c = true := by
  unfold isIdentifier at h
  rcases hs : s.toList with _ | ⟨c, cs⟩
  · simp
  · rw [hs, isIdentifierChars, Bool.and_eq_true, List.all_eq_true] at h
    intro d hd
    rcases List.mem_cons.1 hd with rfl | hd
    · have := h.1; unfold isWordStart at this; unfold isWordChar Char.isAlphanum
      simp only [Bool.or_eq_true] at this ⊢
      exact this.imp .inl id
    · exact h.2 d hd

theorem identifiers_of_isIdentifier {s : String} (h : isIdentifier s = true) : identifiers s = [s] := by
  have hw := all_isWordChar_of_isIdentifier h
  unfold isIdentifier at h
  rcases hs : s.toList with _ | ⟨c, cs⟩
  · rw [hs] at h; cases h
  · rw [hs] at h hw
    have e : words (c :: cs) = [⟨none, c :: cs⟩] := by
      have := wordsFrom_append_word hw none [] []
      rw [List.append_nil, List.append_nil] at this
      rw [words, this, wordsFrom, closeWord, List.reverse_reverse, if_neg (by simp)]
    rw [isIdentifierChars, Bool.and_eq_true] at h
    have hn : (⟨none, c :: cs⟩ : Word).isName = true := by
      rw [Word.isName, List.head?_cons, Option.any_some, h.1]; rfl
    rw [identifiers, hs, e, List.filter_cons_of_pos hn, List.filter_nil, List.map_singleton, ← hs,
      String.ofList_toList]

/-- Identifiers that are listed with commas are the identifiers of the list. -/
theorem identifiers_intercalate {names : List String} (h : ∀ s ∈ names, isIdentifier s = true) :
    identifiers (", ".intercalate names) = names := by
  induction names with
  | nil => rfl
  | cons s names ih =>
    have hs := identifiers_of_isIdentifier (h s (List.mem_cons_self ..))
    have hr := ih fun t ht => h t (List.mem_cons_of_mem _ ht)
    cases names with
    | nil => rw [String.intercalate_singleton, hs]
    | cons t names =>
      rw [String.intercalate_cons_cons, String.append_assoc, identifiers_append_of_startsApart,
        identifiers_append_of_endsApart (by rfl), hs, hr]
      · rfl
      · rw [startsApart, String.toList_append]; rfl

/-! ## Identifiers that begin with a stem -/

theorem isWordChar_of_isDigit {c : Char} (h : c.isDigit = true) : isWordChar c = true := by
  simp [isWordChar, Char.isAlphanum, h]

/-- What follows an identifier in the same word leaves it one. -/
theorem isIdentifier_append_word {s t : String} (hs : isIdentifier s = true)
    (ht : ∀ c ∈ t.toList, isWordChar c = true) : isIdentifier (s ++ t) = true := by
  unfold isIdentifier at hs ⊢
  rcases e : s.toList with _ | ⟨c, cs⟩
  · rw [e] at hs; cases hs
  · rw [e, isIdentifierChars, Bool.and_eq_true, List.all_eq_true] at hs
    rw [String.toList_append, e, List.cons_append, isIdentifierChars, Bool.and_eq_true, List.all_eq_true]
    refine ⟨hs.1, fun d hd => ?_⟩
    rcases List.mem_append.1 hd with hd | hd
    · exact hs.2 d hd
    · exact ht d hd

/-- A stem keeps every identifier one. -/
theorem isIdentifier_append_of_isStem {s t : String} (hs : isStem s = true) (ht : isIdentifier t = true) :
    isIdentifier (s ++ t) = true := by
  rcases e : s.toList with _ | ⟨c, cs⟩
  · unfold isIdentifier
    rw [String.toList_append, e, List.nil_append]
    exact ht
  · rw [isStem, e] at hs
    exact isIdentifier_append_word (by simpa using hs) (all_isWordChar_of_isIdentifier ht)

/-! ## Texts inside others -/

theorem occursIn_iff (part : List Char) : ∀ cs, occursIn part cs = true ↔ part <:+: cs
  | [] => by rw [occursIn, List.isEmpty_iff, List.infix_nil]
  | c :: cs => by
    rw [occursIn, Bool.or_eq_true, List.isPrefixOf_iff_prefix, occursIn_iff part cs, List.infix_cons_iff]

theorem contains_iff (s part : String) : contains s part = true ↔ part.toList <:+: s.toList :=
  occursIn_iff ..

end NamedDispatch.Text
