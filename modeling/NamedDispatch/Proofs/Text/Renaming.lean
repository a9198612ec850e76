/-
Texts with their words renamed. Where two parts of a text meet at a character that belongs to no word, each
part is renamed by itself; an identifier is renamed as a whole, and a text whose words keep their names stays
as it is.
-/
import NamedDispatch.Proofs.Text.Words

namespace NamedDispatch.Text

/-- A run of word characters, collected in reverse, renamed; an empty run is no word. -/
def renameRun (f : String → String) (run : List Char) : List Char :=
  if run.isEmpty then [] else (f (String.ofList run.reverse)).toList

/-- Renames the words of characters; the run before them is still open. -/
def renameFrom (f : String → String) (run : List Char) : List Char → List Char
  | [] => renameRun f run
  | c :: cs =>
    if isWordChar c then renameFrom f (c :: run) cs else renameRun f run ++ c :: renameFrom f [] cs

/-- The text with another name in place of each of its words, everything else unchanged. -/
def rename (f : String → String) (s : String) : String := String.ofList (renameFrom f [] s.toList)

/-- A text whose words keep their names. -/
def Kept (f : String → String) (s : String) : Prop := rename f s = s

variable {f : String → String}

/-! ## Runs -/

theorem renameFrom_append_sign {c : Char} (hc : isWordChar c = false) (ds : List Char) :
    ∀ (cs run : List Char), renameFrom f run (cs ++ c :: ds) = renameFrom f run cs ++ c :: renameFrom f [] ds
  | [], run => by simp [renameFrom, hc]
  | d :: cs, run => by
    rw [List.cons_append, renameFrom, renameFrom]
    split
    · exact renameFrom_append_sign hc ds cs (d :: run)
    · rw [renameFrom_append_sign hc ds cs [], List.append_assoc, List.cons_append]

theorem renameFrom_append_word {w : List Char} (hw : ∀ c ∈ w, isWordChar c = true) (run cs : List Char) :
    renameFrom f run (w ++ cs) = renameFrom f (w.reverse ++ run) cs := by
  induction w generalizing run with
  | nil => rfl
  | cons c w ih =>
    rw [List.cons_append, renameFrom, if_pos (hw c (List.mem_cons_self ..)),
      ih fun d hd => hw d (List.mem_cons_of_mem _ hd)]
    simp

/-- Words that keep their names leave the text as it is, what is in the open run included. -/
theorem renameFrom_eq (before : Option Char) (run cs : List Char)
    (h : ∀ w ∈ wordsFrom before run cs, f (String.ofList w.chars) = String.ofList w.chars) :
    renameFrom f run cs = run.reverse ++ cs := by
  have closed {before : Option Char} {run : List Char}
      (h : ∀ w ∈ closeWord before run, f (String.ofList w.chars) = String.ofList w.chars) :
      renameRun f run = run.reverse := by
    rw [renameRun]
    split
    · next he => rw [List.isEmpty_iff.1 he, List.reverse_nil]
    · next he => rw [h ⟨before, run.reverse⟩ (by rw [closeWord, if_neg he]; simp), String.toList_ofList]
  induction cs generalizing before run with
  | nil => rw [renameFrom, closed h, List.append_nil]
  | cons c cs ih =>
    rw [wordsFrom] at h
    rw [renameFrom]
    split at h
    · next hc => rw [if_pos hc, ih _ _ h, List.reverse_cons, List.append_assoc, List.singleton_append]
    · next hc =>
      obtain ⟨hrun, hrest⟩ := List.forall_mem_append.1 h
      rw [if_neg hc, closed hrun, ih _ _ hrest, List.reverse_nil, List.nil_append]

theorem kept_ofList {cs : List Char} (h : ∀ w ∈ words cs, f (String.ofList w.chars) = String.ofList w.chars) :
    Kept f (String.ofList cs) := by
  rw [Kept, rename, String.toList_ofList, renameFrom_eq none [] cs h, List.reverse_nil, List.nil_append]

/-! ## Joined texts -/

theorem rename_append_of_startsApart (s : String) {t : String} (h : startsApart t = true) :
    rename f (s ++ t) = rename f s ++ rename f t := by
  rcases ht : t.toList with _ | ⟨c, cs⟩
  · rw [startsApart, ht] at h
    cases h
  · rw [startsApart, ht] at h
    simp only [List.head?_cons, Option.any_some, Bool.not_eq_true'] at h
    have first : renameFrom f [] (c :: cs) = c :: renameFrom f [] cs := by
      rw [renameFrom, if_neg (by rw [h]; decide)]
      rfl
    rw [rename, rename, rename, String.toList_append, ht, renameFrom_append_sign h, first, String.ofList_append]

theorem rename_append_of_endsApart {s : String} (h : endsApart s = true) (t : String) :
    rename f (s ++ t) = rename f s ++ rename f t := by
  rcases List.eq_nil_or_concat s.toList with hs | ⟨cs, c, hs⟩
  · rw [endsApart, hs] at h
    cases h
  · rw [endsApart, hs] at h
    simp only [List.concat_eq_append, List.getLast?_append, List.getLast?_singleton, Option.some_or,
      Option.any_some, Bool.and_eq_true, Bool.not_eq_true'] at h
    rw [rename, rename, rename, String.toList_append, hs, List.concat_eq_append, List.append_assoc,
      List.singleton_append, renameFrom_append_sign h.1, renameFrom_append_sign h.1, ← String.ofList_append,
      List.append_assoc, List.cons_append]
    rfl

/-- A text around another whose own words keep their names. -/
theorem rename_around {before after : String} (hb : endsApart before = true) (ha : startsApart after = true)
    (hb' : Kept f before) (ha' : Kept f after) (text : String) :
    rename f (before ++ text ++ after) = before ++ rename f text ++ after := by
  rw [rename_append_of_startsApart _ ha, rename_append_of_endsApart hb, ha', hb']

theorem rename_append_kept {t : String} (h : startsApart t = true) (ht : Kept f t) (s : String) :
    rename f (s ++ t) = rename f s ++ t := by
  rw [rename_append_of_startsApart s h, ht]

theorem Kept.append_of_startsApart {s t : String} (hs : Kept f s) (ht : Kept f t) (h : startsApart t = true) :
    Kept f (s ++ t) := by
  rw [Kept, rename_append_of_startsApart s h, hs, ht]

theorem Kept.append_of_endsApart {s t : String} (hs : Kept f s) (ht : Kept f t) (h : endsApart s = true) :
    Kept f (s ++ t) := by
  rw [Kept, rename_append_of_endsApart h t, hs, ht]

theorem rename_of_isIdentifier {s : String} (h : isIdentifier s = true) : rename f s = f s := by
  have hw := renameFrom_append_word (f := f) (all_isWordChar_of_isIdentifier h) [] []
  have hne : s.toList ≠ [] := by
    intro he
    rw [isIdentifier, he] at h
    cases h
  rw [List.append_nil, List.append_nil] at hw
  rw [rename, hw, renameFrom, renameRun, if_neg (by simpa using hne), List.reverse_reverse, String.ofList_toList,
    String.ofList_toList]

/-- Identifiers that are listed with commas are renamed one by one. -/
theorem rename_intercalate {names : List String} (h : ∀ s ∈ names, isIdentifier s = true) :
    rename f (", ".intercalate names) = ", ".intercalate (names.map f) := by
  have comma : rename f ", " = ", " := rfl
  induction names with
  | nil => rfl
  | cons s names ih =>
    have hs := rename_of_isIdentifier (f := f) (h s (List.mem_cons_self ..))
    cases names with
    | nil => rw [List.map_singleton, String.intercalate_singleton, String.intercalate_singleton, hs]
    | cons t names =>
      rw [List.map_cons, List.map_cons, String.intercalate_cons_cons, String.intercalate_cons_cons,
        String.append_assoc, rename_append_of_startsApart _ (startsApart_append (by decide) _),
        rename_append_of_endsApart (by decide), hs, comma, ih fun t ht => h t (List.mem_cons_of_mem _ ht),
        String.append_assoc, List.map_cons]

end NamedDispatch.Text
