/-
The tokens of a text as the preprocessor reads it: words, literals and single signs, with the blanks
left out. Where a text is read up to its end without an open word or literal, what follows it is read
as if it stood alone.
-/
import NamedDispatch.Proofs.Text.Words

namespace NamedDispatch

/-- A token: a word, a literal with what stands between its quotes, any other character, or a text of
the caller that is carried along as a whole. -/
inductive Token where
  | word (w : String)
  | literal (s : String)
  | sign (c : Char)
  | given (s : String)
deriving DecidableEq, Repr

namespace Token

/-! ## Reading -/

/-- What is being read: a word, or nothing if it is empty, or a literal, perhaps after a backslash. What
was read so far is kept in reverse. -/
inductive Mode where
  | code (run : List Char)
  | quoted (run : List Char)
  | escaped (run : List Char)
deriving DecidableEq, Repr

/-- Nothing is being read. -/
def Mode.idle : Mode := .code []

/-- The word that ends a run of characters kept in reverse, if there are any. -/
def closeRun (run : List Char) : List Token :=
  if run.isEmpty then [] else [word (String.ofList run.reverse)]

/-- The token of a character that is in no word; a quote opens a literal, and a blank is none. -/
def ofSign (c : Char) : List Token := if c == '"' || c == ' ' then [] else [sign c]

/-- Reads one character: the tokens that end with it and what is read after it. -/
def Mode.next : Mode → Char → List Token × Mode
  | .code run, c =>
    if Text.isWordChar c then ([], .code (c :: run))
    else (closeRun run ++ ofSign c, if c == '"' then .quoted [] else .idle)
  | .quoted run, c =>
    if c == '"' then ([literal (String.ofList run.reverse)], .idle)
    else ([], if c == '\\' then .escaped (c :: run) else .quoted (c :: run))
  | .escaped run, c => ([], .quoted (c :: run))

/-- What is left to be a token when the text ends; a literal without its end is none. -/
def Mode.close : Mode → List Token
  | .code run => closeRun run
  | _ => []

/-- The tokens of characters, from what is being read before them. -/
def read : Mode → List Char → List Token
  | m, [] => m.close
  | m, c :: cs => (m.next c).1 ++ read (m.next c).2 cs

/-- What is being read after some characters. -/
def Mode.after : Mode → List Char → Mode
  | m, [] => m
  | m, c :: cs => (m.next c).2.after cs

/-- The tokens of a whole text. -/
def ofText (s : String) : List Token := read .idle s.toList

/-! ## Texts one after the other -/

theorem Mode.after_append : ∀ (m : Mode) (cs ds : List Char), m.after (cs ++ ds) = (m.after cs).after ds
  | _, [], _ => rfl
  | m, c :: cs, ds => Mode.after_append (m.next c).2 cs ds

theorem read_append {ds : List Char} :
    ∀ {m : Mode} {cs : List Char}, m.after cs = .idle → read m (cs ++ ds) = read m cs ++ read .idle ds
  | m, [], h => by
    rw [Mode.after] at h
    rw [h]
    rfl
  | m, c :: cs, h => by
    rw [List.cons_append, read, read, read_append (m := (m.next c).2) h, List.append_assoc]

/-- Nothing is being read after the text. -/
def settles (s : String) : Bool := Mode.idle.after s.toList == .idle

theorem settles_append {s t : String} (hs : settles s = true) (ht : settles t = true) :
    settles (s ++ t) = true := by
  rw [settles, beq_iff_eq] at hs ht ⊢
  rw [String.toList_append, Mode.after_append, hs, ht]

theorem ofText_append {s : String} (h : settles s = true) (t : String) :
    ofText (s ++ t) = ofText s ++ ofText t := by
  rw [settles, beq_iff_eq] at h
  rw [ofText, String.toList_append, read_append h]
  rfl

/-- The text ends outside of literals. -/
def inCode (s : String) : Bool :=
  match Mode.idle.after s.toList with
  | .code _ => true
  | _ => false

theorem inCode_of_settles {s : String} (h : settles s = true) : inCode s = true := by
  rw [settles, beq_iff_eq] at h
  rw [inCode, h]
  rfl

theorem exists_run {s : String} (h : inCode s = true) : ∃ run, Mode.idle.after s.toList = .code run := by
  unfold inCode at h
  split at h
  · rename_i run hr
    exact ⟨run, hr⟩
  · cases h

theorem exists_head {t : String} (h : Text.startsApart t = true) :
    ∃ d ds, t.toList = d :: ds ∧ Text.isWordChar d = false := by
  rw [Text.startsApart] at h
  cases e : t.toList with
  | nil =>
    rw [e] at h
    cases h
  | cons d ds =>
    rw [e, List.head?_cons, Option.any_some, Bool.not_eq_true'] at h
    exact ⟨d, ds, rfl, h⟩

/-- A character that is in no word ends the one before it. -/
theorem read_append_sign {d : Char} (hd : Text.isWordChar d = false) (ds : List Char) :
    ∀ {m : Mode} {cs run : List Char}, m.after cs = .code run →
      read m (cs ++ d :: ds) = read m cs ++ read .idle (d :: ds)
  | m, [], run, h => by
    -- the character ends an open word just as the end of the text does
    rw [Mode.after] at h
    subst h
    simp [read, Mode.next, Mode.idle, Mode.close, hd, closeRun]
  | m, c :: cs, run, h => by
    rw [List.cons_append, read, read, read_append_sign hd ds (m := (m.next c).2) h, List.append_assoc]

theorem ofText_append_apart {s t : String} (hs : inCode s = true) (ht : Text.startsApart t = true) :
    ofText (s ++ t) = ofText s ++ ofText t := by
  obtain ⟨run, hr⟩ := exists_run hs
  obtain ⟨d, ds, hd, hw⟩ := exists_head ht
  rw [ofText, String.toList_append, hd, read_append_sign hw ds hr, ← hd]
  rfl

theorem settles_append_apart {s t : String} (hs : inCode s = true) (ht : Text.startsApart t = true)
    (h : settles t = true) : settles (s ++ t) = true := by
  obtain ⟨run, hr⟩ := exists_run hs
  obtain ⟨d, ds, hd, hw⟩ := exists_head ht
  rw [settles, beq_iff_eq] at h ⊢
  rw [String.toList_append, Mode.after_append, hr, ← h, hd]
  simp [Mode.after, Mode.next, Mode.idle, hw]

/-! ## Words -/

theorem after_word {w : List Char} (hw : ∀ c ∈ w, Text.isWordChar c = true) :
    ∀ run, (Mode.code run).after w = .code (w.reverse ++ run) := by
  induction w with
  | nil => intro run; rfl
  | cons c w ih =>
    intro run
    rw [Mode.after, Mode.next, if_pos (hw c (List.mem_cons_self ..)),
      ih fun d hd => hw d (List.mem_cons_of_mem _ hd)]
    simp

theorem read_word {w : List Char} (hw : ∀ c ∈ w, Text.isWordChar c = true) :
    ∀ run, read (.code run) w = closeRun (w.reverse ++ run) := by
  induction w with
  | nil => intro run; rfl
  | cons c w ih =>
    intro run
    rw [read, Mode.next, if_pos (hw c (List.mem_cons_self ..)), List.nil_append,
      ih fun d hd => hw d (List.mem_cons_of_mem _ hd)]
    simp

theorem inCode_word {w : String} (hw : Text.isIdentifier w = true) : inCode w = true := by
  rw [inCode, Mode.idle, after_word (Text.all_isWordChar_of_isIdentifier hw)]

theorem ofText_word {w : String} (hw : Text.isIdentifier w = true) : ofText w = [word w] := by
  rw [ofText, Mode.idle, read_word (Text.all_isWordChar_of_isIdentifier hw), List.append_nil, closeRun,
    List.reverse_reverse, String.ofList_toList, if_neg]
  intro h
  rw [List.isEmpty_reverse, List.isEmpty_iff] at h
  rw [Text.isIdentifier, h] at hw
  cases hw

/-! ## Texts read to their end -/

/-- A text is read as these tokens, and nothing is being read after it. -/
structure Reads (s : String) (ts : List Token) : Prop where
  ended : settles s = true
  tokens : ofText s = ts

instance (s : String) (ts : List Token) : Decidable (Reads s ts) :=
  decidable_of_iff (settles s = true ∧ ofText s = ts) ⟨fun h => ⟨h.1, h.2⟩, fun h => ⟨h.ended, h.tokens⟩⟩

/-- A text of which the characters are at hand is read by these. -/
theorem reads_ofList {cs : List Char} {ts : List Token} (ended : Mode.idle.after cs = .idle)
    (tokens : read .idle cs = ts) : Reads (String.ofList cs) ts := by
  constructor
  · rw [settles, String.toList_ofList, beq_iff_eq]
    exact ended
  · rw [ofText, String.toList_ofList]
    exact tokens

theorem Reads.append {s t : String} {ts us : List Token} (hs : Reads s ts) (ht : Reads t us) :
    Reads (s ++ t) (ts ++ us) :=
  ⟨settles_append hs.ended ht.ended, by rw [ofText_append hs.ended, hs.tokens, ht.tokens]⟩

/-- A text that may end in a word, and one after it that ends the word. -/
theorem Reads.apart_append {s t : String} {us : List Token} (hs : inCode s = true)
    (apart : Text.startsApart t = true) (ht : Reads t us) : Reads (s ++ t) (ofText s ++ us) :=
  ⟨settles_append_apart hs apart ht.ended, by rw [ofText_append_apart hs apart, ht.tokens]⟩

theorem Reads.word_append {w t : String} {us : List Token} (hw : Text.isIdentifier w = true)
    (apart : Text.startsApart t = true) (ht : Reads t us) : Reads (w ++ t) (word w :: us) := by
  have := Reads.apart_append (inCode_word hw) apart ht
  rwa [ofText_word hw] at this

/-! ## Listed words -/

/-- Lists of tokens with commas between them. -/
def joined : List (List Token) → List Token
  | [] => []
  | [a] => a
  | a :: b :: as => a ++ sign ',' :: joined (b :: as)

theorem joined_cons {as : List (List Token)} (a : List Token) (h : as ≠ []) :
    joined (a :: as) = a ++ sign ',' :: joined as := by
  cases as with
  | nil => exact absurd rfl h
  | cons b as => rfl

theorem joined_append {as bs : List (List Token)} (ha : as ≠ []) (hb : bs ≠ []) :
    joined (as ++ bs) = joined as ++ sign ',' :: joined bs := by
  induction as with
  | nil => exact absurd rfl ha
  | cons a as ih =>
    cases as with
    | nil => exact joined_cons a hb
    | cons a' as =>
      rw [List.cons_append, joined_cons a (by simp), ih (by simp), joined_cons a (by simp), List.append_assoc,
        List.cons_append]

/-- What is already joined counts as one. -/
theorem joined_joined (as : List (List Token)) {bs : List (List Token)} (hb : bs ≠ []) (cs : List (List Token)) :
    joined (as ++ joined bs :: cs) = joined (as ++ (bs ++ cs)) := by
  have one : joined (joined bs :: cs) = joined (bs ++ cs) := by
    cases cs with
    | nil => rw [List.append_nil]; rfl
    | cons c cs => rw [joined_cons _ (List.cons_ne_nil c cs), joined_append hb (List.cons_ne_nil c cs)]
  -- what stands before is followed by the same comma on both sides
  cases as with
  | nil => exact one
  | cons a as =>
    rw [joined_append (List.cons_ne_nil a as) (List.cons_ne_nil _ cs), one,
      joined_append (List.cons_ne_nil a as) (List.append_ne_nil_of_left_ne_nil hb cs)]

/-- Words as arguments, a token each. -/
def names (ws : List String) : List (List Token) := ws.map fun w => [word w]

/-- Identifiers with commas between them, and a text after them that is read by itself. -/
theorem Reads.commaList_append {ws : List String} (h : ∀ w ∈ ws, Text.isIdentifier w = true) {t : String}
    {us : List Token} (apart : Text.startsApart t = true) (ht : Reads t us) :
    Reads (", ".intercalate ws ++ t) (joined (names ws) ++ us) := by
  induction ws with
  | nil =>
    rw [show ", ".intercalate [] = "" from rfl, String.empty_append]
    exact ht
  | cons w ws ih =>
    have hw := h w (List.mem_cons_self ..)
    have rest := ih fun v hv => h v (List.mem_cons_of_mem _ hv)
    cases ws with
    | nil =>
      rw [String.intercalate_singleton]
      exact .word_append hw apart ht
    | cons v ws =>
      -- the comma ends the word before it, and the rest is read by itself
      have comma : Reads ", " [sign ','] := by decide
      rw [String.intercalate_cons_cons, String.append_assoc, String.append_assoc]
      exact .word_append hw (Text.startsApart_append (by decide) _) (comma.append rest)

end Token

end NamedDispatch
