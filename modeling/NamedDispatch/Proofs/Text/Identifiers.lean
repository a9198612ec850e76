/-
Which parts of a text are its identifiers, told from the bytes alone: the longest runs of letters, digits and
underscores that neither start with a digit nor come right after a `#`. They are found one after the other, each
where it stands, and characters outside ASCII never belong to one.

The invariant follows the scanner: what was read in full holds no part of the run that is open, so that the
identifiers still to be found are those that start in what is left.
-/
import NamedDispatch.Proofs.Text.Order
import NamedDispatch.Text.Identifier

namespace NamedDispatch.Text

/-! ## Bytes -/

/-- The byte of an ASCII digit. -/
def isDigitByte (b : UInt8) : Bool := 0x30 ≤ b && b ≤ 0x39

/-- The byte of an ASCII letter or digit, or of an underscore. -/
def isWordByte (b : UInt8) : Bool :=
  (0x41 ≤ b && b ≤ 0x5A) || (0x61 ≤ b && b ≤ 0x7A) || isDigitByte b || b == 0x5F

theorem lt_of_isWordByte {b : UInt8} (h : isWordByte b = true) : b.toNat < 128 := by
  simp only [isWordByte, isDigitByte, Bool.or_eq_true, Bool.and_eq_true, decide_eq_true_eq, UInt8.le_iff_toNat_le,
    beq_iff_eq] at h
  rcases h with ((⟨-, h⟩ | ⟨-, h⟩) | ⟨-, h⟩) | rfl
  · exact Nat.lt_of_le_of_lt h (by decide)
  · exact Nat.lt_of_le_of_lt h (by decide)
  · exact Nat.lt_of_le_of_lt h (by decide)
  · decide

theorem lt_of_isWordChar {c : Char} (h : isWordChar c = true) : c.toNat < 128 := by
  have hw : isWordChar c = (decide (65 ≤ c.val ∧ c.val ≤ 90) || (97 ≤ c.val && c.val ≤ 122) ||
      (48 ≤ c.val && c.val ≤ 57) || c == '_') := rfl
  simp only [hw, Bool.or_eq_true, Bool.and_eq_true, decide_eq_true_eq, UInt32.le_iff_toNat_le, beq_iff_eq] at h
  rcases h with ((⟨-, h⟩ | ⟨-, h⟩) | ⟨-, h⟩) | rfl
  · exact Nat.lt_of_le_of_lt h (by decide)
  · exact Nat.lt_of_le_of_lt h (by decide)
  · exact Nat.lt_of_le_of_lt h (by decide)
  · decide

/-- A character of one byte belongs to words exactly when its byte does, and may start one unless it is a digit. -/
theorem isWordByte_ofNat : ∀ n < 128, isWordByte (UInt8.ofNat n) = isWordChar (Char.ofNat n) ∧
    isWordStart (Char.ofNat n) = (isWordChar (Char.ofNat n) && !isDigitByte (UInt8.ofNat n)) := by decide

theorem utf8_singleton_word {c : Char} (h : isWordChar c = true) : ∃ b, utf8 [c] = [b] ∧ isWordByte b = true ∧
    isWordStart c = !isDigitByte b := by
  have hc := lt_of_isWordChar h
  obtain ⟨hw, hs⟩ := isWordByte_ofNat c.toNat hc
  rw [Char.ofNat_toNat] at hw hs
  exact ⟨UInt8.ofNat c.toNat, utf8_cons hc [], by rw [hw, h], by rw [hs, h, Bool.true_and]⟩

/-- No byte of another character belongs to words, and its last one is a `#` only if it is. -/
theorem utf8_singleton_sign {c : Char} (h : isWordChar c = false) : (∀ b ∈ utf8 [c], isWordByte b = false) ∧
    ((utf8 [c]).getLast? = some 0x23 ↔ c = '#') := by
  by_cases hc : c.toNat < 128
  · have hb := (isWordByte_ofNat c.toNat hc).1
    rw [Char.ofNat_toNat, h] at hb
    rw [utf8_cons hc, utf8_nil]
    refine ⟨by simpa using hb, ?_⟩
    simp only [List.getLast?_singleton, Option.some.injEq]
    constructor
    · intro he
      rw [← char_of_byte hc, he]
      rfl
    · rintro rfl
      rfl
  · have large (b : UInt8) (hb : b ∈ utf8 [c]) : 128 ≤ b.toNat := by
      rw [utf8, List.flatMap_singleton] at hb
      exact le_of_mem_utf8EncodeChar (Nat.not_lt.1 hc) hb
    refine ⟨fun b hb => ?_, fun he => ?_, ?_⟩
    · rw [← Bool.not_eq_true]
      exact fun hw => Nat.not_lt.2 (large b hb) (lt_of_isWordByte hw)
    · exact absurd (large _ (List.mem_of_getLast? he)) (by decide)
    · rintro rfl
      exact absurd (by decide) hc

/-! ## Parts of a text -/

/-- A part of a text, with what stands before it and after it. -/
structure Occurrence where
  before : List UInt8
  run : List UInt8
  after : List UInt8

/-- The whole text. -/
def Occurrence.bytes (o : Occurrence) : List UInt8 := o.before ++ (o.run ++ o.after)

/-- The part is a run of word bytes that goes on at neither end, does not start with a digit and does not come
right after a `#`. -/
structure Occurrence.IsName (o : Occurrence) : Prop where
  nonempty : o.run ≠ []
  word : ∀ b ∈ o.run, isWordByte b = true
  starts : ∀ b ∈ o.before.getLast?, isWordByte b = false
  ends : ∀ b ∈ o.after.head?, isWordByte b = false
  noDigit : ∀ b ∈ o.run.head?, isDigitByte b = false
  noHash : o.before.getLast? ≠ some 0x23

/-- Runs that go on no further, at the front of one text, are the same. -/
theorem run_unique {w w' rest rest' : List UInt8} (hw : ∀ b ∈ w, isWordByte b = true)
    (hr : ∀ b ∈ rest.head?, isWordByte b = false) (hw' : ∀ b ∈ w', isWordByte b = true)
    (hr' : ∀ b ∈ rest'.head?, isWordByte b = false) (h : w ++ rest = w' ++ rest') : w = w' ∧ rest = rest' := by
  have front {w rest : List UInt8} (hw : ∀ b ∈ w, isWordByte b = true)
      (hr : ∀ b ∈ rest.head?, isWordByte b = false) : (w ++ rest).takeWhile isWordByte = w := by
    rw [List.takeWhile_append_of_pos hw]
    cases rest with
    | nil => simp
    | cons b rest => simp [hr b rfl]
  have hww : w = w' := by rw [← front hw hr, h, front hw' hr']
  subst hww
  exact ⟨rfl, List.append_cancel_left h⟩

/-! ## What is still to be found -/

/-- The identifiers that start in what is left of a text, in the order of their places. -/
structure Finds (done rest : List UInt8) (os : List Occurrence) : Prop where
  mem : ∀ o, o ∈ os ↔ (o.bytes = done ++ rest ∧ o.IsName) ∧ done.length ≤ o.before.length
  order : os.Pairwise fun o o' => o.before.length < o'.before.length

variable {done rest run : List UInt8} {os : List Occurrence} {o : Occurrence}

theorem finds_nil (done : List UInt8) : Finds done [] [] := by
  refine ⟨fun o => ⟨fun ho => absurd ho List.not_mem_nil, ?_⟩, .nil⟩
  rintro ⟨⟨hb, hn⟩, hl⟩
  have hlen := congrArg List.length hb
  have := List.length_pos_of_ne_nil hn.nonempty
  simp only [Occurrence.bytes, List.length_append, List.length_nil] at hlen
  omega

/-- What comes before an identifier that starts in the rest goes on from what is done. -/
theorem exists_before (hb : o.bytes = done ++ rest) (hl : done.length ≤ o.before.length) :
    ∃ more, o.before = done ++ more ∧ rest = more ++ (o.run ++ o.after) := by
  rcases List.append_eq_append_iff.1 hb with ⟨more, hd, hr⟩ | ⟨more, hd, hr⟩
  · have hm : more = [] := by
      rw [hd, List.length_append] at hl
      exact List.length_eq_zero_iff.1 (by omega)
    subst hm
    exact ⟨[], by rw [hd, List.append_nil, List.append_nil], hr.symm⟩
  · exact ⟨more, hd, hr⟩

/-- No identifier starts at a byte that belongs to no word. -/
theorem Finds.skip {b : UInt8} (hb : isWordByte b = false) (h : Finds (done ++ [b]) rest os) :
    Finds done (b :: rest) os := by
  refine ⟨fun o => ?_, h.order⟩
  rw [h.mem, List.append_assoc, List.singleton_append, List.length_append, List.length_singleton]
  refine and_congr_right ?_
  rintro ⟨ho, hn⟩
  refine ⟨fun hl => by omega, fun hl => ?_⟩
  obtain ⟨more, hm, hr⟩ := exists_before ho hl
  cases more with
  | nil =>
    obtain ⟨b', run', hrun⟩ := List.exists_cons_of_ne_nil hn.nonempty
    rw [hrun] at hr
    obtain ⟨rfl, -⟩ := List.cons.inj hr
    have := hn.word b (by rw [hrun]; exact List.mem_cons_self ..)
    rw [hb] at this
    cases this
  | cons b' more =>
    rw [hm, List.length_append, List.length_cons]
    omega

theorem Finds.skips {bs : List UInt8} (hb : ∀ b ∈ bs, isWordByte b = false) (h : Finds (done ++ bs) rest os) :
    Finds done (bs ++ rest) os := by
  induction bs generalizing done with
  | nil => rwa [List.append_nil] at h
  | cons b bs ih =>
    obtain ⟨h1, h2⟩ := List.forall_mem_cons.1 hb
    exact .skip h1 (ih h2 (by rwa [List.append_assoc]))

/-- An identifier that starts in a run or later is the run itself or starts after it. -/
theorem starts_cases (hw : ∀ b ∈ run, isWordByte b = true) (hr : ∀ b ∈ rest.head?, isWordByte b = false)
    (ho : o.bytes = done ++ (run ++ rest)) (hn : o.IsName) :
    done.length ≤ o.before.length ↔ o = ⟨done, run, rest⟩ ∨ (done ++ run).length ≤ o.before.length := by
  constructor
  · intro hl
    obtain ⟨more, hm, he⟩ := exists_before ho hl
    rcases more.eq_nil_or_concat with rfl | ⟨more, b, rfl⟩
    · obtain ⟨h1, h2⟩ := run_unique hw hr hn.word hn.ends he
      left
      obtain ⟨before, run', after⟩ := o
      simp only [List.append_nil] at hm h1 h2
      rw [hm, h1, h2]
    -- a run cannot start inside another
    · right
      rw [List.concat_eq_append] at hm he
      have hb : isWordByte b = false := hn.starts b (by rw [hm, ← List.append_assoc]; simp)
      rcases List.append_eq_append_iff.1 he with ⟨skipped, hs, -⟩ | ⟨others, hs, -⟩
      · rw [hm, hs]
        simp only [List.length_append]
        omega
      · have := hw b (by rw [hs]; simp)
        rw [hb] at this
        cases this
  · rintro (rfl | hl)
    · exact Nat.le_refl _
    · rw [List.length_append] at hl
      omega

/-- A run that is an identifier is found before those that start after it. -/
theorem Finds.name (hn : Occurrence.IsName ⟨done, run, rest⟩) (h : Finds (done ++ run) rest os) :
    Finds done (run ++ rest) (⟨done, run, rest⟩ :: os) := by
  constructor
  · intro o
    rw [List.mem_cons, h.mem, List.append_assoc]
    constructor
    · rintro (rfl | ⟨⟨ho, ho'⟩, hl⟩)
      · exact ⟨⟨rfl, hn⟩, Nat.le_refl _⟩
      · exact ⟨⟨ho, ho'⟩, (starts_cases hn.word hn.ends ho ho').2 (.inr hl)⟩
    · rintro ⟨⟨ho, ho'⟩, hl⟩
      exact ((starts_cases hn.word hn.ends ho ho').1 hl).imp_right fun hl => ⟨⟨ho, ho'⟩, hl⟩
  · refine List.pairwise_cons.2 ⟨fun o ho => ?_, h.order⟩
    have hl := ((h.mem o).1 ho).2
    have hrun : 0 < run.length := List.length_pos_of_ne_nil hn.nonempty
    rw [List.length_append] at hl
    show done.length < o.before.length
    omega

/-- A run that is no identifier is passed over. -/
theorem Finds.pass (hw : ∀ b ∈ run, isWordByte b = true) (hr : ∀ b ∈ rest.head?, isWordByte b = false)
    (hn : ¬Occurrence.IsName ⟨done, run, rest⟩)
    (h : Finds (done ++ run) rest os) : Finds done (run ++ rest) os := by
  refine ⟨fun o => ?_, h.order⟩
  rw [h.mem, List.append_assoc]
  refine and_congr_right ?_
  rintro ⟨ho, ho'⟩
  rw [starts_cases hw hr ho ho', or_iff_right]
  rintro rfl
  exact hn ho'

/-! ## The scanner -/

/-- What is done ends in the character before, if there is one, as far as words can tell. -/
structure EndsIn (done : List UInt8) (before : Option Char) : Prop where
  noWord : ∀ b ∈ done.getLast?, isWordByte b = false
  hash : done.getLast? = some 0x23 ↔ before = some '#'

/-- The bytes of the identifiers among words. -/
def nameBytes (ws : List Word) : List (List UInt8) := (ws.filter Word.isName).map fun w => utf8 w.chars

variable {before : Option Char} {cs : List Char}

theorem isWordByte_utf8 (h : ∀ c ∈ cs, isWordChar c = true) : ∀ b ∈ utf8 cs, isWordByte b = true := by
  intro b hb
  obtain ⟨c, hc, hbc⟩ := List.mem_flatMap.1 hb
  obtain ⟨b', he, hw, -⟩ := utf8_singleton_word (h c hc)
  rw [utf8, List.flatMap_singleton] at he
  rw [he, List.mem_singleton] at hbc
  rwa [hbc]

/-- A run of word characters is an identifier exactly when its bytes are. -/
theorem isName_iff {w : List Char} (hw : ∀ c ∈ w, isWordChar c = true) (hne : w ≠ []) (hd : EndsIn done before)
    (hr : ∀ b ∈ rest.head?, isWordByte b = false) :
    Word.isName ⟨before, w⟩ = true ↔ Occurrence.IsName ⟨done, utf8 w, rest⟩ := by
  obtain ⟨c, w, rfl⟩ := List.exists_cons_of_ne_nil hne
  obtain ⟨b, hb, hbw, hs⟩ := utf8_singleton_word (hw c (List.mem_cons_self ..))
  have hu : utf8 (c :: w) = b :: utf8 w := by
    rw [← List.singleton_append, utf8_append, hb, List.singleton_append]
  have hh : before ≠ some '#' ↔ done.getLast? ≠ some 0x23 := not_congr hd.hash.symm
  rw [Word.isName, Bool.and_eq_true, bne_iff_ne, hh, List.head?_cons, Option.any_some, hs, Bool.not_eq_true']
  constructor
  · rintro ⟨h1, h2⟩
    exact ⟨by simp [hu], isWordByte_utf8 hw, hd.noWord, hr, by simpa [hu] using h1, h2⟩
  · intro h
    exact ⟨h.noDigit b (by simp [hu]), h.noHash⟩

/-- At the end of a run it is found if it is an identifier. -/
theorem finds_closeWord {w : List Char} (hw : ∀ c ∈ w, isWordChar c = true) (hd : EndsIn done before)
    (hr : ∀ b ∈ rest.head?, isWordByte b = false) (h : Finds (done ++ utf8 w.reverse) rest os) :
    ∃ os', Finds done (utf8 w.reverse ++ rest) os' ∧
      os'.map (·.run) = nameBytes (closeWord before w) ++ os.map (·.run) := by
  rcases w with _ | ⟨c, w⟩
  · exact ⟨os, by simpa using h, rfl⟩
  · have hw' : ∀ d ∈ (c :: w).reverse, isWordChar d = true := fun d hd => hw d (List.mem_reverse.1 hd)
    have hiff := isName_iff hw' (by simp) hd hr
    have hc : closeWord before (c :: w) = [⟨before, (c :: w).reverse⟩] := rfl
    rw [hc, nameBytes]
    by_cases hn : Word.isName ⟨before, (c :: w).reverse⟩ = true
    · rw [List.filter_cons_of_pos hn]
      exact ⟨_, h.name (hiff.1 hn), rfl⟩
    · rw [List.filter_cons_of_neg hn]
      exact ⟨os, h.pass (isWordByte_utf8 hw') hr fun h => hn (hiff.2 h), rfl⟩

theorem finds_wordsFrom (cs : List Char) : ∀ (w : List Char) (done : List UInt8) (before : Option Char),
    (∀ c ∈ w, isWordChar c = true) → EndsIn done before →
      ∃ os, Finds done (utf8 w.reverse ++ utf8 cs) os ∧ os.map (·.run) = nameBytes (wordsFrom before w cs) := by
  induction cs with
  | nil =>
    intro w done before hw hd
    have hr : ∀ b ∈ ([] : List UInt8).head?, isWordByte b = false := by simp
    obtain ⟨os, ho, hm⟩ := finds_closeWord hw hd hr (finds_nil _)
    exact ⟨os, ho, by rw [hm, wordsFrom, List.map_nil, List.append_nil]⟩
  | cons c cs ih =>
    intro w done before hw hd
    have hcs : utf8 (c :: cs) = utf8 [c] ++ utf8 cs := utf8_append [c] cs
    rw [wordsFrom]
    split
    · rename_i hc
      obtain ⟨os, ho, hm⟩ := ih _ _ _ (List.forall_mem_cons.2 ⟨hc, hw⟩) hd
      rw [List.reverse_cons, utf8_append, List.append_assoc, ← hcs] at ho
      exact ⟨os, ho, hm⟩
    · rename_i hc
      obtain ⟨hsign, hhash⟩ := utf8_singleton_sign (by simpa using hc)
      have hne : utf8 [c] ≠ [] := fun he => by
        have := length_le_utf8 [c]
        rw [he] at this
        cases this
      have hlast : (done ++ utf8 w.reverse ++ utf8 [c]).getLast? = (utf8 [c]).getLast? := by
        rw [List.getLast?_append, Option.or_of_isSome]
        simpa using hne
      -- the character ends the run, and after it a new one may start
      obtain ⟨os, ho, hm⟩ := ih [] (done ++ utf8 w.reverse ++ utf8 [c]) (some c)
        (List.forall_mem_nil _) ⟨fun b hb => hsign b (List.mem_of_getLast? (hlast ▸ hb)), by rw [hlast, hhash]; simp⟩
      have hr : ∀ b ∈ (utf8 [c] ++ utf8 cs).head?, isWordByte b = false := by
        obtain ⟨b, bs, hb⟩ := List.exists_cons_of_ne_nil hne
        rw [hb]
        rintro _ ⟨⟩
        exact hsign b (by rw [hb]; exact List.mem_cons_self ..)
      obtain ⟨os', ho', hm'⟩ := finds_closeWord hw hd hr (Finds.skips hsign ho)
      rw [hcs]
      refine ⟨os', ho', ?_⟩
      rw [hm', hm, nameBytes, nameBytes, nameBytes, List.filter_append, List.map_append]

/-- The `identifiers` of a body are exactly the longest runs of letters, digits and underscores among its bytes
that start with no digit and come right after no `#`, each as often as it stands there and in that order. -/
theorem identifiers_exactly (body : String) : ∃ os : List Occurrence,
    (∀ o, o ∈ os ↔ o.bytes = body.toUTF8.data.toList ∧ o.IsName) ∧
    os.Pairwise (fun o o' => o.before.length < o'.before.length) ∧
    (identifiers body).map (fun name => name.toUTF8.data.toList) = os.map (·.run) := by
  obtain ⟨os, ho, hm⟩ := finds_wordsFrom body.toList [] [] none
    (List.forall_mem_nil _) ⟨by simp, by simp⟩
  refine ⟨os, fun o => ?_, ho.order, ?_⟩
  · rw [ho.mem, toUTF8_eq]
    exact and_iff_left (Nat.zero_le _)
  · rw [hm, identifiers, nameBytes, words, List.map_map]
    refine List.map_congr_left fun w _ => ?_
    rw [Function.comp_apply, toUTF8_eq, String.toList_ofList]

/-- Digits belong to the word they start, `##` leaves the name after it out, and a letter outside ASCII ends a
word. -/
example : identifiers "a1 2b #c d##e_f é_gé x" = ["a1", "d", "_g", "x"] := by decide

end NamedDispatch.Text
