/-
Reading numerals. A numeral is one digit or more, perhaps after one plus sign, and what is read from it is its
decimal value, unless that is not below the bound; nothing else is read as a number. In a word of 64 bits the
digits are read one by one, and none is accepted with which the product or the sum would wrap around.
-/
import NamedDispatch.Proofs.Text.Blank
import NamedDispatch.Text.Numeral

namespace NamedDispatch.Text

/-! ## Digits -/

theorem le_ofDigitChars (ds : List Char) (m : Nat) : m ≤ Nat.ofDigitChars 10 ds m := by
  induction ds generalizing m with
  | nil => exact Nat.le_refl m
  | cons d ds ih =>
    rw [Nat.ofDigitChars_cons]
    exact Nat.le_trans (by omega) (ih _)

theorem digitValue?_digit {c : Char} (h : c.isDigit = true) : digitValue? c = some (c.toNat - '0'.toNat) :=
  if_pos h

theorem digitValue?_other {c : Char} (h : c.isDigit = false) : digitValue? c = none :=
  if_neg (by rw [h]; decide)

theorem digitValue?_lt {c : Char} {d : Nat} (h : digitValue? c = some d) : d < 10 := by
  unfold digitValue? at h
  split at h
  · rename_i hc
    rw [Char.isDigit, Bool.and_eq_true, decide_eq_true_iff, decide_eq_true_iff] at hc
    have : c.toNat ≤ 57 := hc.2
    have : '0'.toNat = 48 := rfl
    simp only [Option.some.injEq] at h
    omega
  · cases h

section

variable {bound : Nat}

/-- Digits are read as their decimal value, as long as that is below the bound. -/
theorem readDigits_digits {ds : List Char} (hd : ∀ c ∈ ds, c.isDigit = true) {n : Nat} (hn : n < bound) :
    readDigits bound n ds = if Nat.ofDigitChars 10 ds n < bound then .ok (Nat.ofDigitChars 10 ds n)
      else .error .tooLarge := by
  induction ds generalizing n with
  | nil => rw [readDigits, Nat.ofDigitChars_nil, if_pos hn]
  | cons c ds ih =>
    obtain ⟨hc, hds⟩ := List.forall_mem_cons.1 hd
    rw [readDigits, digitValue?_digit hc, Nat.ofDigitChars_cons]
    simp only
    by_cases hlt : 10 * n + (c.toNat - '0'.toNat) < bound
    · rw [if_pos hlt, ih hds hlt]
    · -- further digits only add to the value
      have := le_ofDigitChars ds (10 * n + (c.toNat - '0'.toNat))
      rw [if_neg hlt, if_neg (by omega)]

theorem readDigits_other {cs : List Char} (h : ∃ c ∈ cs, c.isDigit = false) (n : Nat) :
    ∃ fault, readDigits bound n cs = .error fault ∧ fault ≠ .empty := by
  induction cs generalizing n with
  | nil =>
    obtain ⟨c, hc, -⟩ := h
    cases hc
  | cons c cs ih =>
    rw [readDigits]
    cases hc : c.isDigit
    · rw [digitValue?_other hc]
      exact ⟨.invalidDigit, rfl, nofun⟩
    · rw [digitValue?_digit hc]
      simp only
      split
      · refine ih ?_ _
        obtain ⟨d, hd, hn⟩ := h
        rcases List.mem_cons.1 hd with rfl | hd
        · rw [hc] at hn
          cases hn
        · exact ⟨d, hd, hn⟩
      · exact ⟨.tooLarge, rfl, nofun⟩

/-! ## Numerals -/

/-- The characters are a numeral of the number: digits, perhaps after one plus sign. -/
inductive Numeral : List Char → Nat → Prop
  | plain {ds : List Char} : ds ≠ [] → (∀ c ∈ ds, c.isDigit = true) → Numeral ds (Nat.ofDigitChars 10 ds 0)
  | signed {ds : List Char} : ds ≠ [] → (∀ c ∈ ds, c.isDigit = true) →
    Numeral ('+' :: ds) (Nat.ofDigitChars 10 ds 0)

theorem readNatural_plain {c : Char} (h : c ≠ '+') (cs : List Char) :
    readNatural bound (c :: cs) = readDigits bound 0 (c :: cs) := by
  unfold readNatural
  split
  · rename_i he
    cases he
  · rename_i he
    exact absurd (List.cons.inj he).1 h
  · rename_i he
    exact absurd (List.cons.inj he).1 h
  · rename_i he
    rw [he]

theorem readNatural_signed {ds : List Char} (h : ds ≠ []) :
    readNatural bound ('+' :: ds) = readDigits bound 0 ds := by
  obtain ⟨c, cs, rfl⟩ := List.exists_cons_of_ne_nil h
  rfl

/-- A numeral is read as its number, if that is below the bound. -/
theorem readNatural_numeral {cs : List Char} {n : Nat} (h : Numeral cs n) (hb : 0 < bound) :
    readNatural bound cs = if n < bound then .ok n else .error .tooLarge := by
  cases h with
  | plain hne hd =>
    obtain ⟨c, ds, rfl⟩ := List.exists_cons_of_ne_nil hne
    have hc : c ≠ '+' := by
      rintro rfl
      exact absurd (hd '+' (List.mem_cons_self ..)) (by decide)
    rw [readNatural_plain hc, readDigits_digits hd hb]
  | signed hne hd => rw [readNatural_signed hne, readDigits_digits hd hb]

/-- Nothing but a numeral is read as a number. -/
theorem readNatural_other (bound : Nat) {cs : List Char} (h : ∀ n, ¬Numeral cs n) :
    ∃ fault, readNatural bound cs = .error fault ∧ (fault = .empty ↔ cs = []) := by
  -- among digits that make no numeral there is another character
  have other {ds : List Char} (hn : ¬∀ c ∈ ds, c.isDigit = true) : ∃ fault,
      readDigits bound 0 ds = .error fault ∧ fault ≠ .empty := readDigits_other (by simpa using hn) 0
  cases cs with
  | nil => exact ⟨.empty, rfl, by simp⟩
  | cons c cs =>
    by_cases hc : c = '+'
    · subst hc
      cases cs with
      | nil => exact ⟨.invalidDigit, rfl, by simp⟩
      | cons d ds =>
        obtain ⟨fault, hf, hne⟩ := other fun hd => h _ (.signed (List.cons_ne_nil d ds) hd)
        exact ⟨fault, hf, by simp [hne]⟩
    · obtain ⟨fault, hf, hne⟩ := other fun hd => h _ (.plain (List.cons_ne_nil c cs) hd)
      exact ⟨fault, by rw [readNatural_plain hc, hf], by simp [hne]⟩

end

/-- The text is a numeral of the number, with blanks around it or without. -/
def StandsFor (s : String) (n : Nat) : Prop := ∃ kept, Trims s.toList kept ∧ Numeral kept n

theorem standsFor_iff {s : String} {n : Nat} : StandsFor s n ↔ Numeral (trimChars s.toList) n := by
  constructor
  · rintro ⟨kept, h, hn⟩
    rwa [h.eq]
  · exact fun h => ⟨_, trims_trimChars _, h⟩

/-! ## Reading into a word -/

/-- Neither the product nor the sum wraps around when a digit is read after a word. -/
structure Fits (w : UInt64) (d : Nat) : Prop where
  product : (10 * w).toNat = 10 * w.toNat
  sum : (10 * w + UInt64.ofNat d).toNat = (10 * w).toNat + d

theorem fits_iff {w : UInt64} {d : Nat} (hd : d < 10) : Fits w d ↔ 10 * w.toNat + d < UInt64.size := by
  have hw : (10 * w).toNat = 10 * w.toNat % UInt64.size := UInt64.toNat_mul ..
  have hs : (10 * w + UInt64.ofNat d).toNat = ((10 * w).toNat + (UInt64.ofNat d).toNat) % UInt64.size :=
    UInt64.toNat_add ..
  have hd' : (UInt64.ofNat d).toNat = d := UInt64.toNat_ofNat_of_lt' (by unfold UInt64.size; omega)
  have hlt := (10 * w + UInt64.ofNat d).toNat_lt_size
  constructor
  · rintro ⟨product, sum⟩
    omega
  · intro h
    have product : (10 * w).toNat = 10 * w.toNat := by rw [hw, Nat.mod_eq_of_lt (by omega)]
    exact ⟨product, by rw [hs, hd', Nat.mod_eq_of_lt (by omega)]⟩

/-- Digits are read onto a word one after the other: a digit is accepted when it fits, one that does not is too
large, and the first other character is invalid. -/
inductive ReadsWord : UInt64 → List Char → Except NumeralFault UInt64 → Prop
  | done (w : UInt64) : ReadsWord w [] (.ok w)
  | digit {w : UInt64} {c : Char} {d : Nat} {cs : List Char} {outcome : Except NumeralFault UInt64} :
    digitValue? c = some d → Fits w d → ReadsWord (10 * w + UInt64.ofNat d) cs outcome →
      ReadsWord w (c :: cs) outcome
  | tooLarge {w : UInt64} {c : Char} {d : Nat} {cs : List Char} :
    digitValue? c = some d → ¬Fits w d → ReadsWord w (c :: cs) (.error .tooLarge)
  | invalid {w : UInt64} {c : Char} {cs : List Char} :
    digitValue? c = none → ReadsWord w (c :: cs) (.error .invalidDigit)

/-- Reading numbers below the bound of a word is reading into words. -/
theorem readsWord_readDigits (cs : List Char) (w : UInt64) :
    ReadsWord w cs ((readDigits UInt64.size w.toNat cs).map UInt64.ofNat) := by
  induction cs generalizing w with
  | nil =>
    rw [readDigits, Except.map, UInt64.ofNat_toNat]
    exact .done w
  | cons c cs ih =>
    rw [readDigits]
    cases hd : digitValue? c with
    | none => exact .invalid hd
    | some d =>
      have fits := fits_iff (w := w) (digitValue?_lt hd)
      simp only
      split
      · rename_i hlt
        have hf := fits.2 hlt
        have h := ih (10 * w + UInt64.ofNat d)
        rw [hf.sum, hf.product] at h
        exact .digit hd hf h
      · rename_i hlt
        exact .tooLarge hd (mt fits.1 hlt)

/-- A number is read into a word from the digits after a plus sign or without one. Without any character there is
none, and a sign alone is no number. -/
inductive ReadsNumber : List Char → Except NumeralFault UInt64 → Prop
  | empty : ReadsNumber [] (.error .empty)
  | sign : ReadsNumber ['+'] (.error .invalidDigit)
  | signed {ds : List Char} {outcome : Except NumeralFault UInt64} :
    ds ≠ [] → ReadsWord 0 ds outcome → ReadsNumber ('+' :: ds) outcome
  | plain {c : Char} {cs : List Char} {outcome : Except NumeralFault UInt64} :
    c ≠ '+' → ReadsWord 0 (c :: cs) outcome → ReadsNumber (c :: cs) outcome

theorem readsNumber_readNatural (cs : List Char) :
    ReadsNumber cs ((readNatural UInt64.size cs).map UInt64.ofNat) := by
  cases cs with
  | nil => exact .empty
  | cons c cs =>
    by_cases hc : c = '+'
    · subst hc
      by_cases hne : cs = []
      · subst hne
        exact .sign
      · rw [readNatural_signed hne]
        exact .signed hne (readsWord_readDigits cs 0)
    · rw [readNatural_plain hc]
      exact .plain hc (readsWord_readDigits (c :: cs) 0)

end NamedDispatch.Text
