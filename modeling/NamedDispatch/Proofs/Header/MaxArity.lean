/-
Reading a greatest number of arguments as a user writes it: it is read exactly from the numerals of the numbers
up to the limit, and every other text is refused as no legal number of arguments.
-/
import NamedDispatch.Header.Fault
import NamedDispatch.Proofs.Text.Numeral

namespace NamedDispatch

open Text (StandsFor Trims ReadsNumber)

/-- Why a text is refused: what it stands for is above the limit, or not even below the bound of a word, or it is
no numeral at all. -/
inductive ArityFault.Refuses (raw : String) : ArityFault → Prop
  | aboveLimit {n : Nat} : StandsFor raw n → 4096 < n → n < UInt64.size → Refuses raw (.aboveLimit n)
  | tooLarge {n : Nat} : StandsFor raw n → UInt64.size ≤ n → Refuses raw (.notANumber raw .tooLarge)
  | blank : Text.isBlankText raw = true → Refuses raw (.notANumber raw .empty)
  | other {cause : Text.NumeralFault} : (∀ n, ¬StandsFor raw n) → Text.isBlankText raw = false → cause ≠ .empty →
    Refuses raw (.notANumber raw cause)

variable {raw : String}

/-- What `readMaxArity` makes of a number that is read, and of a fault. -/
theorem readMaxArity_eq : readMaxArity raw =
    match Text.readNatural UInt64.size (Text.trimChars raw.toList) with
    | .error cause => .error (.invalidArity (.notANumber raw cause))
    | .ok n => if (UInt64.ofNat n).toNat ≤ 4096 then .ok (UInt64.ofNat n)
      else .error (.invalidArity (.aboveLimit (UInt64.ofNat n).toNat)) := by
  rw [readMaxArity, Text.trim, String.toList_ofList]
  cases Text.readNatural UInt64.size (Text.trimChars raw.toList) with
  | error cause => rfl
  | ok n =>
    simp only [checkMaxArity]
    by_cases h : (UInt64.ofNat n).toNat ≤ 4096
    · rw [if_pos h, if_pos (show (UInt64.ofNat n).toNat ≤ maxArityLimit from h)]
      rfl
    · rw [if_neg h, if_neg (show ¬(UInt64.ofNat n).toNat ≤ maxArityLimit from h)]
      rfl

theorem readMaxArity_standsFor {n : Nat} (h : StandsFor raw n) : readMaxArity raw =
    if n ≤ 4096 then .ok (UInt64.ofNat n)
    else .error (.invalidArity (if n < UInt64.size then .aboveLimit n else .notANumber raw .tooLarge)) := by
  have hsize : 4096 < UInt64.size := by decide
  rw [readMaxArity_eq, Text.readNatural_numeral (Text.standsFor_iff.1 h) (by decide)]
  by_cases hn : n < UInt64.size
  · rw [if_pos hn, if_pos hn]
    simp only [UInt64.toNat_ofNat_of_lt' hn]
  · rw [if_neg hn, if_neg hn, if_neg (by omega)]

theorem readMaxArity_other (h : ∀ n, ¬StandsFor raw n) :
    ∃ cause, readMaxArity raw = .error (.invalidArity (.notANumber raw cause)) ∧
      (cause = .empty ↔ Text.isBlankText raw = true) := by
  obtain ⟨cause, hc, he⟩ := Text.readNatural_other UInt64.size fun n hn => h n (Text.standsFor_iff.2 hn)
  refine ⟨cause, by rw [readMaxArity_eq, hc], ?_⟩
  rw [he, Text.trimChars_eq_nil_iff]
  rfl

theorem readMaxArity_ok_iff {n : UInt64} :
    readMaxArity raw = .ok n ↔ StandsFor raw n.toNat ∧ n.toNat ≤ 4096 := by
  have hsize : 4096 < UInt64.size := by decide
  constructor
  · intro h
    by_cases hr : ∃ m, StandsFor raw m
    · obtain ⟨m, hm⟩ := hr
      rw [readMaxArity_standsFor hm] at h
      split at h
      · rename_i hle
        cases h
        rw [UInt64.toNat_ofNat_of_lt' (by omega)]
        exact ⟨hm, hle⟩
      · cases h
    · obtain ⟨cause, hc, -⟩ := readMaxArity_other (not_exists.1 hr)
      rw [hc] at h
      cases h
  · rintro ⟨hn, hle⟩
    rw [readMaxArity_standsFor hn, if_pos hle, UInt64.ofNat_toNat]

/-- A text is refused as no legal number of arguments, with the cause that it has. -/
theorem readMaxArity_refuses {fault : HeaderFault} (h : readMaxArity raw = .error fault) :
    ∃ cause, fault = .invalidArity cause ∧ cause.Refuses raw := by
  by_cases hr : ∃ m, StandsFor raw m
  · obtain ⟨m, hm⟩ := hr
    rw [readMaxArity_standsFor hm] at h
    split at h
    · cases h
    · rename_i hle
      cases h
      refine ⟨_, rfl, ?_⟩
      split
      · rename_i hlt
        exact .aboveLimit hm (by omega) hlt
      · rename_i hlt
        exact .tooLarge hm (by omega)
  · obtain ⟨cause, hc, he⟩ := readMaxArity_other (not_exists.1 hr)
    rw [hc] at h
    cases h
    refine ⟨_, rfl, ?_⟩
    by_cases hb : Text.isBlankText raw = true
    · rw [he.2 hb]
      exact .blank hb
    · exact .other (not_exists.1 hr) (by simpa using hb) (mt he.1 hb)

/-- A number is read by `readMaxArity` exactly when the text is a numeral of it, with blanks around it or
without, and it is not above the limit. Any other text is refused by `invalidArity`. What is read is read into a
word of 64 bits, and on the way no digit is accepted with which a product or a sum would wrap around. -/
theorem readMaxArity_outcome (raw : String) :
    (∀ n : UInt64, readMaxArity raw = .ok n ↔ StandsFor raw n.toNat ∧ n.toNat ≤ 4096) ∧
    (∀ fault, readMaxArity raw = .error fault → ∃ cause, fault = .invalidArity cause ∧ cause.Refuses raw) ∧
    ∃ kept outcome, Trims raw.toList kept ∧ ReadsNumber kept outcome ∧ readMaxArity raw =
      match outcome with
      | .ok w => if w.toNat ≤ 4096 then .ok w else .error (.invalidArity (.aboveLimit w.toNat))
      | .error cause => .error (.invalidArity (.notANumber raw cause)) := by
  refine ⟨fun n => readMaxArity_ok_iff, fun fault h => readMaxArity_refuses h, ?_⟩
  refine ⟨_, _, Text.trims_trimChars _, Text.readsNumber_readNatural _, ?_⟩
  rw [readMaxArity_eq]
  cases Text.readNatural UInt64.size (Text.trimChars raw.toList) <;> rfl

end NamedDispatch
