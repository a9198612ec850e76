/-
Strings and integers are read back. A string is read byte by byte: an escaped character in one step,
any other one in a step for each of its bytes, since none of these is a quote, a backslash or a control.
The digits of an integer are read onto the significand as long as it fits 64 bits, which it does to the end.
-/
import NamedDispatch.Json.Write
import NamedDispatch.Proofs.Json.Reads
import NamedDispatch.Proofs.Text.Numeral

namespace NamedDispatch.Json.Reader

open Text (utf8 utf8_append utf8_cons)

variable {rest : List UInt8} {p : Place} {steps : Steps} {before : List UInt8}

/-! ## Bytes of a string -/

/-- A byte that stands for itself in a string. -/
structure Plain (b : UInt8) : Prop where
  noQuote : b ≠ 0x22
  noBackslash : b ≠ 0x5C
  noControl : 0x20 ≤ b.toNat

theorem toNat_charOf (b : UInt8) : (Char.ofNat b.toNat).toNat = b.toNat := by
  have hb : b.toNat.isValidChar := .inl (Nat.lt_trans b.toNat_lt (by decide))
  rw [Char.ofNat, dif_pos hb]
  rfl

theorem charOf_ne {b : UInt8} {x : Char} (h : b ≠ UInt8.ofNat x.toNat) : Char.ofNat b.toNat ≠ x := by
  rintro rfl
  rw [toNat_charOf, UInt8.ofNat_toNat] at h
  exact h rfl

theorem stringBytes_plain {b s : UInt8} (hb : Plain b) (rest : List UInt8) (p : Place) :
    stringBytes (s :: steps) before ⟨b :: rest, p⟩ = stringBytes steps (b :: before) ⟨rest, p.after b⟩ := by
  have hq : Char.ofNat b.toNat ≠ '"' := charOf_ne hb.noQuote
  have hs : Char.ofNat b.toNat ≠ '\\' := charOf_ne hb.noBackslash
  rw [stringBytes, bind_ok (peek_byte b rest p)]
  simp only
  rw [bind_ok (skip_byte b rest p), toNat_charOf, if_neg (Nat.not_lt.2 hb.noControl), UInt8.ofNat_toNat]

theorem stringBytes_plains {bs : List UInt8} (hb : ∀ b ∈ bs, Plain b) (hs : bs.length ≤ steps.length)
    (rest : List UInt8) (p : Place) : stringBytes steps before ⟨bs ++ rest, p⟩ =
      stringBytes (steps.drop bs.length) (bs.reverse ++ before) ⟨rest, bs.foldl Place.after p⟩ := by
  induction bs generalizing steps before p with
  | nil => rfl
  | cons b bs ih =>
    cases steps with
    | nil => cases hs
    | cons s steps =>
      obtain ⟨hb1, hbs⟩ := List.forall_mem_cons.1 hb
      rw [List.cons_append, stringBytes_plain hb1, ih hbs (Nat.le_of_succ_le_succ hs), List.reverse_cons,
        List.append_assoc]
      rfl

theorem stringBytes_escape {s : UInt8} {cs : List Char} {out : List UInt8} {c' : Cursor}
    (h : escape ⟨utf8 cs ++ rest, p.past ['\\']⟩ = .ok out c') :
    stringBytes (s :: steps) before ⟨utf8 ('\\' :: cs) ++ rest, p⟩ = stringBytes steps (out.reverse ++ before) c' := by
  rw [stringBytes, bind_ok (peek_cons (by decide) cs rest p)]
  simp only
  rw [bind_ok (skip_cons (by decide) cs rest p), bind_ok h]

/-! ## Characters -/

theorem plain_of_mem_utf8EncodeChar {c : Char} (hq : c ≠ '"') (hs : c ≠ '\\') (hc : 0x20 ≤ c.toNat) {b : UInt8}
    (hb : b ∈ String.utf8EncodeChar c) : Plain b := by
  by_cases ha : c.toNat < 128
  · have hu := Text.utf8_cons ha []
    rw [utf8, List.flatMap_singleton] at hu
    rw [hu, Text.utf8_nil, List.mem_singleton] at hb
    subst hb
    have hchar := Text.char_of_byte ha
    refine ⟨fun h => hq ?_, fun h => hs ?_, ?_⟩
    · rw [← hchar, h]
      rfl
    · rw [← hchar, h]
      rfl
    · rw [← toNat_charOf, hchar]
      exact hc
  · have h8 := Text.le_of_mem_utf8EncodeChar (Nat.not_lt.1 ha) hb
    refine ⟨?_, ?_, by omega⟩ <;>
    · rintro rfl
      exact absurd h8 (by decide)

/-! ### Escapes -/

theorem hexDigit_lt (n : Nat) : (hexDigit n).toNat < 128 := by
  have h : ∀ d < 16, (Nat.digitChar d).toNat < 128 := by decide
  exact h _ (Nat.mod_lt n (by decide))

theorem hexValue?_hexDigit (n : Nat) : hexValue? (UInt8.ofNat (hexDigit n).toNat) = some (n % 16) := by
  have h : ∀ d < 16, hexValue? (UInt8.ofNat (Nat.digitChar d).toNat) = some d := by decide
  exact h _ (Nat.mod_lt n (by decide))

/-- The escape of a control is read as its code. -/
theorem unicodeEscape_ok {n : Nat} (hn : n < 0x20) (rest : List UInt8) (p : Place) :
    unicodeEscape ⟨utf8 ['0', '0', hexDigit (n / 16), hexDigit n] ++ rest, p⟩ =
      .ok (codeBytes n) ⟨rest, p.past ['0', '0', hexDigit (n / 16), hexDigit n]⟩ := by
  have hu : utf8 ['0', '0', hexDigit (n / 16), hexDigit n] =
      [0x30, 0x30, UInt8.ofNat (hexDigit (n / 16)).toNat, UInt8.ofNat (hexDigit n).toNat] := by
    rw [utf8_cons (by decide), utf8_cons (by decide), utf8_cons (hexDigit_lt _), utf8_cons (hexDigit_lt _)]
    rfl
  have hq : hexQuad? 0x30 0x30 (UInt8.ofNat (hexDigit (n / 16)).toNat) (UInt8.ofNat (hexDigit n).toNat) = some n := by
    have h0 : hexValue? 0x30 = some 0 := by decide
    rw [hexQuad?, h0, hexValue?_hexDigit, hexValue?_hexDigit]
    refine congrArg some ?_
    omega
  have hc : hexCode ⟨utf8 ['0', '0', hexDigit (n / 16), hexDigit n] ++ rest, p⟩ =
      .ok n ⟨rest, p.past ['0', '0', hexDigit (n / 16), hexDigit n]⟩ := by
    rw [Place.past, hu]
    simp only [List.cons_append, List.nil_append, hexCode]
    rw [hq]
    rfl
  rw [unicodeEscape, bind_ok hc, if_neg (by omega), if_pos (by omega)]
  rfl

/-- What follows the backslash of a character that is written with one. -/
def EscapedAs (c : Char) (tail : List Char) : Prop :=
  ∀ rest p, escape ⟨utf8 tail ++ rest, p⟩ = .ok (utf8 [c]) ⟨rest, p.past tail⟩

theorem escapedAs_letter {c x : Char} {b : UInt8} (hx : x.toNat < 128)
    (h : (x, b) ∈ [('"', 0x22), ('\\', 0x5C), ('b', 0x08), ('f', 0x0C), ('n', 0x0A), ('r', 0x0D), ('t', 0x09)])
    (hc : utf8 [c] = [b]) : EscapedAs c [x] := by
  intro rest p
  rw [escape, bind_ok (next_cons hx [] rest p), hc]
  simp only [List.mem_cons, Prod.mk.injEq, List.not_mem_nil, or_false] at h
  rcases h with ⟨rfl, rfl⟩ | ⟨rfl, rfl⟩ | ⟨rfl, rfl⟩ | ⟨rfl, rfl⟩ | ⟨rfl, rfl⟩ | ⟨rfl, rfl⟩ | ⟨rfl, rfl⟩ <;> rfl

theorem escapedAs_control {c : Char} (hc : c.toNat < 0x20) :
    EscapedAs c ['u', '0', '0', hexDigit (c.toNat / 16), hexDigit c.toNat] := by
  intro rest p
  have hb : codeBytes c.toNat = utf8 [c] := by
    rw [codeBytes, Char.ofNat_toNat, utf8, List.flatMap_singleton]
  rw [escape, bind_ok (next_cons (by decide) _ rest p)]
  simp only
  rw [unicodeEscape_ok hc, hb, ← Place.past_cons]

/-- A character is written with a backslash, or its own bytes stand for themselves. -/
theorem escapedChar_cases (c : Char) : (∃ tail, escapedChar c = '\\' :: tail ∧ EscapedAs c tail) ∨
    (escapedChar c = [c] ∧ ∀ b ∈ utf8 [c], Plain b) := by
  unfold escapedChar
  split
  · exact .inl ⟨_, rfl, escapedAs_letter (x := '"') (b := 0x22) (by decide) (by decide) rfl⟩
  · exact .inl ⟨_, rfl, escapedAs_letter (x := '\\') (b := 0x5C) (by decide) (by decide) rfl⟩
  · exact .inl ⟨_, rfl, escapedAs_letter (x := 'b') (b := 0x08) (by decide) (by decide) rfl⟩
  · exact .inl ⟨_, rfl, escapedAs_letter (x := 'f') (b := 0x0C) (by decide) (by decide) rfl⟩
  · exact .inl ⟨_, rfl, escapedAs_letter (x := 'n') (b := 0x0A) (by decide) (by decide) rfl⟩
  · exact .inl ⟨_, rfl, escapedAs_letter (x := 'r') (b := 0x0D) (by decide) (by decide) rfl⟩
  · exact .inl ⟨_, rfl, escapedAs_letter (x := 't') (b := 0x09) (by decide) (by decide) rfl⟩
  · rename_i hq hs _ _ _ _ _
    split
    · rename_i hc
      exact .inl ⟨_, rfl, escapedAs_control hc⟩
    · rename_i hc
      refine .inr ⟨rfl, fun b hb => ?_⟩
      rw [utf8, List.flatMap_singleton] at hb
      exact plain_of_mem_utf8EncodeChar hq hs (Nat.not_lt.1 hc) hb

/-- What stands for a character is read as the bytes of the character. -/
theorem stringBytes_char (steps : Steps) (before : List UInt8) (c : Char)
    (hs : (utf8 (escapedChar c)).length ≤ steps.length) (rest : List UInt8) (p : Place) :
    ∃ steps' : Steps, steps.length ≤ steps'.length + (utf8 (escapedChar c)).length ∧
      stringBytes steps before ⟨utf8 (escapedChar c) ++ rest, p⟩ =
        stringBytes steps' ((utf8 [c]).reverse ++ before) ⟨rest, p.past (escapedChar c)⟩ := by
  rcases escapedChar_cases c with ⟨tail, he, ht⟩ | ⟨he, hp⟩
  · cases steps with
    | nil =>
      rw [he, utf8_cons (by decide)] at hs
      cases hs
    | cons s steps =>
      refine ⟨steps, ?_, ?_⟩
      · rw [he, utf8_cons (by decide), List.length_cons, List.length_cons]
        omega
      · rw [he, stringBytes_escape (ht rest _), ← Place.past_cons]
  · rw [he] at hs ⊢
    refine ⟨steps.drop (utf8 [c]).length, ?_, stringBytes_plains hp hs rest p⟩
    rw [List.length_drop]
    omega

/-! ## Strings -/

theorem stringBytes_chars (cs : List Char) (hs : (utf8 (cs.flatMap escapedChar)).length < steps.length)
    (rest : List UInt8) (p : Place) : stringBytes steps before ⟨utf8 (cs.flatMap escapedChar ++ ['"']) ++ rest, p⟩ =
      .ok (before.reverse ++ utf8 cs) ⟨rest, p.past (cs.flatMap escapedChar ++ ['"'])⟩ := by
  induction cs generalizing steps before p with
  | nil =>
    cases steps with
    | nil => cases hs
    | cons s steps =>
      rw [List.flatMap_nil, List.nil_append, stringBytes, bind_ok (peek_cons (by decide) [] rest p)]
      simp only
      rw [bind_ok (skip_cons (by decide) [] rest p), Text.utf8_nil, List.append_nil]
      rfl
  | cons c cs ih =>
    rw [List.flatMap_cons, utf8_append, List.length_append] at hs
    obtain ⟨steps', hl, he⟩ := stringBytes_char steps before c (by omega)
      (utf8 (cs.flatMap escapedChar ++ ['"']) ++ rest) p
    have hs' : (utf8 (cs.flatMap escapedChar)).length < steps'.length := by omega
    have hc : utf8 (c :: cs) = utf8 [c] ++ utf8 cs := utf8_append [c] cs
    rw [List.flatMap_cons, List.append_assoc, Text.utf8_append_append, he, ih hs', p.past_append (escapedChar c), hc,
      List.reverse_append, List.reverse_reverse, List.append_assoc]

theorem textOfBytes?_utf8 (s : String) : textOfBytes? (utf8 s.toList) = some s := by
  have hb : (⟨(utf8 s.toList).toArray⟩ : ByteArray) = s.toByteArray := by
    rw [← Text.toUTF8_eq, String.toUTF8_eq_toByteArray]
  rw [textOfBytes?, hb, String.fromUTF8?, dif_pos s.isValidUTF8]
  rfl

/-- A string is read after its opening quote. -/
theorem string_ok (s : String) (rest : List UInt8) (p : Place) :
    string ⟨utf8 (s.toList.flatMap escapedChar ++ ['"']) ++ rest, p⟩ =
      .ok s ⟨rest, p.past (s.toList.flatMap escapedChar ++ ['"'])⟩ := by
  have hs : (utf8 (s.toList.flatMap escapedChar)).length <
      (0 :: (utf8 (s.toList.flatMap escapedChar ++ ['"']) ++ rest)).length := by
    rw [utf8_append, List.length_cons, List.length_append, List.length_append]
    omega
  rw [string, bind_ok (stepsLeft_ok _), bind_ok (stringBytes_chars s.toList hs rest p), List.reverse_nil,
    List.nil_append, textOfBytes?_utf8]
  rfl

/-! ## Integers -/

theorem lt_of_isDigit {d : Char} (hd : d.isDigit = true) : d.toNat < 128 := by
  rw [Char.isDigit, Bool.and_eq_true, decide_eq_true_iff, decide_eq_true_iff] at hd
  exact Nat.lt_of_le_of_lt hd.2 (by decide)

theorem solid_digit {d : Char} (hd : d.isDigit = true) : Solid d := by
  have hgap : ∀ n < 58, 48 ≤ n → isGap (UInt8.ofNat n) = false := by decide
  refine ⟨lt_of_isDigit hd, ?_⟩
  rw [Char.isDigit, Bool.and_eq_true, decide_eq_true_iff, decide_eq_true_iff] at hd
  exact hgap d.toNat (Nat.lt_succ_of_le hd.2) hd.1

theorem peekDigit_cons {d : Char} (hd : d.isDigit = true) (cs : List Char) (rest : List UInt8) (p : Place) :
    peekDigit ⟨utf8 (d :: cs) ++ rest, p⟩ = .ok (some (d.toNat - '0'.toNat)) ⟨utf8 (d :: cs) ++ rest, p⟩ := by
  rw [peekDigit, peek_cons (lt_of_isDigit hd)]
  simp only
  rw [if_pos hd]

/-- What follows a number does not go on with it. -/
theorem peek_ends (h : Ends rest) (p : Place) : ∃ next, peek ⟨rest, p⟩ = .ok next ⟨rest, p⟩ ∧
    (next = none ∨ next = some ',' ∨ next = some ']' ∨ next = some '\x7d') := by
  cases rest with
  | nil => exact ⟨none, rfl, .inl rfl⟩
  | cons b rest =>
    refine ⟨_, peek_byte b rest p, ?_⟩
    rcases h b rfl with rfl | rfl | rfl
    · exact .inr (.inl rfl)
    · exact .inr (.inr (.inl rfl))
    · exact .inr (.inr (.inr rfl))

theorem peekDigit_ends (h : Ends rest) (p : Place) : peekDigit ⟨rest, p⟩ = .ok none ⟨rest, p⟩ := by
  obtain ⟨next, hn, hc⟩ := peek_ends h p
  rw [peekDigit, hn]
  rcases hc with rfl | rfl | rfl | rfl <;> rfl

theorem significandDigits_ok {ds : List Char} (hd : ∀ d ∈ ds, d.isDigit = true) {m : Nat}
    (hm : Nat.ofDigitChars 10 ds m < UInt64.size) (hs : ds.length ≤ steps.length) (n : Nat) (h : Ends rest)
    (p : Place) : significandDigits steps m n ⟨utf8 ds ++ rest, p⟩ =
      .ok (Nat.ofDigitChars 10 ds m, n + ds.length) ⟨rest, p.past ds⟩ := by
  induction ds generalizing steps m n p with
  | nil =>
    cases steps with
    | nil => rfl
    | cons s steps =>
      rw [Text.utf8_nil, List.nil_append, significandDigits, bind_ok (peekDigit_ends h p)]
      rfl
  | cons d ds ih =>
    cases steps with
    | nil => cases hs
    | cons s steps =>
      obtain ⟨hd1, hds⟩ := List.forall_mem_cons.1 hd
      have hm' : 10 * m + (d.toNat - '0'.toNat) < UInt64.size := Nat.lt_of_le_of_lt (Text.le_ofDigitChars ds _) hm
      rw [significandDigits, bind_ok (peekDigit_cons hd1 ds rest p)]
      simp only
      rw [if_pos hm', bind_ok (skip_cons (lt_of_isDigit hd1) ds rest p), ih hds hm (Nat.le_of_succ_le_succ hs) (n + 1),
        ← Place.past_cons, Nat.ofDigitChars_cons, List.length_cons, Nat.add_right_comm, Nat.add_assoc]

/-- The numeral of a number begins with a digit, and with zero only for zero. -/
theorem toDigits_cases (n : Nat) : (n = 0 ∧ Nat.toDigits 10 n = ['0']) ∨
    ∃ d ds, Nat.toDigits 10 n = d :: ds ∧ d ≠ '0' := by
  induction n using Nat.strongRecOn with
  | ind n ih =>
    by_cases hn : n < 10
    · by_cases h0 : n = 0
      · subst h0
        exact .inl ⟨rfl, rfl⟩
      · have hd : ∀ d < 10, d ≠ 0 → Nat.digitChar d ≠ '0' := by decide
        exact .inr ⟨_, [], Nat.toDigits_of_lt_base hn, hd n hn h0⟩
    · rw [Nat.toDigits_of_base_le (by decide) (Nat.not_lt.1 hn)]
      rcases ih (n / 10) (by omega) with ⟨h0, _⟩ | ⟨d, ds, hd, h0⟩
      · omega
      · exact .inr ⟨d, _, congrArg (· ++ _) hd, h0⟩

theorem toDigits_first (n : Nat) : ∃ d ds, Nat.toDigits 10 n = d :: ds ∧ d.isDigit = true := by
  have hds : ∀ d ∈ Nat.toDigits 10 n, d.isDigit = true := fun d => Nat.isDigit_of_mem_toDigits (by decide) (by decide)
  obtain ⟨d, ds, hd⟩ := List.exists_cons_of_ne_nil (Nat.toDigits_ne_nil (n := n) (b := 10))
  exact ⟨d, ds, hd, hds d (hd ▸ List.mem_cons_self ..)⟩

theorem integer_natural {w : Whole} {n : Nat} (hw : w.val = .ofNat n) (c : Cursor) :
    integer false n c = .ok (.int w) c := by
  obtain ⟨v, hl, hm⟩ := w
  subst hw
  unfold integer
  rw [if_neg Bool.false_ne_true, dif_pos (Int.ofNat_lt.1 hm)]
  rfl

theorem integer_negative {w : Whole} {n : Nat} (hw : w.val = .negSucc n) (c : Cursor) :
    integer true (n + 1) c = .ok (.int w) c := by
  obtain ⟨v, hl, hm⟩ := w
  subst hw
  have hn : n + 1 ≤ 9223372036854775808 := by omega
  rw [integer, if_pos rfl, dif_pos hn]
  · rfl
  · exact fun h => absurd h (Nat.succ_ne_zero n)

theorem afterInteger_ends (negative : Bool) (n : Nat) (h : Ends rest) (p : Place) :
    afterInteger negative n ⟨rest, p⟩ = integer negative n ⟨rest, p⟩ := by
  obtain ⟨next, hn, hc⟩ := peek_ends h p
  rw [afterInteger, bind_ok hn]
  rcases hc with rfl | rfl | rfl | rfl <;> rfl

/-- The digits of a number of 64 bits are read as this number, after its sign. -/
theorem number_ok (negative : Bool) {n : Nat} (hn : n < UInt64.size) (h : Ends rest) (p : Place) :
    number negative ⟨utf8 (Nat.toDigits 10 n) ++ rest, p⟩ = integer negative n ⟨rest, p.past (Nat.toDigits 10 n)⟩ := by
  rcases toDigits_cases n with ⟨rfl, hd⟩ | ⟨d, ds, hd, h0⟩
  · rw [hd, number, bind_ok (next_cons (by decide) [] rest p)]
    simp only
    rw [Text.utf8_nil, List.nil_append, bind_ok (peekDigit_ends h _)]
    exact afterInteger_ends negative 0 h _
  · have hds : ∀ d ∈ Nat.toDigits 10 n, d.isDigit = true := fun d => Nat.isDigit_of_mem_toDigits (by decide) (by decide)
    have hv := Nat.ofDigitChars_ten_toDigits (n := n)
    rw [hd] at hds hv ⊢
    obtain ⟨hd1, hds⟩ := List.forall_mem_cons.1 hds
    rw [Nat.ofDigitChars_cons, Nat.mul_zero, Nat.zero_add] at hv
    have hs : ds.length ≤ (0 :: (utf8 ds ++ rest)).length := by
      have := Text.length_le_utf8 ds
      rw [List.length_cons, List.length_append]
      omega
    have hm := significandDigits_ok hds (hv.symm ▸ hn) hs 0 h (p.past [d])
    rw [number, bind_ok (next_cons (lt_of_isDigit hd1) ds rest p)]
    simp only
    rw [if_pos hd1, bind_ok (stepsLeft_ok _), bind_ok hm, hv, ← Place.past_cons]
    simp only
    rw [bind_ok (peekDigit_ends h _)]
    exact afterInteger_ends negative n h _

end NamedDispatch.Json.Reader
