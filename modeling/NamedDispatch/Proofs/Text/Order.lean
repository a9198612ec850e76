/-
The bytes of a text, which are those of its characters one after the other, and the order of texts, which
is that of their bytes. Where no two elements of a list have the same text, sorting by the texts leaves
one order only, whatever the order was before.
-/
import Mathlib.Data.List.Sort

namespace NamedDispatch.Text

/-! ## Bytes -/

/-- The bytes that characters stand for. -/
def utf8 (cs : List Char) : List UInt8 := cs.flatMap String.utf8EncodeChar

@[simp] theorem utf8_nil : utf8 [] = [] := rfl

theorem utf8_append (cs ds : List Char) : utf8 (cs ++ ds) = utf8 cs ++ utf8 ds := List.flatMap_append ..

theorem utf8_append_append (cs ds : List Char) (rest : List UInt8) :
    utf8 (cs ++ ds) ++ rest = utf8 cs ++ (utf8 ds ++ rest) := by
  rw [utf8_append, List.append_assoc]

/-- A character below 128 is its own byte. -/
theorem utf8_cons {c : Char} (hc : c.toNat < 128) (cs : List Char) :
    utf8 (c :: cs) = UInt8.ofNat c.toNat :: utf8 cs := by
  have h : String.utf8EncodeChar c = [UInt8.ofNat c.toNat] := by
    rw [String.utf8EncodeChar]
    exact if_pos (Nat.le_of_lt_succ hc)
  rw [utf8, List.flatMap_cons, h]
  rfl

theorem length_le_utf8 (cs : List Char) : cs.length ≤ (utf8 cs).length := by
  induction cs with
  | nil => exact Nat.zero_le _
  | cons c cs ih =>
    have hc : 0 < (String.utf8EncodeChar c).length := by
      rw [String.length_utf8EncodeChar]
      exact c.utf8Size_pos
    rw [utf8, List.flatMap_cons, List.length_append, List.length_cons]
    rw [utf8] at ih
    omega

theorem toUTF8_eq (s : String) : s.toUTF8.data.toList = utf8 s.toList := by
  have h := String.toByteArray_ofList (l := s.toList)
  rw [String.ofList_toList] at h
  rw [String.toUTF8_eq_toByteArray, h, List.utf8Encode, List.data_toByteArray]
  rfl

/-- A byte below 128 is the code of its character. -/
theorem char_of_byte {c : Char} (hc : c.toNat < 128) : Char.ofNat (UInt8.ofNat c.toNat).toNat = c := by
  rw [UInt8.toNat_ofNat_of_lt' (Nat.lt_trans hc (by decide)), Char.ofNat_toNat]

/-! ## Order -/

/-- The bytes of a character by the size of its code: one byte, or a first one that says how many follow. -/
theorem utf8EncodeChar_cases (c : Char) :
    (c.toNat < 0x80 ∧ String.utf8EncodeChar c = [.ofNat c.toNat]) ∨
    (0x80 ≤ c.toNat ∧ c.toNat < 0x800 ∧
      String.utf8EncodeChar c = [.ofNat (c.toNat / 64 % 32 + 192), .ofNat (c.toNat % 64 + 128)]) ∨
    (0x800 ≤ c.toNat ∧ c.toNat < 0x10000 ∧ String.utf8EncodeChar c =
      [.ofNat (c.toNat / 4096 % 16 + 224), .ofNat (c.toNat / 64 % 64 + 128), .ofNat (c.toNat % 64 + 128)]) ∨
    (0x10000 ≤ c.toNat ∧ c.toNat < 0x110000 ∧ String.utf8EncodeChar c =
      [.ofNat (c.toNat / 262144 % 8 + 240), .ofNat (c.toNat / 4096 % 64 + 128), .ofNat (c.toNat / 64 % 64 + 128),
        .ofNat (c.toNat % 64 + 128)]) := by
  have bound : c.toNat < 0x110000 := by
    rcases c.valid with h | h
    · exact Nat.lt_trans h (by decide)
    · exact h.2
  have forms : String.utf8EncodeChar c = if c.toNat ≤ 0x7f then _ else if c.toNat ≤ 0x7ff then _ else
    if c.toNat ≤ 0xffff then _ else _ := rfl
  split at forms
  · exact .inl ⟨by omega, forms⟩
  · split at forms
    · exact .inr (.inl ⟨by omega, by omega, forms⟩)
    · split at forms
      · exact .inr (.inr (.inl ⟨by omega, by omega, forms⟩))
      · exact .inr (.inr (.inr ⟨by omega, bound, forms⟩))

/-- A byte of a character that is not below 128 is not below 128 itself. -/
theorem le_of_mem_utf8EncodeChar {c : Char} (hc : 128 ≤ c.toNat) {b : UInt8} (hb : b ∈ String.utf8EncodeChar c) :
    128 ≤ b.toNat := by
  have leading (n m : Nat) (h1 : 128 ≤ m) (h2 : n + m < 256) : 128 ≤ (UInt8.ofNat (n + m)).toNat := by
    rw [UInt8.toNat_ofNat_of_lt' h2]
    omega
  rcases utf8EncodeChar_cases c with ⟨h, _⟩ | ⟨_, _, he⟩ | ⟨_, _, he⟩ | ⟨_, _, he⟩
  · omega
  all_goals
    rw [he] at hb
    simp only [List.mem_cons, List.not_mem_nil, or_false] at hb
  · rcases hb with rfl | rfl <;> exact leading _ _ (by omega) (by omega)
  · rcases hb with rfl | rfl | rfl <;> exact leading _ _ (by omega) (by omega)
  · rcases hb with rfl | rfl | rfl | rfl <;> exact leading _ _ (by omega) (by omega)

/-- The bytes of a smaller character come before those of a greater one, whatever follows. -/
theorem utf8EncodeChar_lt {c d : Char} (h : c < d) (as bs : List UInt8) :
    String.utf8EncodeChar c ++ as < String.utf8EncodeChar d ++ bs := by
  have h : c.toNat < d.toNat := h
  -- the first byte at which the two differ, be it one that says how many follow, decides
  rcases utf8EncodeChar_cases c with ⟨_, hc⟩ | ⟨_, _, hc⟩ | ⟨_, _, hc⟩ | ⟨_, _, hc⟩ <;>
  rcases utf8EncodeChar_cases d with ⟨_, hd⟩ | ⟨_, _, hd⟩ | ⟨_, _, hd⟩ | ⟨_, _, hd⟩ <;>
  simp only [hc, hd, List.cons_append, List.cons_lt_cons_iff, UInt8.lt_iff_toNat_lt, ← UInt8.toNat_inj,
    UInt8.toNat_ofNat'] <;>
  simp (disch := omega) only [Nat.mod_eq_of_lt] <;> omega

/-- Texts are in the order of their bytes. -/
theorem utf8_lt_utf8 {cs ds : List Char} (h : cs < ds) : utf8 cs < utf8 ds := by
  induction cs generalizing ds with
  | nil =>
    cases ds with
    | nil => exact absurd h (List.lt_irrefl [])
    | cons d ds =>
      have hl := length_le_utf8 (d :: ds)
      rcases hb : utf8 (d :: ds) with _ | ⟨b, bs⟩
      · rw [hb] at hl
        exact absurd hl (by simp)
      · exact List.nil_lt_cons b bs
  | cons c cs ih =>
    cases ds with
    | nil => exact absurd h (List.not_lt_nil _)
    | cons d ds =>
      show String.utf8EncodeChar c ++ utf8 cs < String.utf8EncodeChar d ++ utf8 ds
      rcases List.cons_lt_cons_iff.1 h with h | ⟨rfl, h'⟩
      · exact utf8EncodeChar_lt h _ _
      · exact List.append_left_lt (ih h')

/-! ## Sorting by texts -/

section

variable {α : Type} (key : α → String) {l l' : List α}

/-- Elements of different texts are sorted strictly. -/
theorem pairwise_lt_mergeSort (h : (l.map key).Nodup) :
    (l.mergeSort fun a b => decide (key a ≤ key b)).Pairwise fun a b => key a < key b := by
  have sorted : (l.mergeSort fun a b => decide (key a ≤ key b)).Pairwise fun a b => key a ≤ key b := by
    refine (List.pairwise_mergeSort (fun a b c hab hbc => ?_) (fun a b => ?_) l).imp of_decide_eq_true
    · exact decide_eq_true (String.le_trans (of_decide_eq_true hab) (of_decide_eq_true hbc))
    · simpa using String.le_total (key a) (key b)
  have distinct := ((List.mergeSort_perm l fun a b => decide (key a ≤ key b)).map key).nodup_iff.2 h
  refine sorted.imp₂ (fun a b hab hne => ?_) (List.pairwise_map.1 distinct)
  exact String.not_le.1 fun hba => hne (String.le_antisymm hab hba)

theorem mergeSort_eq_of_perm (hp : l.Perm l') (h : (l.map key).Nodup) :
    (l.mergeSort fun a b => decide (key a ≤ key b)) = l'.mergeSort fun a b => decide (key a ≤ key b) := by
  refine List.Perm.eq_of_pairwise (fun a b _ _ hab hba => ?_) (pairwise_lt_mergeSort key h)
    (pairwise_lt_mergeSort key ((hp.map key).nodup_iff.1 h)) ?_
  · exact absurd (String.lt_trans hab hba) (String.lt_irrefl _)
  · exact (List.mergeSort_perm l _).trans (hp.trans (List.mergeSort_perm l' _).symm)

end

end NamedDispatch.Text
