/-
Texts with a part replaced, wherever it stands, from left to right. A part that stands in a text once only is
replaced there and nowhere else. This can be seen from a character that the texts before and after it do not
have: the first one of the part, or, for a call, the one that follows its opening parenthesis.
-/
import NamedDispatch.Proofs.Text.Words

namespace NamedDispatch.Text

/-- Replaces a part; some of the first characters are still of the one replaced last. -/
def replaceFrom (part new : List Char) : Nat → List Char → List Char
  | _, [] => []
  | n + 1, _ :: cs => replaceFrom part new n cs
  | 0, c :: cs =>
    if part.isPrefixOf (c :: cs) then new ++ replaceFrom part new (part.length - 1) cs
    else c :: replaceFrom part new 0 cs

/-- The text with `new` in place of the part, wherever this stands. -/
def replace (part new s : String) : String := String.ofList (replaceFrom part.toList new.toList 0 s.toList)

variable {part new before rest after : List Char}

/-! ## A part that stands once -/

theorem replaceFrom_length (part new cs rest : List Char) :
    replaceFrom part new cs.length (cs ++ rest) = replaceFrom part new 0 rest := by
  induction cs with
  | nil => rfl
  | cons c cs ih => exact ih

theorem replaceFrom_part (hp : part ≠ []) (new rest : List Char) :
    replaceFrom part new 0 (part ++ rest) = new ++ replaceFrom part new 0 rest := by
  cases part with
  | nil => exact absurd rfl hp
  | cons c cs =>
    have hc : (c :: cs).isPrefixOf (c :: (cs ++ rest)) = true :=
      List.isPrefixOf_iff_prefix.2 (List.prefix_append (c :: cs) rest)
    rw [List.cons_append, replaceFrom, if_pos hc, List.length_cons, Nat.add_sub_cancel, replaceFrom_length]

/-- The part begins nowhere in the characters before the others. -/
def BeginsAfter (part before rest : List Char) : Prop := ∀ s, s ≠ [] → s <:+ before → ¬part <+: s ++ rest

theorem replaceFrom_before (h : BeginsAfter part before rest) (new : List Char) :
    replaceFrom part new 0 (before ++ rest) = before ++ replaceFrom part new 0 rest := by
  induction before with
  | nil => rfl
  | cons c cs ih =>
    have hc : ¬part.isPrefixOf (c :: (cs ++ rest)) = true := fun hp =>
      h (c :: cs) (List.cons_ne_nil c cs) (List.suffix_refl _) (List.isPrefixOf_iff_prefix.1 hp)
    rw [List.cons_append, replaceFrom, if_neg hc,
      ih fun s hs hsuf => h s hs (hsuf.trans (List.suffix_cons c cs)), List.cons_append]

theorem replaceFrom_absent (h : ¬part <:+: after) (new : List Char) : replaceFrom part new 0 after = after := by
  have hb : BeginsAfter part after [] := fun s _ hs hp => by
    rw [List.append_nil] at hp
    exact h (hp.isInfix.trans hs.isInfix)
  have := replaceFrom_before hb new
  rwa [List.append_nil, replaceFrom, List.append_nil] at this

theorem replace_once {part before after : String} (hp : part.toList ≠ [])
    (hb : BeginsAfter part.toList before.toList (part.toList ++ after.toList)) (ha : ¬part.toList <:+: after.toList)
    (new : String) : replace part new (before ++ part ++ after) = before ++ new ++ after := by
  rw [replace, String.toList_append, String.toList_append, List.append_assoc, replaceFrom_before hb,
    replaceFrom_part hp, replaceFrom_absent ha, ← List.append_assoc, String.ofList_append, String.ofList_append,
    String.ofList_toList, String.ofList_toList, String.ofList_toList]

/-! ## Parts with a mark -/

theorem not_mem_ofList {c : Char} {cs : List Char} (h : cs.contains c = false) : c ∉ (String.ofList cs).toList := by
  rw [String.toList_ofList]
  intro hm
  rw [List.contains_iff_mem.2 hm] at h
  cases h

theorem not_mem_append {c : Char} {s t : String} (hs : c ∉ s.toList) (ht : c ∉ t.toList) : c ∉ (s ++ t).toList := by
  rw [String.toList_append]
  exact fun hm => (List.mem_append.1 hm).elim hs ht

/-- A part with a first character that the texts around it do not have. -/
theorem replace_of_head {part before after : String} {c : Char} (hc : part.toList.head? = some c)
    (hb : c ∉ before.toList) (ha : c ∉ after.toList) (new : String) :
    replace part new (before ++ part ++ after) = before ++ new ++ after := by
  obtain ⟨cs, hcs⟩ := List.head?_eq_some_iff.1 hc
  refine replace_once (by rw [hcs]; exact List.cons_ne_nil c cs) (fun s hs hsuf hp => ?_) (fun hi => ?_) new
  · obtain ⟨d, ds, rfl⟩ := List.exists_cons_of_ne_nil hs
    rw [hcs, List.cons_append, List.cons_prefix_cons] at hp
    exact hb (hsuf.subset (hp.1 ▸ List.mem_cons_self ..))
  · exact ha (hi.subset (hcs ▸ List.mem_cons_self ..))

/-- A call begins nowhere in a text that ends in a blank, if its parenthesis is followed by a character that
the text does not have. -/
theorem beginsAfter_call {w args : List Char} {d : Char} (hw : ∀ c ∈ w, isWordChar c = true)
    (hlast : before.getLast? = some ' ') (hd : d ∉ before) (rest : List Char) :
    BeginsAfter (w ++ '(' :: d :: args) before rest := by
  rintro s hs hsuf ⟨t, ht⟩
  have hends : s.getLast? = some ' ' := by
    rw [← hlast]
    obtain ⟨front, rfl⟩ := hsuf
    rw [List.getLast?_append, List.getLast?_eq_some_getLast hs]
    rfl
  obtain ⟨s, rfl⟩ := List.getLast?_eq_some_iff.1 hends
  have hs' : d ∉ s ++ [' '] := fun hm => hd (hsuf.subset hm)
  rw [List.append_assoc, List.append_assoc, List.append_eq_append_iff] at ht
  -- the blank stands after the parenthesis, and so does what follows that, or the blank stands in the word
  rcases ht with ⟨u, rfl, hu⟩ | ⟨u, rfl, hu⟩
  · rcases u with _ | ⟨x, _ | ⟨y, u⟩⟩
    · cases hu
    · obtain ⟨rfl, htail⟩ := List.cons.inj hu
      obtain ⟨rfl, -⟩ := List.cons.inj htail
      exact hs' (by simp)
    · obtain ⟨rfl, htail⟩ := List.cons.inj hu
      obtain ⟨rfl, -⟩ := List.cons.inj htail
      exact hs' (by simp)
  · cases u with
    | nil => cases hu
    | cons x u =>
      obtain ⟨rfl, -⟩ := List.cons.inj hu
      exact absurd (hw ' ' (List.mem_append_right _ (List.mem_cons_self ..))) (by decide)

/-- A call of a macro is replaced where it stands between texts that have no such call. -/
theorem replace_call {w args before after : String} {d : Char} {ds : List Char} (hw : isIdentifier w = true)
    (hargs : args.toList = '(' :: d :: ds) (hlast : before.toList.getLast? = some ' ') (hb : d ∉ before.toList)
    (ha : d ∉ after.toList) (new : String) :
    replace (w ++ args) new (before ++ (w ++ args) ++ after) = before ++ new ++ after := by
  have hp : (w ++ args).toList = w.toList ++ '(' :: d :: ds := by rw [String.toList_append, hargs]
  have hd : d ∈ (w ++ args).toList := by
    rw [hp]
    exact List.mem_append_right _ (List.mem_cons_of_mem _ (List.mem_cons_self ..))
  refine replace_once (List.ne_nil_of_mem hd) ?_ (fun hi => ha (hi.subset hd)) new
  rw [hp]
  exact beginsAfter_call (all_isWordChar_of_isIdentifier hw) hlast hb _

end NamedDispatch.Text
