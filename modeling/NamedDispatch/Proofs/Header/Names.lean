/-
The names of the macros of a header: with a legal stem each is an identifier, and each but `EXPAND` ends
in one of a few words (`endings`), so that no other word of a header is taken for one. What follows the
stem tells the names apart.
-/
import NamedDispatch.Header.Naming
import NamedDispatch.Proofs.Text.Words

namespace NamedDispatch

/-! ## Numbers in names -/

theorem toList_toString (k : Nat) : (toString k).toList = Nat.toDigits 10 k := by simp

theorem isDigit_of_mem_toString {k : Nat} {c : Char} (h : c ∈ (toString k).toList) : c.isDigit = true :=
  Nat.isDigit_of_mem_toDigits (by decide) (by decide) (toList_toString k ▸ h)

theorem isIdentifier_number {s : String} (hs : Text.isIdentifier s = true) (k : Nat) :
    Text.isIdentifier (s ++ toString k) = true :=
  Text.isIdentifier_append_word hs fun _ hc => Text.isWordChar_of_isDigit (isDigit_of_mem_toString hc)

theorem toString_injective : Function.Injective (toString : Nat → String) := by
  intro a b h
  have := congrArg (fun s : String => Nat.ofDigitChars 10 s.toList 0) h
  simpa [Nat.ofDigitChars_toDigits] using this

namespace Naming

/-! ## Names as stem and rest -/

section

variable (n : Naming)

theorem level_eq (k : Nat) : n.level k = n.stem ++ ("FE_" ++ toString k) := String.append_assoc ..

theorem pairLevel_eq (k : Nat) : n.pairLevel k = n.stem ++ ("FE2_" ++ toString k) :=
  String.append_assoc ..

theorem attach_eq (cached : Bool) :
    n.attach cached = n.stem ++ ("ATTACH_" ++ (cachedMark cached ++ "FUNC")) := by
  rw [attach, String.append_assoc, String.append_assoc]

theorem attachMany_eq (cached : Bool) :
    n.attachMany cached = n.stem ++ ("ATTACH_" ++ (cachedMark cached ++ "FUNCS")) := by
  rw [attachMany, String.append_assoc, String.append_assoc]

theorem singleAlias_eq (cached : Bool) :
    n.singleAlias cached = n.stem ++ ("ALIAS_" ++ (cachedMark cached ++ "FUNC")) := by
  rw [singleAlias, String.append_assoc, String.append_assoc]

theorem multiAlias_eq (cached : Bool) :
    n.multiAlias cached = n.stem ++ ("MULTI_ALIAS_" ++ (cachedMark cached ++ "FUNC")) := by
  rw [multiAlias, String.append_assoc, String.append_assoc]

theorem aliasPairs_eq (cached : Bool) :
    n.aliasPairs cached = n.stem ++ ("ALIAS_" ++ (cachedMark cached ++ "FUNCS")) := by
  rw [aliasPairs, String.append_assoc, String.append_assoc]

end

/-! ## Endings -/

/-- How the names with a stem end, the number of an `FE_k` left aside. These are lists of characters, since
every word of a text is held against them when the kernel evaluates the check. -/
def endings : List (List Char) :=
  [['F', 'E', '_'], ['F', 'E', '2', '_'], ['G', 'E', 'T', '_', 'M', 'A', 'C', 'R', 'O'],
    ['F', 'O', 'R', '_', 'E', 'A', 'C', 'H'], ['F', 'U', 'N', 'C'], ['F', 'U', 'N', 'C', 'S'],
    ['D', 'I', 'S', 'P', 'A', 'T', 'C', 'H']]

/-- Whether the characters of a word end it like a name with a stem. -/
def endsLike (cs : List Char) : Bool :=
  endings.any fun e => e.reverse.isPrefixOf (cs.reverse.dropWhile Char.isDigit)

/-- Whether a word ends like a name with a stem, such as `ATTACH_FUNCS` or `FE_12`. -/
def endsLikeName (w : String) : Bool := endsLike w.toList

/-- What stands before an ending does not matter. -/
theorem endsLikeName_append (s : String) {t : String} (h : endsLikeName t = true) :
    endsLikeName (s ++ t) = true := by
  unfold endsLikeName endsLike at h ⊢
  rw [List.any_eq_true] at h ⊢
  obtain ⟨e, he, hp⟩ := h
  refine ⟨e, he, ?_⟩
  rw [List.isPrefixOf_iff_prefix] at hp ⊢
  have hne : ∀ e ∈ endings, e.reverse ≠ [] := by decide
  -- something is left of the end without its digits, so that nothing before it is dropped
  have hd : (List.dropWhile Char.isDigit t.toList.reverse).isEmpty = false := by
    rw [List.isEmpty_eq_false_iff]
    intro h0
    rw [h0] at hp
    exact hne e he (List.prefix_nil.1 hp)
  rw [String.toList_append, List.reverse_append, List.dropWhile_append, hd]
  exact hp.trans (List.prefix_append _ _)

theorem endsLikeName_number {s : String} (k : Nat) (h : endsLikeName s = true) :
    endsLikeName (s ++ toString k) = true := by
  unfold endsLikeName endsLike at h ⊢
  rwa [String.toList_append, List.reverse_append, List.dropWhile_append_of_pos fun c hc =>
    isDigit_of_mem_toString (List.mem_reverse.1 hc)]

/-- Whether a word looks like the name of a macro. -/
def isName (w : String) : Bool := w == expandName || endsLikeName w

theorem isName_append (s : String) {t : String} (h : endsLikeName t = true) : isName (s ++ t) = true := by
  rw [isName, endsLikeName_append s h, Bool.or_true]

/-- The name `EXPAND` ends like none that has a stem. -/
theorem append_ne_expandName (s : String) {t : String} (h : endsLikeName t = true) : s ++ t ≠ expandName := by
  intro he
  have := endsLikeName_append s h
  rw [he] at this
  exact absurd this (by decide)

/-! ## Names in a body -/

/-- The words of a body that look like names of macros. -/
def mentions (body : String) : List String := (Text.identifiers body).filter isName

theorem mentions_append_of_endsApart {s : String} (h : Text.endsApart s = true) (t : String) :
    mentions (s ++ t) = mentions s ++ mentions t := by
  rw [mentions, Text.identifiers_append_of_endsApart h, List.filter_append]; rfl

theorem mentions_append_of_startsApart (s : String) {t : String} (h : Text.startsApart t = true) :
    mentions (s ++ t) = mentions s ++ mentions t := by
  rw [mentions, Text.identifiers_append_of_startsApart s h, List.filter_append]; rfl

/-- Whether the characters of a word look like no name of a macro. -/
def isPlain (w : Text.Word) : Bool := !endsLike w.chars && w.chars != expandName.toList

theorem isName_of_isPlain {w : Text.Word} (h : isPlain w = true) : isName (String.ofList w.chars) = false := by
  rw [isPlain, Bool.and_eq_true, Bool.not_eq_true', bne_iff_ne] at h
  rw [isName, endsLikeName, String.toList_ofList, h.1, Bool.or_false, beq_eq_false_iff_ne]
  intro he
  exact h.2 (by rw [← he, String.toList_ofList])

theorem mentions_ofList {cs : List Char} (h : (Text.words cs).all isPlain = true) :
    mentions (String.ofList cs) = [] := by
  rw [mentions, Text.identifiers, String.toList_ofList, List.filter_eq_nil_iff]
  intro name hn
  obtain ⟨w, hw, rfl⟩ := List.mem_map.1 hn
  rw [isName_of_isPlain (List.all_eq_true.1 h w (List.mem_filter.1 hw).1)]
  exact Bool.false_ne_true

/-- A text around another that mentions no name itself. -/
theorem mentions_around {before after : String} (hb : Text.endsApart before = true)
    (ha : Text.startsApart after = true) (hb' : mentions before = []) (ha' : mentions after = [])
    (text : String) : mentions (before ++ text ++ after) = mentions text := by
  rw [mentions_append_of_startsApart _ ha, mentions_append_of_endsApart hb, ha', hb', List.nil_append,
    List.append_nil]

/-! ## Proper names -/

/-- The word reads as one identifier and looks like the name of a macro, so that it is all it mentions. -/
structure Proper (w : String) : Prop where
  identifier : Text.isIdentifier w = true
  name : isName w = true

theorem Proper.mentions {w : String} (h : Proper w) : mentions w = [w] := by
  rw [Naming.mentions, Text.identifiers_of_isIdentifier h.identifier, List.filter_cons_of_pos h.name,
    List.filter_nil]

theorem mentions_commaList {names : List String} (h : ∀ w ∈ names, Proper w) :
    mentions (", ".intercalate names) = names := by
  rw [mentions, Text.identifiers_intercalate fun w hw => (h w hw).identifier, List.filter_eq_self]
  exact fun w hw => (h w hw).name

section

variable {n : Naming} (hs : Text.isStem n.stem = true)
include hs

theorem proper_append {t : String} (hi : Text.isIdentifier t = true) (hn : endsLikeName t = true) :
    Proper (n.stem ++ t) :=
  ⟨Text.isIdentifier_append_of_isStem hs hi, isName_append _ hn⟩

theorem proper_number {t : String} (hi : Text.isIdentifier t = true) (hn : endsLikeName t = true) (k : Nat) :
    Proper (n.stem ++ (t ++ toString k)) :=
  proper_append hs (isIdentifier_number hi k) (endsLikeName_number k hn)

theorem proper_level (k : Nat) : Proper (n.level k) := by
  rw [level_eq]
  exact proper_number hs (by decide) (by decide) k

theorem proper_pairLevel (k : Nat) : Proper (n.pairLevel k) := by
  rw [pairLevel_eq]
  exact proper_number hs (by decide) (by decide) k

theorem proper_counter : Proper n.counter := proper_append (t := "GET_MACRO") hs (by decide) (by decide)

theorem proper_forEach : Proper n.forEach := proper_append (t := "FOR_EACH") hs (by decide) (by decide)

theorem proper_forEachPair : Proper n.forEachPair :=
  proper_append (t := "FOR_EACH2") hs (by decide) (by decide)

theorem proper_attach (cached : Bool) : Proper (n.attach cached) := by
  rw [attach_eq]
  cases cached <;> exact proper_append hs (by decide) (by decide)

theorem proper_attachMany (cached : Bool) : Proper (n.attachMany cached) := by
  rw [attachMany_eq]
  cases cached <;> exact proper_append hs (by decide) (by decide)

theorem proper_singleAlias (cached : Bool) : Proper (n.singleAlias cached) := by
  rw [singleAlias_eq]
  cases cached <;> exact proper_append hs (by decide) (by decide)

end

end Naming

end NamedDispatch
