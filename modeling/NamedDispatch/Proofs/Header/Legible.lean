/-
What the line of a macro can be read back from: its name is an identifier, each of its parameters is one or
the dots, and neither its body nor its note goes on to another line. In a header with a legal stem every
macro is of this kind, and no name of a macro follows a `#` in any body.
-/
import NamedDispatch.Proofs.Header.Contents
import NamedDispatch.Proofs.Header.Order

namespace NamedDispatch

/-- What stands in a list with commas stands in one of its parts or between two of them. -/
theorem Macro.mem_commaList {c : Char} {names : List String} (h : c ∈ (commaList names).toList) :
    c = ',' ∨ c = ' ' ∨ ∃ s ∈ names, c ∈ s.toList := by
  rw [commaList] at h
  induction names with
  | nil => cases h
  | cons s names ih =>
    cases names with
    | nil =>
      rw [String.intercalate_singleton] at h
      exact .inr (.inr ⟨s, List.mem_cons_self .., h⟩)
    | cons t names =>
      rw [String.intercalate_cons_cons, String.toList_append, String.toList_append, List.mem_append,
        List.mem_append] at h
      rcases h with (h | h) | h
      · exact .inr (.inr ⟨s, List.mem_cons_self .., h⟩)
      · revert h
        simpa using fun h => h.imp_right .inl
      · rcases ih h with h | h | ⟨u, hu, hc⟩
        · exact .inl h
        · exact .inr (.inl h)
        · exact .inr (.inr ⟨u, List.mem_cons_of_mem _ hu, hc⟩)

/-! ## Quiet texts -/

namespace Text

/-- A text on one line in which no `#` turns a word into a string. -/
def isQuiet (s : String) : Bool := s.toList.all fun c => c != '\n' && c != '#'

theorem isQuiet_append (s t : String) : isQuiet (s ++ t) = (isQuiet s && isQuiet t) := by
  rw [isQuiet, String.toList_append, List.all_append]
  rfl

/-- A literal is held against its characters, which the kernel reads faster than the text. -/
theorem isQuiet_ofList {cs : List Char} (h : cs.all (fun c => c != '\n' && c != '#') = true) :
    isQuiet (String.ofList cs) = true := by
  rwa [isQuiet, String.toList_ofList]

theorem isQuiet_of_isWordChar {s : String} (h : ∀ c ∈ s.toList, isWordChar c = true) : isQuiet s = true := by
  refine List.all_eq_true.2 fun c hc => ?_
  have hw := h c hc
  rw [Bool.and_eq_true, bne_iff_ne, bne_iff_ne]
  constructor <;> rintro rfl <;> exact absurd hw (by decide)

theorem isQuiet_of_isIdentifier {s : String} (h : isIdentifier s = true) : isQuiet s = true :=
  isQuiet_of_isWordChar (all_isWordChar_of_isIdentifier h)

theorem isQuiet_toString (k : Nat) : isQuiet (toString k) = true :=
  isQuiet_of_isWordChar fun _ hc => isWordChar_of_isDigit (isDigit_of_mem_toString hc)

theorem isQuiet_commaList {names : List String} (h : ∀ s ∈ names, isIdentifier s = true) :
    isQuiet (Macro.commaList names) = true := by
  refine List.all_eq_true.2 fun c hc => ?_
  rcases Macro.mem_commaList hc with rfl | rfl | ⟨s, hs, hc⟩
  · rfl
  · rfl
  · exact List.all_eq_true.1 (isQuiet_of_isIdentifier (h s hs)) c hc

theorem newline_not_mem_of_isQuiet {s : String} (h : isQuiet s = true) : '\n' ∉ s.toList :=
  fun hc => absurd (List.all_eq_true.1 h _ hc) (by decide)

/-- What stands before a word is a character of the text, or what stood before the text. -/
theorem mem_of_before {w : Word} : ∀ {cs : List Char} {before : Option Char} {run : List Char},
    w ∈ wordsFrom before run cs → w.before = before ∨ ∃ c ∈ cs, w.before = some c := by
  have closed {before : Option Char} {run : List Char} (hw : w ∈ closeWord before run) : w.before = before := by
    unfold closeWord at hw
    split at hw
    · cases hw
    · rw [List.mem_singleton.1 hw]
  intro cs
  induction cs with
  | nil => exact fun hw => .inl (closed hw)
  | cons c cs ih =>
    intro before run hw
    rw [wordsFrom] at hw
    split at hw
    · rcases ih hw with he | ⟨d, hd, he⟩
      · exact .inl he
      · exact .inr ⟨d, List.mem_cons_of_mem _ hd, he⟩
    · rcases List.mem_append.1 hw with hw | hw
      · exact .inl (closed hw)
      · rcases ih hw with he | ⟨d, hd, he⟩
        · exact .inr ⟨c, List.mem_cons_self .., he⟩
        · exact .inr ⟨d, List.mem_cons_of_mem _ hd, he⟩

theorem startsWord {cs : List Char} (h : isIdentifier (String.ofList cs) = true) :
    cs.head?.any isWordStart = true := by
  rw [isIdentifier, String.toList_ofList] at h
  cases cs with
  | nil => cases h
  | cons c cs =>
    rw [isIdentifierChars, Bool.and_eq_true] at h
    exact h.1

end Text

/-! ## Legible macros -/

namespace Macro

/-- A parameter is an identifier, or `...` for any number of arguments. -/
def isParam (p : String) : Bool := Text.isIdentifier p || p == ellipsis

/-- Whether a word that looks like a name of a macro stands after a `#`. -/
def quotesName (cs : List Char) : Bool :=
  (Text.words cs).any fun w => w.before == some '#' && (Naming.endsLike w.chars || w.chars == expandName.toList)

/-- What a macro is read back from, its name aside. -/
structure Legible (m : Macro) : Prop where
  params : m.params.isEmpty = false
  param : ∀ p ∈ m.params, isParam p = true
  body : '\n' ∉ m.body.toList
  quotes : quotesName m.body.toList = false
  doc : ∀ note, m.doc = some note → '\n' ∉ note.toList

theorem quotesName_of_isQuiet {s : String} (h : Text.isQuiet s = true) : quotesName s.toList = false := by
  refine List.any_eq_false.2 fun w hw => ?_
  have hb : (w.before == some '#') = false := by
    rw [beq_eq_false_iff_ne]
    intro he
    rcases Text.mem_of_before hw with hn | ⟨c, hc, hn⟩
    · rw [he] at hn
      cases hn
    · rw [he] at hn
      obtain rfl := Option.some.inj hn
      exact absurd (List.all_eq_true.1 h _ hc) (by decide)
  rw [hb, Bool.false_and]
  exact Bool.false_ne_true

theorem legible_of_isQuiet {m : Macro} (hp : m.params.isEmpty = false) (hps : m.params.all isParam = true)
    (hb : Text.isQuiet m.body = true) (hd : ∀ note, m.doc = some note → '\n' ∉ note.toList) : m.Legible :=
  ⟨hp, List.all_eq_true.1 hps, Text.newline_not_mem_of_isQuiet hb, quotesName_of_isQuiet hb, hd⟩

end Macro

namespace Header

open Macro (Legible legible_of_isQuiet isParam)
open Text (isQuiet isQuiet_append isQuiet_ofList isQuiet_of_isIdentifier)

variable {c : Config}

/-! ## Names -/

theorem isIdentifier_onceSuffixes (c : Config) : ∀ s ∈ onceSuffixes c, Text.isIdentifier s = true := by
  unfold onceSuffixes
  rcases c.effectivePairPolicy with _ | p
  · decide
  · cases p <;> decide

theorem isIdentifier_ladderSuffixes (c : Config) : ∀ s ∈ ladderSuffixes c, Text.isIdentifier s = true := by
  intro s hs
  rw [ladderSuffixes, List.mem_append] at hs
  rcases hs with hs | hs
  · obtain ⟨k, -, rfl⟩ := List.mem_map.1 hs
    exact isIdentifier_number (by decide) k
  · split at hs
    · obtain ⟨k, -, rfl⟩ := List.mem_map.1 hs
      exact isIdentifier_number (by decide) k
    · cases hs

/-- With a legal stem every name of a header is an identifier. -/
theorem isIdentifier_layout (hs : Text.isStem c.stem = true) : ∀ m ∈ layout c, Text.isIdentifier m.name = true := by
  intro m hm
  by_cases hr : m.role = .headerFunc
  · rw [(role_headerFuncPart c m (mem_headerFuncPart c hm hr)).2]
    exact Text.isIdentifier_append_of_isStem hs (t := "HEADER_FUNC") (by decide)
  · have hm : m.name ∈ (onceMacros c).map (·.name) := List.mem_map_of_mem (mem_onceMacros c hm hr)
    rw [names_onceMacros, List.mem_cons] at hm
    rcases hm with hm | hm
    · rw [hm]
      decide
    · obtain ⟨s, hmem, hn⟩ := List.mem_map.1 hm
      rw [← hn]
      refine Text.isIdentifier_append_of_isStem hs ?_
      rcases List.mem_append.1 hmem with h | h
      · exact isIdentifier_ladderSuffixes c s h
      · exact isIdentifier_onceSuffixes c s h

/-! ## Parts -/

section

variable {n : Naming} (hs : Text.isStem n.stem = true)
include hs

theorem legible_single (base k : Nat) : Legible (Ladder.single n 0 base k) := by
  match k with
  | 0 | 1 => exact legible_of_isQuiet rfl rfl (by dsimp only [Ladder.single]; decide) nofun
  | k + 2 =>
    refine legible_of_isQuiet rfl rfl ?_ nofun
    simp only [Ladder.single, Ladder.expanded, isQuiet_append,
      isQuiet_of_isIdentifier (Naming.proper_level hs _).identifier]
    decide

theorem legible_pair (p : PairPolicy) (base k : Nat) : Legible (Ladder.pair n p 0 base k) := by
  match k with
  | 0 | 1 | 2 => exact legible_of_isQuiet rfl rfl (by dsimp only [Ladder.pair]; decide) nofun
  | k + 3 =>
    refine legible_of_isQuiet rfl rfl ?_ nofun
    simp only [Ladder.pair, Ladder.expanded, isQuiet_append,
      isQuiet_of_isIdentifier (Naming.proper_pairLevel hs _).identifier]
    cases p <;> decide

omit hs in
theorem legible_counter (top : Nat) : Legible (Selector.counterMacro n top) := by
  refine legible_of_isQuiet (by simp [Selector.counterMacro, Selector.counterParams]) ?_
    (by dsimp only [Selector.counterMacro]; decide) nofun
  rw [Selector.counterMacro, Selector.counterParams, List.all_append, Bool.and_eq_true]
  refine ⟨List.all_eq_true.2 fun p hp => ?_, by decide⟩
  obtain ⟨k, -, rfl⟩ := List.mem_map.1 hp
  rw [isParam, isIdentifier_number (by decide), Bool.true_or]

theorem legible_listing (name : String) {listed : List String} (hl : ∀ w ∈ listed, Text.isIdentifier w = true)
    (refs : List Nat) : Legible (Selector.listing name n.counter listed refs) := by
  refine legible_of_isQuiet rfl rfl ?_ nofun
  simp only [Selector.listing, Selector.body, Ladder.expanded, isQuiet_append, Text.isQuiet_commaList hl,
    isQuiet_of_isIdentifier (Naming.proper_counter hs).identifier]
  decide

end

theorem legible_tablePart (hs : Text.isStem c.stem = true) : ∀ m ∈ tablePart c, Legible m := by
  have hs : Text.isStem c.naming.stem = true := hs
  have single := legible_listing hs c.naming.forEach
    (fun w hw => (proper_listed (Naming.proper_level hs) (c.top + 1) w hw).identifier)
    (0 :: counterId c :: (singleLadder c).descending)
  have pair := legible_listing hs c.naming.forEachPair
    (fun w hw => (proper_listed (Naming.proper_pairLevel hs) (c.top + 1) w hw).identifier)
    (0 :: counterId c :: (doubleLadder c).descending)
  intro m hm
  unfold tablePart at hm
  split at hm
  all_goals
    simp only [List.mem_cons, List.not_mem_nil, or_false] at hm
    rcases hm with rfl | rfl | rfl
  exacts [legible_counter c.top, single, pair, legible_counter c.top, single]

theorem legible_serverFunc (n : Naming) : Legible (Registration.serverFunc n) :=
  legible_of_isQuiet rfl rfl (by dsimp only [Registration.serverFunc]; decide) nofun

theorem legible_clientFunc (n : Naming) : Legible (Registration.clientFunc n) :=
  legible_of_isQuiet rfl rfl (by dsimp only [Registration.clientFunc]; decide) nofun

theorem legible_headerFuncPart (c : Config) : ∀ m ∈ headerFuncPart c, Legible m := by
  intro m hm
  unfold headerFuncPart at hm
  split at hm
  · simp only [List.mem_cons, List.not_mem_nil, or_false] at hm
    rcases hm with rfl | rfl
    · exact legible_serverFunc c.naming
    · exact legible_clientFunc c.naming
  · cases hm

/-! ### Macros that servers use -/

theorem newline_not_mem_note {w : Wording} {text : String} (h : isQuiet text = true) :
    ∀ note, Registration.note w text = some note → '\n' ∉ note.toList := by
  intro note hn
  unfold Registration.note at hn
  split at hn
  · rw [← Option.some.inj hn]
    exact Text.newline_not_mem_of_isQuiet h
  · cases hn

section

open Registration

theorem isQuiet_attachNote {text : String} (h : isQuiet text = true) : isQuiet (attachNote ++ text) = true := by
  rw [isQuiet_append, h, Bool.and_true]
  exact isQuiet_ofList (by decide)

theorem isQuiet_oneNote (cached : Bool) : isQuiet (oneNote cached) = true := by
  cases cached <;> exact isQuiet_attachNote (isQuiet_ofList (by decide))

theorem isQuiet_manyNote (cached : Bool) : isQuiet (manyNote cached) = true := by
  unfold manyNote
  rw [isQuiet_append, Bool.and_eq_true]
  refine ⟨isQuiet_ofList (by decide), ?_⟩
  cases cached <;> exact isQuiet_ofList (by decide)

theorem isQuiet_aliasNote (cached : Bool) : isQuiet (aliasNote cached) = true := by
  unfold aliasNote
  rw [isQuiet_append, isQuiet_attachNote (isQuiet_ofList (by decide)), Bool.true_and]
  cases cached <;> exact isQuiet_ofList (by decide)

theorem isQuiet_aliasManyNote (p : PairPolicy) (cached : Bool) : isQuiet (aliasManyNote p cached) = true := by
  unfold aliasManyNote
  cases p with
  | holdFirst =>
    rw [isQuiet_append, isQuiet_attachNote (isQuiet_ofList (by decide)), Bool.true_and]
    cases cached <;> exact isQuiet_ofList (by decide)
  | advanceBoth =>
    rw [isQuiet_append, Bool.and_eq_true]
    refine ⟨isQuiet_ofList (by decide), ?_⟩
    cases cached <;> exact isQuiet_ofList (by decide)

end

/-- A macro for one function, such as `ATTACH_FUNC`, and the one that repeats it. -/
theorem legible_familyPart {one : Macro} {many selector : String} {selectorId oneId : Nat} {doc : Option String}
    (hone : Legible one) (hn : Text.isIdentifier one.name = true) (hs : Text.isIdentifier selector = true)
    (hp : one.params = ["FUNCNAME"] ∨ one.params = ["FUNCNAME", "FUNC_ALIAS"])
    (hd : ∀ note, doc = some note → '\n' ∉ note.toList) :
    ∀ m ∈ familyPart one many selector selectorId oneId doc, Legible m := by
  intro m hm
  simp only [familyPart, List.mem_cons, List.not_mem_nil, or_false] at hm
  rcases hm with rfl | rfl
  · exact hone
  · have listed : ∀ w ∈ one.name :: one.params ++ ["__VA_ARGS__"], Text.isIdentifier w = true := by
      rw [List.forall_mem_append, List.forall_mem_cons]
      refine ⟨⟨hn, ?_⟩, by decide⟩
      rcases hp with hp | hp <;> rw [hp] <;> decide
    refine legible_of_isQuiet ?_ ?_ ?_ hd
    · rcases hp with hp | hp <;> rw [Registration.repeating, hp] <;> rfl
    · rcases hp with hp | hp <;> rw [Registration.repeating, hp] <;> rfl
    · simp only [Registration.repeating, Ladder.expanded, isQuiet_append, isQuiet_of_isIdentifier hs,
        Text.isQuiet_commaList listed]
      decide

/-- The texts of a branch around the word it matches and around the function, as characters. -/
theorem legible_texts {opening matched closing before func after ending : List Char}
    (h : (opening ++ matched ++ closing ++ (before ++ func ++ after) ++ ending).all (· != '\n') = true ∧
      Macro.quotesName (opening ++ matched ++ closing ++ (before ++ func ++ after) ++ ending) = false) {body : String}
    (hb : body = String.ofList opening ++ String.ofList matched ++ String.ofList closing ++
      (String.ofList before ++ String.ofList func ++ String.ofList after) ++ String.ofList ending) :
    '\n' ∉ body.toList ∧ Macro.quotesName body.toList = false := by
  rw [hb]
  simp only [String.toList_append, String.toList_ofList]
  exact ⟨fun hc => absurd (List.all_eq_true.1 h.1 _ hc) (by decide), h.2⟩

/-- The only texts that turn a word into a string are those of branches, with `#FUNCNAME` or `#FUNC_ALIAS`. -/
theorem legible_one {name : String} {params : List String} {doc : Option String} (v : Variant) (cached : Bool)
    {matched : String} (hp : params.isEmpty = false) (hps : params.all isParam = true)
    (hm : matched = "#FUNCNAME" ∨ matched = "#FUNC_ALIAS") (hd : ∀ note, doc = some note → '\n' ∉ note.toList) :
    Legible (Registration.oneMacro name params ((Wording.of v).branch matched "FUNCNAME" cached) doc) := by
  have texts : '\n' ∉ ((Wording.of v).branch matched "FUNCNAME" cached).toList ∧
      Macro.quotesName ((Wording.of v).branch matched "FUNCNAME" cached).toList = false := by
    rcases hm with rfl | rfl <;> cases v <;> cases cached <;> exact legible_texts (by decide +kernel) rfl
  exact ⟨hp, List.all_eq_true.1 hps, texts.1, texts.2, hd⟩

set_option maxRecDepth 2000 in
theorem isQuiet_statements (v : Variant) {chain : String} (h : isQuiet chain = true) :
    isQuiet ((Wording.of v).statements chain) = true := by
  have decl : isQuiet (Wording.of v).nameDecl = true := by
    cases v <;> exact isQuiet_ofList (by decide +kernel)
  have fallback : isQuiet (Wording.of v).fallback = true := by
    cases v <;> exact isQuiet_ofList (by decide +kernel)
  unfold Wording.statements
  split <;> simp only [isQuiet_append, decl, fallback, h] <;> decide

theorem isQuiet_defaultDispatch (v : Variant) {chain : String} (h : isQuiet chain = true) :
    isQuiet ((Wording.of v).defaultDispatch chain) = true := by
  have statements := isQuiet_statements v h
  cases v with
  | templated =>
    rw [Wording.defaultDispatch, Wording.of, Wording.templated]
    simp only [isQuiet_append, Bool.and_eq_true]
    exact ⟨⟨⟨isQuiet_ofList (by decide), isQuiet_ofList (by decide)⟩, statements⟩, isQuiet_ofList (by decide)⟩
  | legacy | classic | callback => exact statements

theorem legible_default {n : Naming} (hs : Text.isStem n.stem = true) (v : Variant) (manyId : Nat) :
    Legible (Registration.defaultMacro n (Wording.of v) 0 manyId) := by
  refine legible_of_isQuiet rfl rfl ?_ (newline_not_mem_note (isQuiet_ofList (by decide)))
  have chain : isQuiet (n.attachMany false ++ "(FUNCNAME, __VA_ARGS__)") = true := by
    rw [isQuiet_append, isQuiet_of_isIdentifier (Naming.proper_attachMany hs false).identifier]
    exact isQuiet_ofList (by decide)
  simp only [Registration.defaultMacro, Ladder.expanded, isQuiet_append, isQuiet_defaultDispatch v chain]
  decide

theorem legible_registrationPart (hs : Text.isStem c.stem = true) (firstId : Nat) :
    ∀ m ∈ registrationPart c firstId, Legible m := by
  have hs : Text.isStem c.naming.stem = true := hs
  have attach (cached : Bool) (oneId : Nat) : ∀ m ∈ attachPart c cached oneId, Legible m := by
    refine legible_familyPart (legible_one c.variant cached rfl rfl (.inl rfl) ?_)
      (Naming.proper_attach hs cached).identifier (Naming.proper_forEach hs).identifier (.inl rfl) ?_
    · exact newline_not_mem_note (isQuiet_oneNote cached)
    · exact newline_not_mem_note (isQuiet_manyNote cached)
  have aliasing (p : PairPolicy) (cached : Bool) (oneId : Nat) : ∀ m ∈ aliasPart c p cached oneId, Legible m := by
    refine legible_familyPart (legible_one c.variant cached rfl rfl (.inr rfl) ?_)
      (Naming.proper_singleAlias hs cached).identifier (Naming.proper_forEachPair hs).identifier (.inr rfl) ?_
    · exact newline_not_mem_note (isQuiet_aliasNote cached)
    · exact newline_not_mem_note (isQuiet_aliasManyNote p cached)
  intro m hm
  rw [registrationPart, List.mem_append, List.mem_append, List.mem_append, List.mem_singleton] at hm
  rcases hm with ((hm | hm) | hm) | rfl
  · exact attach _ _ m hm
  · exact attach _ _ m hm
  · unfold aliasesPart at hm
    split at hm
    · cases hm
    · rcases List.mem_append.1 hm with hm | hm
      · exact aliasing _ _ _ m hm
      · exact aliasing _ _ _ m hm
  · exact legible_default hs c.variant _

/-- With a legal stem every macro of a header can be read back. -/
theorem legible_layout (hs : Text.isStem c.stem = true) : ∀ m ∈ layout c, Legible m := by
  have hn : Text.isStem c.naming.stem = true := hs
  intro m hm
  simp only [layout, List.mem_cons, List.mem_append] at hm
  rcases hm with rfl | (((hm | hm) | hm) | hm) | hm
  · exact legible_of_isQuiet rfl rfl (by decide) fun note hd => by cases hd
  · obtain ⟨k, -, rfl⟩ := List.mem_map.1 hm
    exact legible_single hn 1 k
  · unfold pairPart at hm
    split at hm
    · cases hm
    · obtain ⟨k, -, rfl⟩ := List.mem_map.1 hm
      exact legible_pair hn _ _ k
  · exact legible_tablePart hs m hm
  · exact legible_headerFuncPart c m hm
  · exact legible_registrationPart hs _ m hm

/-- With a legal stem every macro is read back from its line, with its name. -/
theorem readable_layout (hs : Text.isStem c.stem = true) :
    ∀ m ∈ layout c, Legible m ∧ Text.isIdentifier m.name = true :=
  fun m hm => ⟨legible_layout hs m hm, isIdentifier_layout hs m hm⟩

end Header

end NamedDispatch
