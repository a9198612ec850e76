/-
Parentheses and commas in the bodies of a header. A literal is one token, so that nothing between its quotes counts.
Every body closes the parentheses that it opens and no others, and what a body calls `EXPAND` with has no comma
outside of parentheses: it is one argument, as `EXPAND` takes it.
-/
import NamedDispatch.Proofs.Expansion.Balance
import NamedDispatch.Proofs.Expansion.Branch
import NamedDispatch.Proofs.Expansion.PairLadder
import NamedDispatch.Proofs.Expansion.Repeat

namespace NamedDispatch

open Token (word sign joined enclosed call names Intact Reads)

namespace Token

/-! ## Arguments of `EXPAND` -/

theorem mem_joined {t : Token} {as : List (List Token)} (h : t ∈ joined as) : t = sign ',' ∨ ∃ a ∈ as, t ∈ a := by
  induction as with
  | nil => cases h
  | cons a as ih =>
    cases as with
    | nil => exact .inr ⟨a, List.mem_cons_self .., h⟩
    | cons b as =>
      rw [joined_cons a (by simp), List.mem_append, List.mem_cons] at h
      rcases h with h | rfl | h
      · exact .inr ⟨a, List.mem_cons_self .., h⟩
      · exact .inl rfl
      · exact (ih h).imp_right fun ⟨b, hb, hm⟩ => ⟨b, List.mem_cons_of_mem _ hb, hm⟩

/-- The tokens are one argument, and `EXPAND` is not named in them. -/
structure Inner (ts : List Token) : Prop where
  intact : Intact ts
  unnamed : word expandName ∉ ts

instance (ts : List Token) : Decidable (Inner ts) :=
  decidable_of_iff (Closes 0 ts ∧ word expandName ∉ ts)
    ⟨fun h => ⟨intact_iff.2 h.1, h.2⟩, fun h => ⟨intact_iff.1 h.intact, h.unnamed⟩⟩

theorem Inner.append {ts us : List Token} (h : Inner ts) (h' : Inner us) : Inner (ts ++ us) :=
  ⟨h.intact.append h'.intact, by simpa using ⟨h.unnamed, h'.unnamed⟩⟩

theorem inner_word {w : String} (h : w ≠ expandName) : Inner [word w] :=
  ⟨intact_word w, by simpa using h.symm⟩

theorem inner_names {ws : List String} (h : ∀ w ∈ ws, w ≠ expandName) : ∀ a ∈ names ws, Inner a :=
  List.forall_mem_map.2 fun w hw => inner_word (h w hw)

theorem inner_enclosed {args : List (List Token)} (h : ∀ a ∈ args, Inner a) : Inner (enclosed args) := by
  refine ⟨(stays_joined fun a ha => (h a ha).intact).enclosed, fun hm => ?_⟩
  simp only [enclosed, List.cons_append, List.mem_cons, List.mem_append, reduceCtorEq, false_or, List.not_mem_nil,
    or_false] at hm
  rcases mem_joined hm with he | ⟨a, ha, hm⟩
  · cases he
  · exact (h a ha).unnamed hm

theorem inner_call {name : String} {args : List (List Token)} (hn : name ≠ expandName) (h : ∀ a ∈ args, Inner a) :
    Inner (call name args) := (inner_word hn).append (inner_enclosed h)

/-- A text that is read to its end as one argument, and that does not name `EXPAND`. -/
structure Part (s : String) : Prop where
  ended : settles s = true
  inner : Inner (ofText s)

theorem part_ofList {cs : List Char} (ended : Mode.idle.after cs = .idle) (inner : Inner (read .idle cs)) :
    Part (String.ofList cs) := by
  have := reads_ofList ended rfl
  exact ⟨this.ended, this.tokens.symm ▸ inner⟩

theorem part_empty : Part "" := ⟨rfl, by decide⟩

theorem Part.append {s t : String} (hs : Part s) (ht : Part t) : Part (s ++ t) :=
  ⟨settles_append hs.ended ht.ended, ofText_append hs.ended t ▸ hs.inner.append ht.inner⟩

end Token

open Token (Inner Part part_ofList part_empty inner_call inner_enclosed inner_names)

/-! ## Bodies -/

/-- A body ends outside of literals and is one argument, or a call of `EXPAND` with one. -/
inductive Macro.Sealed (m : Macro) : Prop
  | plain (ended : Token.inCode m.body = true) (inner : Inner (Token.ofText m.body)) : Sealed m
  | expanded {ts : List Token} (body : Reads m.body (call expandName [ts])) (inner : Inner ts) : Sealed m

theorem Macro.sealed_of_body {m : Macro} (text : String) (hb : m.body = text) (ended : Token.inCode text = true)
    (inner : Inner (Token.ofText text)) : m.Sealed := by
  subst hb
  exact .plain ended inner

theorem Macro.Sealed.intact {m : Macro} (h : m.Sealed) : Token.inCode m.body = true ∧ Intact (Token.ofText m.body) := by
  rcases h with ⟨ended, inner⟩ | ⟨body, inner⟩
  · exact ⟨ended, inner.intact⟩
  · rw [body.tokens]
    exact ⟨Token.inCode_of_settles body.ended, Token.intact_call (List.forall_mem_singleton.2 inner.intact)⟩

/-- A body calls `EXPAND` at its start only, and the call goes up to the end. -/
theorem Macro.Sealed.argument {m : Macro} (h : m.Sealed) {before after : List Token}
    (hb : Token.ofText m.body = before ++ word expandName :: sign '(' :: after) :
    ∃ arg, after = arg ++ [sign ')'] ∧ Intact arg := by
  rcases h with ⟨-, inner⟩ | @⟨ts, body, inner⟩
  · exact absurd (hb ▸ List.mem_append_right _ (List.mem_cons_self ..)) inner.unnamed
  · rw [body.tokens] at hb
    cases before with
    | nil =>
      simp only [call, enclosed, joined, List.nil_append, List.cons_append, List.cons.injEq, true_and] at hb
      exact ⟨ts, hb.symm, inner.intact⟩
    | cons t before =>
      -- the word would stand behind the one at the start, where it is not named again
      have later : word expandName ∈ enclosed [ts] := by
        rw [(List.cons.inj hb).2]
        exact List.mem_append_right _ (List.mem_cons_self ..)
      exact absurd later (inner_enclosed (List.forall_mem_singleton.2 inner)).unnamed

namespace Wording

theorem part_front (v : Variant) : Part (of v).front := by
  have signature : Part (of v).signature := by
    cases v with
    | templated =>
      exact .append (part_ofList (by decide +kernel) (by decide +kernel)) (part_ofList (by decide) (by decide))
    | legacy | classic | callback => exact part_empty
  have decl : Part (of v).nameDecl := by
    cases v <;> exact part_ofList (by decide +kernel) (by decide +kernel)
  exact (signature.append decl).append (part_ofList (by decide) (by decide))

set_option maxRecDepth 2000 in
theorem part_back (v : Variant) : Part (of v).back := by
  have fallback : Part (of v).fallback := by
    cases v <;> exact part_ofList (by decide +kernel) (by decide +kernel)
  have closing : Part (of v).closing := by
    cases v with
    | templated => exact part_ofList (by decide) (by decide)
    | legacy | classic | callback => exact part_empty
  exact (Part.append (part_ofList (by decide) (by decide)) fallback).append closing

end Wording

namespace Header

variable {c : Config}

/-! ### Names other than `EXPAND` -/

theorem level_ne_expandName (k : Nat) : c.naming.level k ≠ expandName := by
  rw [Naming.level_eq]
  exact Naming.append_ne_expandName c.stem (Naming.endsLikeName_number k (by decide))

theorem pairLevel_ne_expandName (k : Nat) : c.naming.pairLevel k ≠ expandName := by
  rw [Naming.pairLevel_eq]
  exact Naming.append_ne_expandName c.stem (Naming.endsLikeName_number k (by decide))

theorem attach_ne_expandName (cached : Bool) : c.naming.attach cached ≠ expandName := by
  rw [Naming.attach_eq]
  exact Naming.append_ne_expandName c.stem (by cases cached <;> decide)

theorem attachMany_ne_expandName (cached : Bool) : c.naming.attachMany cached ≠ expandName := by
  rw [Naming.attachMany_eq]
  exact Naming.append_ne_expandName c.stem (by cases cached <;> decide)

theorem singleAlias_ne_expandName (cached : Bool) : c.naming.singleAlias cached ≠ expandName := by
  rw [Naming.singleAlias_eq]
  exact Naming.append_ne_expandName c.stem (by cases cached <;> decide)

/-! ### The parts of a header -/

/-- A macro such as `ATTACH_FUNCS` hands on the name of the macro for one function, its parameters and
`__VA_ARGS__`. -/
theorem sealed_repeating {many selector one : String} {params : List String} {refs : List Nat} {doc : Option String}
    (hp : params ∈ oneParams) (hsel : Naming.Proper selector) (hone : Naming.Proper one)
    (hsel' : selector ≠ expandName) (hone' : one ≠ expandName) :
    (Registration.repeating many params selector one refs doc).Sealed := by
  refine .expanded (reads_repeating hp hsel hone) (inner_call hsel' (inner_names (List.forall_mem_cons.2 ⟨hone', ?_⟩)))
  revert params
  decide

theorem sealed_branch {m : Macro} {matched : String} {cached : Bool}
    (hb : m.body = c.wording.branch matched "FUNCNAME" cached) (hm : matched = "#FUNCNAME" ∨ matched = "#FUNC_ALIAS") :
    m.Sealed := by
  have hcode : Token.inCode matched = true := by rcases hm with rfl | rfl <;> decide
  have body := reads_body (c := c) matched hcode cached
  refine Macro.sealed_of_body _ hb (Token.inCode_of_settles body.ended) ?_
  rw [body.tokens, Config.wording, Wording.branchTokens_eq]
  rcases hm with rfl | rfl <;> cases c.variant <;> cases cached <;> decide

section

variable (hs : Text.isStem c.stem = true)

include hs

theorem sealed_single (k : Nat) : (Ladder.single c.naming 0 1 k).Sealed := by
  have applied : Inner (call "WHAT" [[word "X"]]) := by decide
  match k with
  | 0 => exact Macro.sealed_of_body "" rfl (by decide) (by decide)
  | 1 => exact Macro.sealed_of_body "WHAT(X)" rfl (by decide) (by decide)
  | k + 2 =>
    exact .expanded (reads_single hs k) (applied.append (inner_call (level_ne_expandName (k + 1)) (by decide)))

theorem sealed_pair (p : PairPolicy) (base k : Nat) : (Ladder.pair c.naming p 0 base k).Sealed := by
  have applied : Inner (call "WHAT" [[word "X"], [word "Y"]]) := by decide
  match k with
  | 0 | 1 => exact Macro.sealed_of_body "" rfl (by decide) (by decide)
  | 2 => exact Macro.sealed_of_body "WHAT(X, Y)" rfl (by decide) (by decide)
  | k + 3 =>
    have further : ∀ a ∈ Ladder.forwardedTokens p, Inner a := by cases p <;> decide
    exact .expanded (reads_pair hs base k) (applied.append (inner_call (pairLevel_ne_expandName _) further))

/-- A selector lists names after `_0` and the arguments of the caller. -/
theorem sealed_listing {own : String} {name : Nat → String} {t : Nat} {refs : List Nat}
    (hname : ∀ k, Naming.Proper (name k)) (hne : ∀ k, name k ≠ expandName) :
    (Selector.listing own c.naming.counter (((List.range (t + 1)).map name).reverse) refs).Sealed := by
  have hcounter : c.naming.counter ≠ expandName := Naming.append_ne_expandName c.stem (t := "GET_MACRO") (by decide)
  have listed : ∀ a ∈ [word "_0"] :: [word Macro.furtherName] :: names (((List.range (t + 1)).map name).reverse),
      Inner a := by
    refine List.forall_mem_cons.2 ⟨by decide, List.forall_mem_cons.2 ⟨by decide, inner_names ?_⟩⟩
    intro w hw
    obtain ⟨k, -, rfl⟩ := List.mem_map.1 (List.mem_reverse.1 hw)
    exact hne k
  exact .expanded
    (reads_listing (Naming.proper_counter (n := c.naming) hs) (proper_listed hname (t + 1)) (by simp))
    ((inner_call hcounter listed).append (by decide))

/-- The body of `DEFAULT_DISPATCH` is fixed texts around a call of `ATTACH_FUNCS`. -/
theorem sealed_default (expand many : Nat) : (Registration.defaultMacro c.naming c.wording expand many).Sealed := by
  have hmany := (Naming.proper_attachMany (n := c.naming) hs false).identifier
  have handed : Reads "(FUNCNAME, __VA_ARGS__)" (enclosed [[word "FUNCNAME"], [word Macro.furtherName]]) := by decide
  have called : Part (c.naming.attachMany false ++ "(FUNCNAME, __VA_ARGS__)") := by
    have := Reads.word_append hmany (by decide) handed
    exact ⟨this.ended, this.tokens.symm ▸ inner_call (attachMany_ne_expandName false) (by decide)⟩
  have whole : Part (c.wording.defaultDispatch (c.naming.attachMany false ++ "(FUNCNAME, __VA_ARGS__)")) := by
    rw [Wording.defaultDispatch_eq]
    · exact ((Wording.part_front c.variant).append called).append (Wording.part_back c.variant)
    · exact String.isEmpty_eq_false_iff.2 fun he => absurd (String.append_eq_empty_iff.1 he).2 (by decide)
  exact .expanded (Reads.expanded ⟨whole.ended, rfl⟩) whole.inner

theorem sealed_registrationPart (firstId : Nat) : ∀ m ∈ registrationPart c firstId, m.Sealed := by
  have forEach : c.naming.forEach ≠ expandName := Naming.append_ne_expandName c.stem (t := "FOR_EACH") (by decide)
  have forEachPair : c.naming.forEachPair ≠ expandName :=
    Naming.append_ne_expandName c.stem (t := "FOR_EACH2") (by decide)
  have attached (cached : Bool) (firstId : Nat) : ∀ m ∈ attachPart c cached firstId, m.Sealed := by
    refine List.forall_mem_cons.2 ⟨sealed_branch rfl (.inl rfl), List.forall_mem_singleton.2 ?_⟩
    exact sealed_repeating (List.mem_cons_self ..) (Naming.proper_forEach (n := c.naming) hs)
      (Naming.proper_attach (n := c.naming) hs cached) forEach (attach_ne_expandName cached)
  have aliased (p : PairPolicy) (cached : Bool) (firstId : Nat) : ∀ m ∈ aliasPart c p cached firstId, m.Sealed := by
    refine List.forall_mem_cons.2 ⟨sealed_branch rfl (.inr rfl), List.forall_mem_singleton.2 ?_⟩
    exact sealed_repeating (List.mem_cons_of_mem _ (List.mem_cons_self ..))
      (Naming.proper_forEachPair (n := c.naming) hs) (Naming.proper_singleAlias (n := c.naming) hs cached) forEachPair
      (singleAlias_ne_expandName cached)
  have aliases : ∀ m ∈ aliasesPart c (firstId + 4), m.Sealed := by
    unfold aliasesPart
    rcases c.effectivePairPolicy with _ | p
    · nofun
    · exact List.forall_mem_append.2 ⟨aliased p false _, aliased p true _⟩
  simp only [registrationPart, List.forall_mem_append, List.forall_mem_singleton]
  exact ⟨⟨⟨attached false _, attached true _⟩, aliases⟩, sealed_default hs 0 _⟩

theorem sealed_layout : ∀ m ∈ layout c, m.Sealed := by
  have expand : Ladder.expandMacro.Sealed := .plain (by decide) (by decide)
  have single : ∀ m ∈ singlePart c, m.Sealed := List.forall_mem_map.2 fun k _ => sealed_single hs k
  have pair : ∀ m ∈ pairPart c, m.Sealed := by
    unfold pairPart
    rcases c.effectivePairPolicy with _ | p
    · nofun
    · exact List.forall_mem_map.2 fun k _ => sealed_pair hs p _ k
  have counter : (Selector.counterMacro c.naming c.top).Sealed :=
    Macro.sealed_of_body "NAME" rfl (by decide) (by decide)
  have forEach : (forEachMacro c).Sealed :=
    sealed_listing hs (Naming.proper_level (n := c.naming) hs) level_ne_expandName
  have forEachPair : (forEachPairMacro c).Sealed :=
    sealed_listing hs (Naming.proper_pairLevel (n := c.naming) hs) pairLevel_ne_expandName
  have table : ∀ m ∈ tablePart c, m.Sealed := by
    refine List.forall_mem_cons.2 ⟨counter, List.forall_mem_cons.2 ⟨forEach, ?_⟩⟩
    split
    · exact List.forall_mem_singleton.2 forEachPair
    · nofun
  have functions : ∀ m ∈ headerFuncPart c, m.Sealed := by
    unfold headerFuncPart
    split
    · refine List.forall_mem_cons.2 ⟨?_, List.forall_mem_singleton.2 ?_⟩
      · exact Macro.sealed_of_body "extern RETURN (*FUNCNAME)(__VA_ARGS__)" rfl (by decide) (by decide)
      · exact Macro.sealed_of_body "RETURN (*FUNCNAME)(__VA_ARGS__) = nullptr" rfl (by decide) (by decide)
    · nofun
  simp only [layout, List.forall_mem_cons, List.forall_mem_append]
  exact ⟨expand, ⟨⟨⟨single, pair⟩, table⟩, functions⟩, sealed_registrationPart hs _⟩

end

/-- In a generated header every body ends outside of literals, with all parentheses closed that are opened and no
others. Wherever a body calls `EXPAND`, however deep, the text up to the parenthesis that ends the call has no comma
outside of parentheses: it is the one argument of the call, and the parameter `x` stands for all of it. -/
theorem bodies_balanced {c : Config} {h : Header} (hg : generate c = .ok h) :
    ∃ expand, h.sheet.macro? expandName = some expand ∧ expand.params = ["x"] ∧
    ∀ m ∈ h.sheet.defs.toList, Token.inCode m.body = true ∧ Token.Balanced (Token.ofText m.body) ∧
      ∀ before after, Token.ofText m.body = before ++ word expandName :: sign '(' :: after →
        ∃ arg rest, after = arg ++ sign ')' :: rest ∧ Token.Balanced arg ∧ Token.CommasWithin arg ∧
          Token.arguments after = some ([arg], rest) ∧ expand.value [arg] "x" = some arg := by
  obtain ⟨rfl, hs⟩ := eq_build hg
  refine ⟨Ladder.expandMacro, macro?_expand, rfl, fun m hm => ?_⟩
  rw [toList_build] at hm
  have closed := sealed_layout hs m hm
  obtain ⟨ended, whole⟩ := closed.intact
  refine ⟨ended, (Token.closes_zero_iff.1 (Token.intact_iff.1 whole)).1, fun before after hb => ?_⟩
  obtain ⟨arg, rfl, one⟩ := closed.argument hb
  obtain ⟨balanced, within⟩ := Token.closes_zero_iff.1 (Token.intact_iff.1 one)
  exact ⟨arg, [], rfl, balanced, within, Token.arguments_eq_one_iff.2 ⟨rfl, balanced, within⟩, rfl⟩

theorem bodies_balanced_level : ∃ expand, (build ⟨2, .callback, none, "RPC_"⟩).sheet.macro? expandName = some expand ∧
    ∃ arg rest, Token.ofText "WHAT(X)RPC_FE_1(WHAT, __VA_ARGS__))" = arg ++ sign ')' :: rest ∧
      Token.Balanced arg ∧ Token.CommasWithin arg ∧ expand.value [arg] "x" = some arg := by
  have hg : generate ⟨2, .callback, none, "RPC_"⟩ = .ok (build ⟨2, .callback, none, "RPC_"⟩) := by
    rw [generate_eq]
    rfl
  obtain ⟨expand, hexpand, -, bodies⟩ := bodies_balanced hg
  have hm : Ladder.single ⟨"RPC_"⟩ 0 1 2 ∈ (build ⟨2, .callback, none, "RPC_"⟩).sheet.defs.toList := by
    rw [toList_build]
    exact List.mem_of_getElem? (layout_single ⟨2, .callback, none, "RPC_"⟩ (k := 2) (by decide))
  have called : Token.ofText (Ladder.single ⟨"RPC_"⟩ 0 1 2).body =
      [] ++ word expandName :: sign '(' :: Token.ofText "WHAT(X)RPC_FE_1(WHAT, __VA_ARGS__))" := by decide +kernel
  obtain ⟨arg, rest, after, balanced, within, -, bound⟩ := (bodies _ hm).2.2 [] _ called
  exact ⟨expand, hexpand, arg, rest, after, balanced, within, bound⟩

end Header

end NamedDispatch
