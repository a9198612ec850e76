/-
Bodies of macros with their words renamed. Where a renaming spares every word that looks like no name of a macro,
the texts around the names stay as they are, so that a body is renamed by renaming the names in it.
-/
import NamedDispatch.Header.Registration
import NamedDispatch.Proofs.Header.Names
import NamedDispatch.Proofs.Header.Wording

namespace NamedDispatch

open Naming (isName)
open Text (Kept)

/-! ## Texts that keep their words -/

/-- A renaming that spares `EXPAND` and each word that looks like no name. -/
structure Naming.Spares (f : String → String) : Prop where
  plain : ∀ w, isName w = false → f w = w
  expand : f expandName = expandName

theorem Naming.Proper.rename {w : String} (h : Naming.Proper w) (f : String → String) : Text.rename f w = f w :=
  Text.rename_of_isIdentifier h.identifier

namespace Naming.Spares

variable {f : String → String} (hf : Naming.Spares f)
include hf

theorem kept_ofList {cs : List Char} (h : (Text.words cs).all isPlain = true) : Kept f (String.ofList cs) :=
  Text.kept_ofList fun w hw => hf.plain _ (isName_of_isPlain (List.all_eq_true.1 h w hw))

theorem kept_expandName : Kept f expandName := (Text.rename_of_isIdentifier (by decide)).trans hf.expand

theorem rename_expanded (text : String) :
    Text.rename f (Ladder.expanded text) = Ladder.expanded (Text.rename f text) :=
  Text.rename_around (by decide) (by decide)
    (hf.kept_expandName.append_of_startsApart (hf.kept_ofList (by decide)) (by decide))
    (hf.kept_ofList (by decide)) text

/-! ### Texts of the variants -/

theorem rename_branch (v : Variant) (matched func : String) (cached : Bool) :
    Text.rename f ((Wording.of v).branch matched func cached) =
      (Wording.of v).branch (Text.rename f matched) (Text.rename f func) cached := by
  have call : Kept f ((Wording.of v).callOf cached).before ∧ Kept f ((Wording.of v).callOf cached).after := by
    cases v <;> cases cached <;> exact ⟨hf.kept_ofList (by decide), hf.kept_ofList (by decide)⟩
  exact Wording.rename_branch v cached (hf.kept_ofList (by decide)) (hf.kept_ofList (by decide))
    (hf.kept_ofList (by decide)) call.1 call.2 matched func

set_option maxRecDepth 2000 in
theorem kept_around (v : Variant) : Kept f (Wording.of v).front ∧ Kept f (Wording.of v).back := by
  have space : Kept f " " := hf.kept_ofList (by decide)
  have decl : Kept f (Wording.of v).nameDecl := by
    cases v <;> exact hf.kept_ofList (by decide +kernel)
  have fallback : Kept f (Wording.of v).fallback := by
    cases v <;> exact hf.kept_ofList (by decide +kernel)
  have last : Kept f (" " ++ (Wording.of v).fallback) := space.append_of_endsApart fallback (by decide)
  cases v with
  | templated =>
    have signature : Kept f (Wording.of .templated).signature :=
      Kept.append_of_startsApart (hf.kept_ofList (by decide +kernel)) (hf.kept_ofList (by decide)) (by decide)
    have first := signature.append_of_endsApart decl (Text.endsApart_append _ (by decide))
    exact ⟨first.append_of_startsApart space (by decide),
      last.append_of_startsApart (hf.kept_ofList (by decide)) (by decide)⟩
  | legacy | classic | callback =>
    show Kept f ("" ++ _ ++ " ") ∧ Kept f (" " ++ _ ++ "")
    rw [String.empty_append, String.append_empty]
    exact ⟨decl.append_of_startsApart space (by decide), last⟩

theorem rename_defaultDispatch (v : Variant) {chain chain' : String} (hr : Text.rename f chain = chain')
    (h : chain.isEmpty = false) (h' : chain'.isEmpty = false) :
    Text.rename f ((Wording.of v).defaultDispatch chain) = (Wording.of v).defaultDispatch chain' := by
  subst hr
  exact (Wording.of v).rename_defaultDispatch (hf.kept_around v).1 (hf.kept_around v).2 h h'

/-! ### Bodies -/

section

variable {w w' : String} (hw : Text.rename f w = w')
include hw

theorem rename_levelBody : Text.rename f (Ladder.expanded ("WHAT(X)" ++ w ++ "(WHAT, __VA_ARGS__)")) =
    Ladder.expanded ("WHAT(X)" ++ w' ++ "(WHAT, __VA_ARGS__)") := by
  have around : Text.rename f ("WHAT(X)" ++ w ++ "(WHAT, __VA_ARGS__)") =
      "WHAT(X)" ++ Text.rename f w ++ "(WHAT, __VA_ARGS__)" :=
    Text.rename_around (by decide) (by decide) (hf.kept_ofList (by decide)) (hf.kept_ofList (by decide)) w
  rw [hf.rename_expanded, around, hw]

theorem rename_pairLevelBody (p : PairPolicy) :
    Text.rename f (Ladder.expanded ("WHAT(X, Y)" ++ w ++ "(" ++ Ladder.forwarded p ++ ")")) =
      Ladder.expanded ("WHAT(X, Y)" ++ w' ++ "(" ++ Ladder.forwarded p ++ ")") := by
  have forwarded : Kept f ("(" ++ Ladder.forwarded p) := by
    cases p
    all_goals
      exact Text.Kept.append_of_endsApart (hf.kept_ofList (by decide)) (hf.kept_ofList (by decide)) (by decide)
  have last : Kept f ("(" ++ Ladder.forwarded p ++ ")") :=
    forwarded.append_of_startsApart (hf.kept_ofList (by decide)) (by decide)
  have starts : Text.startsApart ("(" ++ Ladder.forwarded p ++ ")") = true :=
    Text.startsApart_append (Text.startsApart_append (by decide) _) _
  have around : Text.rename f ("WHAT(X, Y)" ++ w ++ ("(" ++ Ladder.forwarded p ++ ")")) =
      "WHAT(X, Y)" ++ Text.rename f w ++ ("(" ++ Ladder.forwarded p ++ ")") :=
    Text.rename_around (by decide) starts (hf.kept_ofList (by decide)) last w
  have joined (w : String) : "WHAT(X, Y)" ++ w ++ "(" ++ Ladder.forwarded p ++ ")" =
      "WHAT(X, Y)" ++ w ++ ("(" ++ Ladder.forwarded p ++ ")") := by simp only [String.append_assoc]
  rw [hf.rename_expanded, joined, around, hw, joined]

/-- The body of `FOR_EACH` or `FOR_EACH2`, with `GET_MACRO` and the levels that it lists. -/
theorem rename_selectorBody {listed : List String} (hl : ∀ v ∈ listed, Text.isIdentifier v = true) :
    Text.rename f (Selector.body w listed) = Selector.body w' (listed.map f) := by
  have before : Text.rename f (w ++ "(_0, __VA_ARGS__, ") = Text.rename f w ++ "(_0, __VA_ARGS__, " :=
    Text.rename_append_kept (by decide) (hf.kept_ofList (by decide)) w
  have ends : Text.endsApart (w ++ "(_0, __VA_ARGS__, ") = true := Text.endsApart_append _ (by decide)
  have after (text : String) : Text.rename f (text ++ ")(ACTION, __VA_ARGS__)") =
      Text.rename f text ++ ")(ACTION, __VA_ARGS__)" :=
    Text.rename_append_kept (by decide) (hf.kept_ofList (by decide)) text
  have names : Text.rename f (Macro.commaList listed) = Macro.commaList (listed.map f) := Text.rename_intercalate hl
  unfold Selector.body
  rw [hf.rename_expanded, after, Text.rename_append_of_endsApart ends, before, hw, names]

/-- The body of `ATTACH_FUNCS`, `MULTI_ALIAS_FUNC` or `ALIAS_FUNCS`. -/
theorem rename_repeatingBody {one : String} (ho : Text.isIdentifier one = true) {params : List String}
    (hp : params = ["FUNCNAME"] ∨ params = ["FUNCNAME", "FUNC_ALIAS"]) :
    Text.rename f (Ladder.expanded (w ++ "(" ++ Macro.commaList (one :: params ++ ["__VA_ARGS__"]) ++ ")")) =
      Ladder.expanded (w' ++ "(" ++ Macro.commaList (f one :: params ++ ["__VA_ARGS__"]) ++ ")") := by
  have others : (params ++ ["__VA_ARGS__"]).map f = params ++ ["__VA_ARGS__"] := by
    have kept : ∀ v ∈ params ++ ["__VA_ARGS__"], f v = id v := by
      refine fun v hv => hf.plain v ?_
      rcases hp with rfl | rfl <;> revert v <;> decide
    rw [List.map_congr_left kept, List.map_id]
  have identifiers : ∀ v ∈ one :: (params ++ ["__VA_ARGS__"]), Text.isIdentifier v = true := by
    refine List.forall_mem_cons.2 ⟨ho, ?_⟩
    rcases hp with rfl | rfl <;> decide
  have names : Text.rename f (Macro.commaList (one :: (params ++ ["__VA_ARGS__"]))) =
      Macro.commaList (f one :: (params ++ ["__VA_ARGS__"])) := by
    have := Text.rename_intercalate (f := f) identifiers
    rwa [List.map_cons, others] at this
  have before : Text.rename f (w ++ "(") = Text.rename f w ++ "(" :=
    Text.rename_append_kept (by decide) (hf.kept_ofList (by decide)) w
  have ends : Text.endsApart (w ++ "(") = true := Text.endsApart_append _ (by decide)
  have after (text : String) : Text.rename f (text ++ ")") = Text.rename f text ++ ")" :=
    Text.rename_append_kept (by decide) (hf.kept_ofList (by decide)) text
  rw [hf.rename_expanded, after, Text.rename_append_of_endsApart ends, before, hw, List.cons_append, List.cons_append,
    names]

/-- The body of `DEFAULT_DISPATCH`. -/
theorem rename_defaultBody (v : Variant) :
    Text.rename f (Ladder.expanded ((Wording.of v).defaultDispatch (w ++ "(FUNCNAME, __VA_ARGS__)"))) =
      Ladder.expanded ((Wording.of v).defaultDispatch (w' ++ "(FUNCNAME, __VA_ARGS__)")) := by
  have chain : Text.rename f (w ++ "(FUNCNAME, __VA_ARGS__)") = Text.rename f w ++ "(FUNCNAME, __VA_ARGS__)" :=
    Text.rename_append_kept (by decide) (hf.kept_ofList (by decide)) w
  have nonempty (w : String) : (w ++ "(FUNCNAME, __VA_ARGS__)").isEmpty = false := by
    rw [← Bool.not_eq_true, String.isEmpty_iff]
    intro he
    have := congrArg String.toList he
    rw [String.toList_append] at this
    exact absurd (List.append_eq_nil_iff.1 this).2 (by decide)
  rw [hf.rename_expanded, hf.rename_defaultDispatch v (hw ▸ chain) (nonempty w) (nonempty w')]

end

end Naming.Spares

end NamedDispatch
