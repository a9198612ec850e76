/-
The routine that `DEFAULT_DISPATCH` writes, against the one that a plan writes (`Plan.render`). Its body has one
call, of `ATTACH_FUNCS`; put in its place what that macro gives for some names, one text after the other, the
body is the plan's routine for these names. What is given for a name is the body of `ATTACH_FUNC` with the name
put in, in every variant.
-/
import NamedDispatch.Proofs.Expansion.Invocations
import NamedDispatch.Proofs.Plan.Rendering
import NamedDispatch.Proofs.Text.Renaming
import NamedDispatch.Proofs.Text.Replacing

namespace NamedDispatch

open Text (Kept)
open Token (word given call)

/-! ## Names put in -/

namespace Text

/-- A name in place of a parameter, among words. -/
def substitute (param name word : String) : String := if word = param then name else word

theorem kept_substitute {param cs : List Char} (h : ((words cs).all fun w => w.chars != param) = true)
    (name : String) : Kept (substitute (String.ofList param) name) (String.ofList cs) :=
  kept_ofList fun w hw =>
    if_neg fun he => bne_iff_ne.1 (List.all_eq_true.1 h w hw) (String.ofList_injective he)

/-- A name between quotes is not touched when it is put in. -/
theorem rename_quoted {param name : String} (hn : isIdentifier name = true) :
    rename (substitute param name) ("\"" ++ name ++ "\"") = "\"" ++ name ++ "\"" := by
  have hk : Kept (substitute param name) "\"" := rfl
  have hs : substitute param name name = name := ite_self name
  rw [rename_around (by decide) (by decide) hk hk, rename_of_isIdentifier hn, hs]

end Text

/-- The text of a body for a name in place of a parameter: quoted after a `#`, and as it is elsewhere. -/
def Macro.textFor (m : Macro) (param name : String) : String :=
  Text.rename (Text.substitute param name) (Text.replace ("#" ++ param) ("\"" ++ name ++ "\"") m.body)

/-! ## Branches -/

namespace Wording

/-- The texts of a call have neither a `#` nor the word `FUNCNAME`. -/
theorem callOf_spares (v : Variant) (cached : Bool) (name : String) :
    ('#' ∉ ((of v).callOf cached).before.toList ∧ '#' ∉ ((of v).callOf cached).after.toList) ∧
    Kept (Text.substitute "FUNCNAME" name) ((of v).callOf cached).before ∧
      Kept (Text.substitute "FUNCNAME" name) ((of v).callOf cached).after := by
  cases v <;> cases cached
  all_goals
    exact ⟨⟨Text.not_mem_ofList (by decide), Text.not_mem_ofList (by decide)⟩,
      Text.kept_substitute (by decide) name, Text.kept_substitute (by decide) name⟩

theorem replace_branch (v : Variant) (cached : Bool) (new : String) :
    Text.replace "#FUNCNAME" new ((of v).branch "#FUNCNAME" "FUNCNAME" cached) =
      (of v).branch new "FUNCNAME" cached := by
  obtain ⟨⟨before, after⟩, -⟩ := callOf_spares v cached ""
  have middle : '#' ∉ ((of v).middle cached).toList := Text.not_mem_append (Text.not_mem_ofList (by decide)) before
  have finish : '#' ∉ ((of v).finish cached).toList := Text.not_mem_append after (Text.not_mem_ofList (by decide))
  have others : '#' ∉ ((of v).middle cached ++ ("FUNCNAME" ++ (of v).finish cached)).toList :=
    Text.not_mem_append middle (Text.not_mem_append (Text.not_mem_ofList (by decide)) finish)
  rw [branch_eq, branch_eq, ← String.append_assoc,
    Text.replace_of_head (c := '#') rfl (Text.not_mem_ofList (by decide)) others, String.append_assoc]

theorem substitute_branch (v : Variant) (cached : Bool) (matched name : String) :
    Text.rename (Text.substitute "FUNCNAME" name) ((of v).branch matched "FUNCNAME" cached) =
      (of v).branch (Text.rename (Text.substitute "FUNCNAME" name) matched) name cached := by
  have func : Text.rename (Text.substitute "FUNCNAME" name) "FUNCNAME" = name :=
    (Text.rename_of_isIdentifier (by decide)).trans (if_pos rfl)
  obtain ⟨-, before, after⟩ := callOf_spares v cached name
  rw [rename_branch v cached (Text.kept_substitute (by decide) name) (Text.kept_substitute (by decide) name)
    (Text.kept_substitute (by decide) name) before after, func]

/-! ## The whole routine -/

set_option maxRecDepth 2000 in
/-- Nothing around the branches has an `F`, with which the parameters of the call begin. -/
theorem call_apart (v : Variant) : 'F' ∉ (of v).front.toList ∧ 'F' ∉ (of v).back.toList := by
  have space : 'F' ∉ " ".toList := Text.not_mem_ofList (by decide)
  have statements : 'F' ∉ (of v).nameDecl.toList ∧ 'F' ∉ (of v).fallback.toList := by
    cases v <;> exact ⟨Text.not_mem_ofList (by decide +kernel), Text.not_mem_ofList (by decide +kernel)⟩
  have around : 'F' ∉ (of v).signature.toList ∧ 'F' ∉ (of v).closing.toList := by
    cases v with
    | templated =>
      exact ⟨Text.not_mem_append (Text.not_mem_ofList (by decide)) (Text.not_mem_ofList (by decide)),
        Text.not_mem_ofList (by decide)⟩
    | legacy | classic | callback => exact ⟨List.not_mem_nil, List.not_mem_nil⟩
  exact ⟨Text.not_mem_append (Text.not_mem_append around.1 statements.1) space,
    Text.not_mem_append (Text.not_mem_append space statements.2) around.2⟩

/-- The one call in a routine is replaced. -/
theorem replace_defaultDispatch (v : Variant) {many new : String} (hm : Text.isIdentifier many = true)
    (hn : new.isEmpty = false) : Text.replace (many ++ "(FUNCNAME, __VA_ARGS__)") new
      ((of v).defaultDispatch (many ++ "(FUNCNAME, __VA_ARGS__)")) = (of v).defaultDispatch new := by
  have call : (many ++ "(FUNCNAME, __VA_ARGS__)").isEmpty = false :=
    String.isEmpty_eq_false_iff.2 fun he => absurd (String.append_eq_empty_iff.1 he).2 (by decide)
  have last : (of v).front.toList.getLast? = some ' ' := by
    rw [front, String.toList_append, List.getLast?_append]
    rfl
  obtain ⟨before, after⟩ := call_apart v
  rw [defaultDispatch_eq _ call, defaultDispatch_eq _ hn, Text.replace_call hm rfl last before after]

end Wording

namespace Plan

theorem render_defaultDispatch (fs : List String) (v : Variant) : (defaultDispatch fs).render v =
    (Wording.of v).defaultDispatch
      (" ".intercalate ((fs.map fun f => ⟨f, f, false⟩).map (branchText (Wording.of v)))) := by
  have hb : (defaultDispatch fs).branches = fs.map fun f => ⟨f, f, false⟩ := by
    simp [defaultDispatch, push, empty, branches, Group.branches, Group.targets]
  rw [render, hb]

end Plan

/-! ## Headers -/

namespace Header

variable {c : Config}

theorem textFor_attachOne {name : String} (hn : Text.isIdentifier name = true) :
    (attachOne c false).textFor "FUNCNAME" name = Plan.branchText c.wording ⟨name, name, false⟩ := by
  have hash : "#" ++ "FUNCNAME" = "#FUNCNAME" := by decide
  show Text.rename _ (Text.replace ("#" ++ "FUNCNAME") _ (c.wording.branch "#FUNCNAME" "FUNCNAME" false)) = _
  rw [hash, Config.wording, Wording.replace_branch, Wording.substitute_branch, Text.rename_quoted hn]
  rfl

/-- From two names on, `ATTACH_FUNCS` gives what `ATTACH_FUNC` makes of each, in order. -/
theorem yields_attachMany_given (hs : Text.isStem c.stem = true) (cached : Bool) {names : List String}
    (h2 : 2 ≤ names.length) (hk : names.length ≤ c.top) :
    (build c).sheet.Yields (call (c.naming.attachMany cached) (names.map fun f => [given f]))
      (names.flatMap fun f => (attachOne c cached).filled [[given f]]) := by
  have whole : padded 1 (names.map fun f => [given f]) = names.map fun f => [given f] := by
    rw [padded, List.length_map, if_neg (Nat.not_le_of_lt h2)]
  have hne : names.map (fun f => [given f]) ≠ [] := by
    rw [Ne, List.map_eq_nil_iff, ← List.length_eq_zero_iff]
    omega
  have filled := yields_attachMany_filled (c := c) hs cached hne (by rwa [whole, List.length_map])
    (by rw [whole]; exact List.forall_mem_map.2 fun f _ => Token.intact_given f)
    (by rw [whole]; exact List.forall_mem_map.2 fun f _ => List.forall_mem_singleton.2 trivial)
  rwa [whole, List.flatMap_map] at filled

/-- In a generated header, let the call of `ATTACH_FUNCS` in the body of `DEFAULT_DISPATCH` be replaced by the
body of `ATTACH_FUNC` with each of the names put in, one after the other: the text is the routine that a plan of
these names writes. `ATTACH_FUNCS` expands to just these bodies, filled with the names in their order. -/
theorem routine_of_names {c : Config} {h : Header} (hg : generate c = .ok h) {names : List String}
    (hn : ∀ f ∈ names, Text.isIdentifier f = true) (h2 : 2 ≤ names.length) (hk : names.length ≤ c.maxArity.toNat) :
    ∃ one whole inner, h.sheet.macro? (c.naming.attach false) = some one ∧
      h.sheet.macro? c.naming.defaultDispatch = some whole ∧ whole.body = Ladder.expanded inner ∧
      Text.replace (c.naming.attachMany false ++ "(FUNCNAME, __VA_ARGS__)")
        (" ".intercalate (names.map (one.textFor "FUNCNAME"))) inner = (Plan.defaultDispatch names).render c.variant ∧
      h.sheet.Expands (call (c.naming.attachMany false) (names.map fun f => [given f]))
        (names.flatMap fun f => one.filled [[given f]]) ∧
      ∀ f ∈ names, Token.ofText (one.textFor "FUNCNAME" f) = one.filled [[word f]] := by
  obtain ⟨rfl, hs⟩ := eq_build hg
  have hone : (build c).sheet.macro? (c.naming.attach false) = some (attachOne c false) :=
    macro?_registration (mem_attachPart false (List.mem_cons_self ..))
  have hwhole : (build c).sheet.macro? c.naming.defaultDispatch =
      some (Registration.defaultMacro c.naming c.wording 0 (registrationId c + 1)) :=
    macro?_registration (List.mem_append_right _ (List.mem_singleton_self _))
  refine ⟨_, _, _, hone, hwhole, rfl, ?_, (yields_attachMany_given hs false h2 hk).expands, fun f hf => ?_⟩
  · have texts : names.map ((attachOne c false).textFor "FUNCNAME") =
        (names.map fun f => ⟨f, f, false⟩).map (Plan.branchText c.wording) := by
      rw [List.map_map]
      exact List.map_congr_left fun f hf => textFor_attachOne (hn f hf)
    have hne : names.map (fun f => (⟨f, f, false⟩ : Branch)) ≠ [] := by
      rw [Ne, List.map_eq_nil_iff, ← List.length_eq_zero_iff]
      omega
    rw [texts, Plan.render_defaultDispatch]
    exact Wording.replace_defaultDispatch c.variant (Naming.proper_attachMany (n := c.naming) hs false).identifier
      (Plan.isEmpty_chain hne)
  · have hf' : IsNameOrEmpty f := .inr (hn f hf)
    rw [textFor_attachOne (hn f hf), ← filled_attach_name false hf', Token.ofText_word (hn f hf)]

/-- A function may be called `FUNCNAME` like the parameter. -/
theorem routine_of_names_parameter : let c : Config := ⟨4, .templated, none, "RPC_"⟩
    generate c = .ok (build c) ∧ (∀ f ∈ ["add", "FUNCNAME"], Text.isIdentifier f = true) ∧
    ∃ one whole inner, (build c).sheet.macro? (c.naming.attach false) = some one ∧
      (build c).sheet.macro? c.naming.defaultDispatch = some whole ∧ whole.body = Ladder.expanded inner ∧
      Text.replace (c.naming.attachMany false ++ "(FUNCNAME, __VA_ARGS__)")
        (" ".intercalate (["add", "FUNCNAME"].map (one.textFor "FUNCNAME"))) inner =
          (Plan.defaultDispatch ["add", "FUNCNAME"]).render c.variant ∧
      (build c).sheet.Expands (call (c.naming.attachMany false) [[given "add"], [given "FUNCNAME"]])
        (one.filled [[given "add"]] ++ one.filled [[given "FUNCNAME"]]) ∧
      ∀ f ∈ ["add", "FUNCNAME"], Token.ofText (one.textFor "FUNCNAME" f) = one.filled [[word f]] := by
  intro c
  have hg : generate ⟨4, .templated, none, "RPC_"⟩ = .ok (build c) := by
    rw [generate_eq]
    rfl
  have hn : ∀ f ∈ ["add", "FUNCNAME"], Text.isIdentifier f = true := by decide
  obtain ⟨one, whole, inner, h1, h2, h3, h4, h5, h6⟩ := routine_of_names hg hn (by decide) (by decide)
  rw [List.flatMap_cons, List.flatMap_cons, List.flatMap_nil, List.append_nil] at h5
  exact ⟨hg, hn, one, whole, inner, h1, h2, h3, h4, h5, h6⟩

end Header

end NamedDispatch
