/-
What the invocations of a plan expand to. A macro such as `ATTACH_FUNCS` that is invoked with its named
parameters only hands on an empty argument after them; where it is taken for one more name, a branch is given
for it (`Group.surplus`).
-/
import NamedDispatch.Proofs.Expansion.Listed
import NamedDispatch.Proofs.Expansion.PairLadder
import NamedDispatch.Proofs.Expansion.Repeat
import NamedDispatch.Proofs.Plan.Support

namespace NamedDispatch

open Token (word call names Intact enclosed)

/-! ## Invocations -/

namespace Group

/-- What the macro of an invocation is called with. -/
def arguments : Form → List String
  | .attach func => [func]
  | .attachMany funcs => funcs
  | .singleAlias func name => [func, name]
  | .multiAlias func names => func :: names
  | .aliasPairs pairs => pairs.flatMap fun p => [p.1, p.2]

/-- The call that attaches a group, such as `ATTACH_FUNCS(f, g)`. -/
def invocation (g : Group) (n : Naming) : List Token := call (g.macroName n) (names (arguments g.form))

/-- Whether `ATTACH_FUNCS` or `MULTI_ALIAS_FUNC` is invoked with one name only, so that the empty argument it
hands on in place of others is taken for one more. `ALIAS_FUNCS` takes its arguments two at a time, and there
the empty one is left over. -/
def isLone (g : Group) : Bool :=
  match g.form with
  | .attachMany [_] => true
  | .multiAlias _ [_] => true
  | _ => false

/-- The branch for the empty argument, where it is taken for one more name. -/
def surplus (g : Group) : List Branch :=
  match g.form with
  | .attachMany [_] => [⟨"", "", g.cached⟩]
  | .multiAlias func [_] => [⟨"", func, g.cached⟩]
  | _ => []

theorem surplus_eq_nil_iff (g : Group) : g.surplus = [] ↔ g.isLone = false := by
  unfold surplus isLone
  split <;> simp

/-- Branches match and run what the invocation is called with. -/
theorem mem_arguments {g : Group} {b : Branch} (h : b ∈ g.branches) :
    b.name ∈ arguments g.form ∧ b.target ∈ arguments g.form := by
  obtain ⟨form, cached⟩ := g
  obtain ⟨t, ht, rfl⟩ := List.mem_map.1 h
  cases form with
  | attach f =>
    obtain rfl := List.mem_singleton.1 ht
    simp [arguments]
  | attachMany fs =>
    obtain ⟨f, hf, rfl⟩ := List.mem_map.1 ht
    exact ⟨hf, hf⟩
  | singleAlias f a =>
    obtain rfl := List.mem_singleton.1 ht
    simp [arguments]
  | multiAlias f as =>
    obtain ⟨a, ha, rfl⟩ := List.mem_map.1 ht
    exact ⟨List.mem_cons_of_mem _ ha, List.mem_cons_self ..⟩
  | aliasPairs ps =>
    obtain ⟨q, hq, rfl⟩ := List.mem_map.1 ht
    exact ⟨List.mem_flatMap.2 ⟨q, hq, by simp⟩, List.mem_flatMap.2 ⟨q, hq, by simp⟩⟩

theorem mem_surplus {g : Group} {b : Branch} (h : b ∈ g.surplus) :
    b.name = "" ∧ (b.target = "" ∨ b.target ∈ arguments g.form) := by
  obtain ⟨form, cached⟩ := g
  unfold surplus at h
  split at h
  · obtain rfl := List.mem_singleton.1 h
    exact ⟨rfl, .inl rfl⟩
  · rename_i f a hform
    obtain rfl := List.mem_singleton.1 h
    cases hform
    exact ⟨rfl, .inr (List.mem_cons_self ..)⟩
  · cases h

end Group

/-! ## Names that are handed on -/

/-- The names that are handed on: an empty one follows where there are no more than `n`. -/
def handedOn (n : Nat) (ws : List String) : List String := if ws.length ≤ n then ws ++ [""] else ws

theorem mem_handedOn {n : Nat} {w : String} {ws : List String} (h : w ∈ ws) : w ∈ handedOn n ws := by
  unfold handedOn
  split
  · exact List.mem_append_left _ h
  · exact h

theorem handedOn_cons (n : Nat) (w : String) (ws : List String) :
    handedOn (n + 1) (w :: ws) = w :: handedOn n ws := by
  unfold handedOn
  rw [List.length_cons]
  by_cases h : ws.length ≤ n
  · rw [if_pos h, if_pos (Nat.add_le_add_right h 1)]
    rfl
  · rw [if_neg h, if_neg fun h' => h (Nat.le_of_add_le_add_right h')]

theorem length_handedOn {n : Nat} {ws : List String} (h : n ≤ ws.length) :
    (handedOn n ws).length = max ws.length (n + 1) := by
  unfold handedOn
  split
  · rw [List.length_append, List.length_singleton]
    omega
  · omega

theorem padded_map (n : Nat) (ws : List String) :
    padded n (ws.map Token.ofText) = (handedOn n ws).map Token.ofText := by
  unfold padded handedOn
  rw [List.length_map]
  split
  · rw [List.map_append]
    rfl
  · rfl

/-- Pairs laid out one after the other are found again, and what is left over is dropped. -/
theorem pairsOf_flatMap {α : Type} {last : List α} (hl : pairsOf last = []) : ∀ ps : List (α × α),
    pairsOf ((ps.flatMap fun p => [p.1, p.2]) ++ last) = ps
  | [] => hl
  | p :: ps => congrArg (p :: ·) (pairsOf_flatMap hl ps)

theorem names_eq {ws : List String} (h : ∀ w ∈ ws, Text.isIdentifier w = true) :
    names ws = ws.map Token.ofText :=
  List.map_congr_left fun w hw => (Token.ofText_word (h w hw)).symm

theorem branches_attachMany (cached : Bool) {fs : List String} (hne : 1 ≤ fs.length) :
    Group.branches ⟨.attachMany fs, cached⟩ ++ Group.surplus ⟨.attachMany fs, cached⟩ =
      (handedOn 1 fs).map fun f => ⟨f, f, cached⟩ := by
  obtain _ | ⟨f, _ | ⟨f', fs⟩⟩ := fs <;> simp [Group.branches, Group.targets, Group.surplus, handedOn] at hne ⊢

theorem branches_multiAlias (cached : Bool) (f : String) {as : List String} (hne : 1 ≤ as.length) :
    Group.branches ⟨.multiAlias f as, cached⟩ ++ Group.surplus ⟨.multiAlias f as, cached⟩ =
      (handedOn 1 as).map fun a => ⟨a, f, cached⟩ := by
  obtain _ | ⟨a, _ | ⟨a', as⟩⟩ := as <;> simp [Group.branches, Group.targets, Group.surplus, handedOn] at hne ⊢

theorem branches_aliasPairs (cached : Bool) (ps : List (String × String)) :
    Group.branches ⟨.aliasPairs ps, cached⟩ ++ Group.surplus ⟨.aliasPairs ps, cached⟩ =
      ps.map fun p => ⟨p.2, p.1, cached⟩ := by
  simp [Group.branches, Group.targets, Group.surplus]

namespace Header

variable {c : Config}

/-! ## `ATTACH_FUNCS`, `MULTI_ALIAS_FUNC` and `ALIAS_FUNCS` -/

theorem macro?_attachMany (cached : Bool) : ∃ refs doc, (build c).sheet.macro? (c.naming.attachMany cached) =
    some (Registration.repeating (c.naming.attachMany cached) ["FUNCNAME"] c.naming.forEach
      (c.naming.attach cached) refs doc) :=
  ⟨_, _, macro?_registration (mem_attachPart cached (List.mem_cons_of_mem _ (List.mem_singleton_self _)))⟩

theorem macro?_aliasMany {p : PairPolicy} (hp : c.effectivePairPolicy = some p) (cached : Bool) :
    ∃ refs doc, (build c).sheet.macro? (Registration.aliasManyName c.naming p cached) =
      some (Registration.repeating (Registration.aliasManyName c.naming p cached) ["FUNCNAME", "FUNC_ALIAS"]
        c.naming.forEachPair (c.naming.singleAlias cached) refs doc) :=
  ⟨_, _, macro?_registration (mem_aliasPart hp cached (List.mem_cons_of_mem _ (List.mem_singleton_self _)))⟩

section

variable (hs : Text.isStem c.stem = true)
include hs

/-- The arguments of `ATTACH_FUNCS` give what `ATTACH_FUNC` makes of each, and of an empty one that is handed on. -/
theorem yields_attachMany_filled (cached : Bool) {args : List (List Token)} (hne : args ≠ [])
    (hk : (padded 1 args).length ≤ c.top) (hw : ∀ a ∈ padded 1 args, Intact a)
    (hp : ∀ a ∈ padded 1 args, ∀ t ∈ a, (build c).sheet.Plain t) :
    (build c).sheet.Yields (call (c.naming.attachMany cached) args)
      ((padded 1 args).flatMap fun a => (attachOne c cached).filled [a]) := by
  have hmem : ∀ a ∈ args, a ∈ padded 1 args := by
    unfold padded
    split
    · exact fun a h => List.mem_append_left _ h
    · exact fun a h => h
  obtain ⟨a, ha⟩ := List.exists_mem_of_ne_nil args hne
  obtain ⟨refs, doc, hm⟩ := macro?_attachMany (c := c) cached
  refine yields_many hm (by decide) (Naming.proper_forEach (n := c.naming) hs)
    (Naming.proper_attach (n := c.naming) hs cached) (List.length_pos_iff.2 hne) (fun a h => hw a (hmem a h)) ?_
  -- `FOR_EACH` hands what it gets to the level that applies `ATTACH_FUNC`
  refine yields_forEach hs (Token.intact_word _) (List.ne_nil_of_mem (hmem a ha)) hw hk ?_
  have level : (build c).sheet.Yields
      (call (c.naming.level (padded 1 args).length) ([word (c.naming.attach cached)] :: (padded 1 args).map id))
      ((padded 1 args).flatMap fun a => (attachOne c cached).filled [a]) := by
    refine yields_level hs (Token.intact_word _) (padded 1 args) hk hw fun a h => ?_
    rw [filled_attachOne]
    exact yields_attach cached (hw a h) (hp a h)
  rwa [List.map_id] at level

/-- The functions in `ATTACH_FUNCS` give a branch each, and one more for an empty name that is handed on. -/
theorem yields_attachMany (cached : Bool) {fs : List String} (hne : fs ≠ []) (hk : (handedOn 1 fs).length ≤ c.top)
    (hf : ∀ f ∈ handedOn 1 fs, Free c f) :
    (build c).sheet.Yields (call (c.naming.attachMany cached) (fs.map Token.ofText))
      ((handedOn 1 fs).flatMap fun f => Token.ofText (Plan.branchText c.wording ⟨f, f, cached⟩)) := by
  have hw : ∀ a ∈ padded 1 (fs.map Token.ofText), Intact a := by
    rw [padded_map]
    exact List.forall_mem_map.2 fun f h => intact_ofText (hf f h).isNameOrEmpty
  have hp : ∀ a ∈ padded 1 (fs.map Token.ofText), ∀ t ∈ a, (build c).sheet.Plain t := by
    rw [padded_map]
    exact List.forall_mem_map.2 fun f h => plain_ofText (hf f h)
  have filled := yields_attachMany_filled hs cached (mt List.map_eq_nil_iff.1 hne)
    (by rwa [padded_map, List.length_map]) hw hp
  rwa [padded_map, List.flatMap_map,
    List.flatMap_congr fun f h => filled_attach_name cached (hf f h).isNameOrEmpty] at filled

/-- The names in `MULTI_ALIAS_FUNC` give a branch each, and one more for an empty name that is handed on. -/
theorem yields_multiAlias (hp : c.effectivePairPolicy = some .holdFirst) (cached : Bool) {f : String}
    {as : List String} (hne : as ≠ []) (hk : (handedOn 1 as).length + 1 ≤ c.top) (hf : Free c f)
    (ha : ∀ a ∈ handedOn 1 as, IsNameOrEmpty a) :
    (build c).sheet.Yields (call (c.naming.multiAlias cached) ((f :: as).map Token.ofText))
      ((handedOn 1 as).flatMap fun a => Token.ofText (Plan.branchText c.wording ⟨a, f, cached⟩)) := by
  have hwf : Intact (Token.ofText f) := intact_ofText hf.isNameOrEmpty
  have hw : ∀ a ∈ handedOn 1 as, Intact (Token.ofText a) := fun a h => intact_ofText (ha a h)
  obtain ⟨refs, doc, hm⟩ := macro?_aliasMany hp cached
  refine yields_many hm (by decide) (Naming.proper_forEachPair (n := c.naming) hs)
    (Naming.proper_singleAlias (n := c.naming) hs cached) ?_ ?_ ?_
  · rw [List.length_map]
    exact Nat.succ_le_succ (List.length_pos_iff.2 hne)
  · exact List.forall_mem_map.2 (List.forall_mem_cons.2 ⟨hwf, fun a h => hw a (mem_handedOn h)⟩)
  · show (build c).sheet.Yields (call c.naming.forEachPair (_ :: padded 2 ((f :: as).map Token.ofText))) _
    rw [padded_map, handedOn_cons, List.map_cons]
    refine yields_forEachPair hs hp (Token.intact_word _) (List.cons_ne_nil _ _)
      (List.forall_mem_cons.2 ⟨hwf, List.forall_mem_map.2 hw⟩) (by rwa [List.length_cons, List.length_map]) ?_
    rw [List.length_cons, List.length_map]
    exact yields_holdFirst hs hp (Token.intact_word _) hwf (handedOn 1 as) hk hw
      fun a h => yields_alias_name hp cached hf (ha a h)

/-- The pairs in `ALIAS_FUNCS` give a branch each; an empty argument that is handed on has no partner. -/
theorem yields_aliasPairs (hp : c.effectivePairPolicy = some .advanceBoth) (cached : Bool)
    {ps : List (String × String)} (hne : ps ≠ [])
    (hk : (handedOn 2 (ps.flatMap fun p => [p.1, p.2])).length ≤ c.top)
    (hf : ∀ s ∈ handedOn 2 (ps.flatMap fun p => [p.1, p.2]), Free c s) :
    (build c).sheet.Yields (call (c.naming.aliasPairs cached) ((ps.flatMap fun p => [p.1, p.2]).map Token.ofText))
      (ps.flatMap fun p => Token.ofText (Plan.branchText c.wording ⟨p.2, p.1, cached⟩)) := by
  set ws := ps.flatMap fun p => [p.1, p.2] with hws
  have hw : ∀ s ∈ handedOn 2 ws, Intact (Token.ofText s) := fun s h => intact_ofText (hf s h).isNameOrEmpty
  -- an empty argument after the last pair has no partner
  have hpairs : pairsOf (handedOn 2 ws) = ps := by
    unfold handedOn
    split
    · exact pairsOf_flatMap rfl ps
    · rw [← List.append_nil ws]
      exact pairsOf_flatMap rfl ps
  have hlen : 2 ≤ ws.length := by
    obtain ⟨p, ps, rfl⟩ := List.exists_cons_of_ne_nil hne
    simp [hws]
  have hne' : (handedOn 2 ws).map Token.ofText ≠ [] := by
    rw [Ne, ← List.length_eq_zero_iff, List.length_map, length_handedOn hlen]
    omega
  have hmem : ∀ p ∈ ps, p.1 ∈ ws ∧ p.2 ∈ ws := fun p h =>
    ⟨List.mem_flatMap.2 ⟨p, h, by simp⟩, List.mem_flatMap.2 ⟨p, h, by simp⟩⟩
  have each : ∀ p ∈ pairsOf (handedOn 2 ws), (build c).sheet.Yields
      ([word (c.naming.singleAlias cached)] ++ enclosed [Token.ofText p.1, Token.ofText p.2])
      (Token.ofText (Plan.branchText c.wording ⟨p.2, p.1, cached⟩)) := by
    rw [hpairs]
    intro p h
    exact yields_alias_name hp cached (hf p.1 (mem_handedOn (hmem p h).1))
      (hf p.2 (mem_handedOn (hmem p h).2)).isNameOrEmpty
  have pairs := yields_advanceBoth hs hp (Token.intact_word _) (handedOn 2 ws) hk hw each
  rw [hpairs] at pairs
  obtain ⟨refs, doc, hm⟩ := macro?_aliasMany hp cached
  refine yields_many hm (by decide) (Naming.proper_forEachPair (n := c.naming) hs)
    (Naming.proper_singleAlias (n := c.naming) hs cached) ?_ ?_ ?_
  · rwa [List.length_map]
  · exact List.forall_mem_map.2 fun s h => hw s (mem_handedOn h)
  · show (build c).sheet.Yields (call c.naming.forEachPair (_ :: padded 2 (ws.map Token.ofText))) _
    rw [padded_map]
    refine yields_forEachPair hs hp (Token.intact_word _) hne' (List.forall_mem_map.2 hw) (by rwa [List.length_map]) ?_
    rw [List.length_map]
    exact pairs

/-! ## Invocations of a plan -/

omit hs in
theorem free_handedOn {n : Nat} {ws : List String} (hn : ∀ s ∈ ws, Free c s) : ∀ s ∈ handedOn n ws, Free c s := by
  unfold handedOn
  split
  · exact List.forall_mem_append.2 ⟨hn, List.forall_mem_singleton.2 (.inl rfl)⟩
  · exact hn

/-- An invocation that passes the checks of its group expands to its branches and the `surplus`. -/
theorem yields_invocation {g : Group} (hsup : g.checkSupport c = .ok ()) (hcap : g.requiredArity ≤ c.top)
    (hn : ∀ s ∈ Group.arguments g.form, Text.isIdentifier s = true ∧ (build c).sheet.macro? s = none) :
    (build c).sheet.Yields (g.invocation c.naming) (Plan.tokensOf c.variant (g.branches ++ g.surplus)) := by
  obtain ⟨hpol, hne⟩ := Group.checkSupport_ok_iff.1 hsup
  have hf : ∀ s ∈ Group.arguments g.form, Free c s := fun s h => .inr (hn s h)
  rw [Group.invocation, names_eq fun s h => (hn s h).1]
  obtain ⟨form, cached⟩ := g
  cases form with
  | attach f =>
    show (build c).sheet.Yields _ (Plan.tokensOf c.variant [_])
    rw [Plan.tokensOf, List.flatMap_singleton]
    exact yields_attach_name cached (hf f (List.mem_singleton_self f))
  | attachMany fs =>
    have hlen : 1 ≤ fs.length := by simpa [Group.isEmpty, Nat.one_le_iff_ne_zero] using hne
    have hk : (handedOn 1 fs).length ≤ c.top := by rwa [length_handedOn hlen]
    rw [branches_attachMany cached hlen, Plan.tokensOf_map]
    exact yields_attachMany hs cached (List.length_pos_iff.1 hlen) hk (free_handedOn hf)
  | singleAlias f a =>
    obtain ⟨p, hp⟩ := Option.isSome_iff_exists.1 hpol
    have ha := hf a (List.mem_cons_of_mem _ (List.mem_singleton_self a))
    show (build c).sheet.Yields _ (Plan.tokensOf c.variant [_])
    rw [Plan.tokensOf, List.flatMap_singleton]
    exact yields_alias_name hp cached (hf f (List.mem_cons_self ..)) ha.isNameOrEmpty
  | multiAlias f as =>
    have hlen : 1 ≤ as.length := by simpa [Group.isEmpty, Nat.one_le_iff_ne_zero] using hne
    have hk : (handedOn 1 as).length + 1 ≤ c.top := by
      rw [length_handedOn hlen]
      simp only [Group.requiredArity] at hcap
      omega
    have hp : c.effectivePairPolicy = some .holdFirst := beq_iff_eq.1 hpol
    obtain ⟨hff, hfa⟩ := List.forall_mem_cons.1 hf
    rw [branches_multiAlias cached f hlen, Plan.tokensOf_map]
    exact yields_multiAlias hs hp cached (List.length_pos_iff.1 hlen) hk hff
      fun a h => (free_handedOn hfa a h).isNameOrEmpty
  | aliasPairs ps =>
    have hlen : 1 ≤ ps.length := by simpa [Group.isEmpty, Nat.one_le_iff_ne_zero] using hne
    have hp : c.effectivePairPolicy = some .advanceBoth := beq_iff_eq.1 hpol
    have hk : (handedOn 2 (ps.flatMap fun p => [p.1, p.2])).length ≤ c.top := by
      have : (ps.flatMap fun p => [p.1, p.2]).length = 2 * ps.length := by simp [Nat.mul_comm]
      rw [length_handedOn (by omega), this]
      exact hcap
    rw [branches_aliasPairs, Plan.tokensOf_map]
    exact yields_aliasPairs hs hp cached (List.length_pos_iff.1 hlen) hk (free_handedOn hf)

end

end Header

end NamedDispatch
