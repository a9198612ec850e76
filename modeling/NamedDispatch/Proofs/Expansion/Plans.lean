/-
The branches that a plan lists and those that its invocations expand to. They are the same, apart from a branch
for an empty name after each `ATTACH_FUNCS` or `MULTI_ALIAS_FUNC` that is invoked with one name only.
-/
import NamedDispatch.Proofs.Expansion.Invocations

namespace NamedDispatch

namespace Plan

/-- The calls of a plan, group by group. -/
def invocations (p : Plan) (n : Naming) : List Token := p.groups.flatMap fun g => g.invocation n

/-- The branches that the invocations give, those for an empty argument among them. -/
def given (p : Plan) : List Branch := p.groups.flatMap fun g => g.branches ++ g.surplus

theorem mem_given (p : Plan) {b : Branch} (h : b ∈ p.branches) : b ∈ p.given := by
  obtain ⟨g, hg, hb⟩ := List.mem_flatMap.1 h
  exact List.mem_flatMap.2 ⟨g, hg, List.mem_append_left _ hb⟩

/-- More branches than those of a plan are given just when some group `isLone`. -/
theorem given_eq_branches_iff (p : Plan) : p.given = p.branches ↔ ∀ g ∈ p.groups, g.isLone = false := by
  constructor
  · intro h g hg
    -- the further branches only add to the others, so that counting them is enough
    have parts (gs : List Group) : (gs.flatMap fun g => g.branches ++ g.surplus).length =
        (gs.flatMap Group.branches).length + (gs.flatMap Group.surplus).length := by
      induction gs with
      | nil => rfl
      | cons g gs ih =>
        simp only [List.flatMap_cons, List.length_append, ih]
        omega
    have hnone : (p.groups.flatMap Group.surplus).length = 0 := by
      have hlen := congrArg List.length h
      rw [given, branches, parts] at hlen
      omega
    exact g.surplus_eq_nil_iff.1 (List.flatMap_eq_nil_iff.1 (List.length_eq_zero_iff.1 hnone) g hg)
  · intro h
    refine List.flatMap_congr fun g hg => ?_
    rw [g.surplus_eq_nil_iff.2 (h g hg), List.append_nil]

/-- Every argument of an invocation is an identifier, and none names a macro of the header. -/
def HasNamesFor (p : Plan) (h : Header) : Prop :=
  ∀ g ∈ p.groups, ∀ s ∈ Group.arguments g.form,
    Text.isIdentifier s = true ∧ ∀ m ∈ h.sheet.defs.toList, m.name ≠ s

/-! ## Checks -/

/-- A plan passes `validate` only if every group does. -/
theorem validate_ok {p : Plan} {c : Config} (h : p.validate c = .ok ()) {g : Group} (hg : g ∈ p.groups) :
    g.checkSupport c = .ok () ∧ g.requiredArity ≤ c.maxArity.toNat := by
  obtain ⟨hsup, hcap⟩ := both_ok_iff.1 h
  exact ⟨(forM_ok_iff p.groups).1 hsup g hg, checkCapacity_ok_iff.1 hcap g hg⟩

end Plan

namespace Header

variable {c : Config}

theorem macro?_other {w : String} (hw : ∀ m ∈ (build c).sheet.defs.toList, m.name ≠ w) :
    (build c).sheet.macro? w = none := by
  rw [Sheet.macro?, (indexed_build (c := c)).lookup_eq_none hw]
  rfl

/-- The invocations of a plan that fits the header expand to the branches `given`. -/
theorem yields_invocations (hs : Text.isStem c.stem = true) {p : Plan} (hv : p.validate c = .ok ())
    (hn : p.HasNamesFor (build c)) :
    (build c).sheet.Yields (p.invocations c.naming) (Plan.tokensOf c.variant p.given) := by
  rw [Plan.given, Plan.tokensOf, List.flatMap_assoc]
  refine Sheet.Yields.flatMap fun g hg => ?_
  obtain ⟨hsup, hcap⟩ := Plan.validate_ok hv hg
  exact yields_invocation hs hsup hcap fun s h => ⟨(hn g hg s h).1, macro?_other (hn g hg s h).2⟩

theorem isNamed_given {p : Plan} {h : Header} (hn : p.HasNamesFor h) : ∀ b ∈ p.given, b.IsNamed := by
  intro b hb
  obtain ⟨g, hg, hb⟩ := List.mem_flatMap.1 hb
  have named {s : String} (hs : s ∈ Group.arguments g.form) : IsNameOrEmpty s := .inr (hn g hg s hs).1
  rcases List.mem_append.1 hb with hb | hb
  · obtain ⟨h1, h2⟩ := Group.mem_arguments hb
    exact ⟨named h1, named h2⟩
  · obtain ⟨h1, h2⟩ := Group.mem_surplus hb
    exact ⟨.inl h1, h2.elim .inl named⟩

/-- The invocations of a plan that passes `validate` expand, in a generated header, to the branches `given`:
those of the plan, in order, with one more for an empty name after each `ATTACH_FUNCS` or `MULTI_ALIAS_FUNC`
with one name only. They expand to `branches` just when there is no such invocation. -/
theorem invocations_expand {c : Config} {h : Header} (hg : generate c = .ok h) {p : Plan}
    (hv : p.validate c = .ok ()) (hn : p.HasNamesFor h) :
    (∀ bs, (∀ b ∈ bs, b.IsNamed) →
      (h.sheet.Expands (p.invocations c.naming) (Plan.tokensOf c.variant bs) ↔ bs = p.given)) ∧
    (h.sheet.Expands (p.invocations c.naming) (Plan.tokensOf c.variant p.branches) ↔
      ∀ g ∈ p.groups, g.isLone = false) := by
  obtain ⟨rfl, hs⟩ := eq_build hg
  have expands := (yields_invocations hs hv hn).expands
  have only (bs : List Branch) (hb : ∀ b ∈ bs, b.IsNamed) :
      (build c).sheet.Expands (p.invocations c.naming) (Plan.tokensOf c.variant bs) ↔ bs = p.given := by
    constructor
    · intro h
      exact tokensOf_inj hb (isNamed_given hn) (h.unique expands)
    · rintro rfl
      exact expands
  refine ⟨only, ?_⟩
  rw [only p.branches fun b hb => isNamed_given hn b (p.mem_given hb), eq_comm, p.given_eq_branches_iff]

theorem invocations_expand_several :
    (build ⟨4, .classic, none, "RPC_"⟩).sheet.Expands
      (Plan.invocations ⟨[⟨.attachMany ["add", "neg"], false⟩, ⟨.multiAlias "tick" ["T1", "T2"], true⟩]⟩ ⟨"RPC_"⟩)
      (Plan.tokensOf .classic [⟨"add", "add", false⟩, ⟨"neg", "neg", false⟩, ⟨"T1", "tick", true⟩,
        ⟨"T2", "tick", true⟩]) := by
  refine (invocations_expand (c := ⟨4, .classic, none, "RPC_"⟩) (by rw [generate_eq]; rfl) (by rfl) ?_).2.2 ?_
  · unfold Plan.HasNamesFor
    rw [toList_build]
    decide +kernel
  · decide

/-- The call `ATTACH_FUNCS(f)` gives a branch for an empty name after that for `f`. -/
theorem lone_function_expands :
    generate ⟨2, .classic, none, "RPC_"⟩ = .ok (build ⟨2, .classic, none, "RPC_"⟩) ∧
      Plan.validate ⟨[⟨.attachMany ["f"], false⟩]⟩ ⟨2, .classic, none, "RPC_"⟩ = .ok () ∧
      Plan.HasNamesFor ⟨[⟨.attachMany ["f"], false⟩]⟩ (build ⟨2, .classic, none, "RPC_"⟩) ∧
      (build ⟨2, .classic, none, "RPC_"⟩).sheet.Expands (Plan.invocations ⟨[⟨.attachMany ["f"], false⟩]⟩ ⟨"RPC_"⟩)
        (Plan.tokensOf .classic [⟨"f", "f", false⟩, ⟨"", "", false⟩]) ∧
      ¬(build ⟨2, .classic, none, "RPC_"⟩).sheet.Expands (Plan.invocations ⟨[⟨.attachMany ["f"], false⟩]⟩ ⟨"RPC_"⟩)
        (Plan.tokensOf .classic (Plan.branches ⟨[⟨.attachMany ["f"], false⟩]⟩)) := by
  have hn : Plan.HasNamesFor ⟨[⟨.attachMany ["f"], false⟩]⟩ (build ⟨2, .classic, none, "RPC_"⟩) := by
    unfold Plan.HasNamesFor
    rw [toList_build]
    decide +kernel
  have expands := (yields_invocations (c := ⟨2, .classic, none, "RPC_"⟩) (by decide) rfl hn).expands
  refine ⟨by rw [generate_eq]; rfl, rfl, hn, expands, ?_⟩
  intro h
  have same := tokensOf_inj (c := ⟨2, .classic, none, "RPC_"⟩)
    (fun b hb => isNamed_given hn b (Plan.mem_given _ hb)) (isNamed_given hn) (h.unique expands)
  exact absurd same (by decide)

end Header

end NamedDispatch
