/-
Which invocations a header supports. `Plan.checkSupport` decides it from the policy of the levels `FE2_k`, and the
header defines its macros by the variant and that policy; the two agree, whatever the stem of the names is.
-/
import NamedDispatch.Plan.Basic
import NamedDispatch.Proofs.Header.Generated

namespace NamedDispatch

namespace Group

variable {c : Config}

theorem checkSupport_ok_iff {g : Group} : g.checkSupport c = .ok () ↔
    g.isSupported c.effectivePairPolicy = true ∧ g.isEmpty = false := by
  unfold checkSupport
  by_cases hs : g.isSupported c.effectivePairPolicy = true
  · rw [if_pos hs, and_iff_right hs, ← Bool.not_eq_true]
    by_cases he : g.isEmpty = true
    · rw [if_pos he]
      exact ⟨nofun, fun h => absurd he h⟩
    · rw [if_neg he]
      exact ⟨fun _ => he, fun _ => rfl⟩
  · rw [if_neg hs]
    exact ⟨nofun, fun h => absurd h.1 hs⟩

/-- A macro that `checkSupport` refuses for another reason than its names is one the header does not have. -/
theorem checkSupport_ne_unsupported_iff {g : Group} :
    (∀ name v, g.checkSupport c ≠ .error (.unsupported name v)) ↔ g.isSupported c.effectivePairPolicy = true := by
  unfold checkSupport
  by_cases hs : g.isSupported c.effectivePairPolicy = true
  · rw [if_pos hs]
    refine ⟨fun _ => hs, fun _ name v => ?_⟩
    split <;> nofun
  · rw [if_neg hs]
    exact ⟨fun h => absurd rfl (h _ _), fun h => absurd h hs⟩

theorem isEmpty_eq_false_iff {g : Group} : g.isEmpty = false ↔
    g.form ≠ .attachMany [] ∧ (∀ func, g.form ≠ .multiAlias func []) ∧ g.form ≠ .aliasPairs [] := by
  unfold isEmpty
  cases g.form <;> simp

/-! ## What follows the stem -/

/-- What follows the stem in the name of a macro that an invocation names, such as `ATTACH_FUNCS`. -/
def suffix (g : Group) : String := g.macroName ⟨""⟩

theorem macroName_eq (g : Group) (n : Naming) : g.macroName n = n.stem ++ g.suffix := by
  unfold suffix macroName
  cases g.form with
  | attach f => rw [Naming.attach_eq, Naming.attach_eq, String.empty_append]
  | attachMany fs => rw [Naming.attachMany_eq, Naming.attachMany_eq, String.empty_append]
  | singleAlias f a => rw [Naming.singleAlias_eq, Naming.singleAlias_eq, String.empty_append]
  | multiAlias f as => rw [Naming.multiAlias_eq, Naming.multiAlias_eq, String.empty_append]
  | aliasPairs ps => rw [Naming.aliasPairs_eq, Naming.aliasPairs_eq, String.empty_append]

/-- These are names of macros that servers use: no `FE_k` or `FE2_k`, and not `HEADER_FUNC`. -/
theorem suffix_spec (g : Group) : Naming.endsLikeName g.suffix = true ∧ Header.startsAsLevel g.suffix = false ∧
    g.suffix ≠ "HEADER_FUNC" := by
  obtain ⟨form, cached⟩ := g
  cases form <;> cases cached <;> dsimp only [suffix, macroName] <;> decide

theorem suffix_mem_iff (g : Group) : g.suffix ∈ Header.onceSuffixes c ↔
    g.isSupported c.effectivePairPolicy = true := by
  obtain ⟨form, cached⟩ := g
  unfold Header.onceSuffixes
  rcases c.effectivePairPolicy with _ | _ | _ <;> cases form <;> cases cached
  all_goals
    dsimp only [suffix, macroName, isSupported]
    decide

/-- The header defines the macro of an invocation exactly when its policy supports it. -/
theorem macroName_mem_iff (g : Group) : (∃ m ∈ (Header.build c).sheet.defs.toList, m.name = g.macroName c.naming) ↔
    g.isSupported c.effectivePairPolicy = true := by
  obtain ⟨he, hl, hf⟩ := g.suffix_spec
  rw [Header.toList_build, macroName_eq, show c.naming.stem = c.stem from rfl, Header.mem_names_iff c he hl hf,
    suffix_mem_iff]

end Group

namespace Plan

theorem checkSupport_single (g : Group) (c : Config) : Plan.checkSupport ⟨[g]⟩ c = g.checkSupport c := by
  show (do g.checkSupport c; .ok ()) = _
  cases g.checkSupport c <;> rfl

theorem checkCapacity_ok_iff {p : Plan} {n : Nat} :
    p.checkCapacity n = .ok () ↔ ∀ g ∈ p.groups, g.requiredArity ≤ n := by
  have few : (p.groups.map Group.requiredArity).find? (fun needed => decide (n < needed)) = none ↔
      ∀ g ∈ p.groups, g.requiredArity ≤ n := by
    rw [List.find?_eq_none, List.forall_mem_map]
    simp only [decide_eq_true_eq, Nat.not_lt]
  unfold checkCapacity
  rw [← few]
  split
  · rename_i hnone
    exact ⟨fun _ => hnone, fun _ => rfl⟩
  · rename_i needed hsome
    rw [hsome]
    exact ⟨nofun, nofun⟩

/-- A group fails `checkSupport` as `unsupported` exactly when the header does not define its macro. So a plan
passes when the header defines the macro of every group and none of `ATTACH_FUNCS`, `MULTI_ALIAS_FUNC` or
`ALIAS_FUNCS` is without names. -/
theorem checkSupport_iff_defined {c : Config} {h : Header} (hg : Header.generate c = .ok h) :
    (∀ g : Group, (∀ name v, Plan.checkSupport ⟨[g]⟩ c ≠ .error (.unsupported name v)) ↔
      ∃ m ∈ h.sheet.defs.toList, m.name = g.macroName ⟨c.stem⟩) ∧
    ∀ p : Plan, p.checkSupport c = .ok () ↔ ∀ g ∈ p.groups,
      (∃ m ∈ h.sheet.defs.toList, m.name = g.macroName ⟨c.stem⟩) ∧
      g.form ≠ .attachMany [] ∧ (∀ func, g.form ≠ .multiAlias func []) ∧ g.form ≠ .aliasPairs [] := by
  obtain ⟨rfl, -⟩ := Header.eq_build hg
  constructor
  · intro g
    rw [checkSupport_single, Group.checkSupport_ne_unsupported_iff]
    exact g.macroName_mem_iff.symm
  · intro p
    rw [checkSupport, forM_ok_iff]
    refine forall_congr' fun g => forall_congr' fun _ => ?_
    rw [Group.checkSupport_ok_iff, Group.isEmpty_eq_false_iff]
    exact and_congr_left' g.macroName_mem_iff.symm

/-- A `callback` header has `ALIAS_FUNCS` for pairs, but no `MULTI_ALIAS_FUNC` for one function under
several names. -/
theorem checkSupport_iff_defined_callback :
    (∃ m ∈ (Header.build ⟨3, .callback, none, "RPC_"⟩).sheet.defs.toList, m.name = "RPC_ALIAS_FUNCS") ∧
      ¬∃ m ∈ (Header.build ⟨3, .callback, none, "RPC_"⟩).sheet.defs.toList, m.name = "RPC_MULTI_ALIAS_FUNC" := by
  have hg : Header.generate ⟨3, .callback, none, "RPC_"⟩ = .ok (Header.build ⟨3, .callback, none, "RPC_"⟩) := by
    rw [Header.generate_eq]
    rfl
  obtain ⟨single, plan⟩ := checkSupport_iff_defined hg
  constructor
  · exact ((plan ⟨[⟨.aliasPairs [("add", "Sum")], false⟩]⟩).1 rfl _ (List.mem_singleton_self _)).1
  · intro h
    exact (single ⟨.multiAlias "add" ["Sum"], false⟩).2 h _ _ rfl

end Plan

end NamedDispatch
