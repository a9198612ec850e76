/-
Whether a plan fits a header (`Plan.validate`). It does exactly when each of its invocations alone does, and it
still does when the header gets more levels. A plan that does not is refused for the first invocation that
cannot be made whatever the levels are, and only if there is none for the first one that needs too many levels.
-/
import NamedDispatch.Proofs.Plan.Support

namespace NamedDispatch

/-! ## The first of a list -/

/-- The element has a property that no element before it has. -/
def IsFirst {α : Type} (P : α → Prop) (as : List α) (a : α) : Prop :=
  ∃ before after, as = before ++ a :: after ∧ P a ∧ ∀ b ∈ before, ¬P b

section

variable {α ε : Type} {P : α → Prop} {a : α} {as : List α}

theorem isFirst_cons_of_pos {b : α} (hb : P b) : IsFirst P (b :: as) a ↔ a = b := by
  constructor
  · rintro ⟨before, after, he, _, hn⟩
    cases before with
    | nil => exact (List.cons.inj he).1.symm
    | cons c before =>
      obtain ⟨rfl, -⟩ := List.cons.inj he
      exact absurd hb (hn b (List.mem_cons_self ..))
  · rintro rfl
    exact ⟨[], as, rfl, hb, List.forall_mem_nil _⟩

theorem isFirst_cons_of_neg {b : α} (hb : ¬P b) : IsFirst P (b :: as) a ↔ IsFirst P as a := by
  constructor
  · rintro ⟨before, after, he, ha, hn⟩
    cases before with
    | nil =>
      obtain ⟨rfl, -⟩ := List.cons.inj he
      exact absurd ha hb
    | cons c before => exact ⟨before, after, (List.cons.inj he).2, ha, fun d hd => hn d (List.mem_cons_of_mem c hd)⟩
  · rintro ⟨before, after, rfl, ha, hn⟩
    exact ⟨b :: before, after, rfl, ha, List.forall_mem_cons.2 ⟨hb, hn⟩⟩

theorem find?_eq_some_iff_isFirst {p : α → Bool} : as.find? p = some a ↔ IsFirst (fun a => p a = true) as a := by
  rw [List.find?_eq_some_iff_append]
  unfold IsFirst
  simp only [Bool.not_eq_true', Bool.not_eq_true]
  constructor
  · rintro ⟨hp, before, after, he, hn⟩
    exact ⟨before, after, he, hp, hn⟩
  · rintro ⟨before, after, he, hp, hn⟩
    exact ⟨hp, before, after, he, hn⟩

theorem both_error_iff {check check' : Except ε Unit} {e : ε} :
    (do check; check') = .error e ↔ check = .error e ∨ check = .ok () ∧ check' = .error e := by
  cases check with
  | error e' =>
    show Except.error e' = .error e ↔ _
    simp
  | ok u =>
    show check' = .error e ↔ _
    simp

/-- A check of each element fails as the first element does that it refuses. -/
theorem forM_error_iff {check : α → Except ε Unit} {e : ε} :
    as.forM check = .error e ↔ ∃ a, IsFirst (fun a => check a ≠ .ok ()) as a ∧ check a = .error e := by
  induction as with
  | nil =>
    constructor
    · intro h
      cases h
    · rintro ⟨a, ⟨before, after, he, _⟩, _⟩
      simp at he
  | cons b as ih =>
    show (do check b; as.forM check) = _ ↔ _
    rw [both_error_iff, ih]
    cases hb : check b with
    | ok u =>
      have later (a : α) : IsFirst (fun a => check a ≠ .ok ()) (b :: as) a ↔ IsFirst (fun a => check a ≠ .ok ()) as a :=
        isFirst_cons_of_neg fun h => h hb
      simp [later]
    | error e' =>
      have here (a : α) : IsFirst (fun a => check a ≠ .ok ()) (b :: as) a ↔ a = b :=
        isFirst_cons_of_pos (by simp [hb])
      simp [here, hb]

theorem foldl_max_le_iff {ns : List Nat} {m n : Nat} : ns.foldl max m ≤ n ↔ m ≤ n ∧ ∀ k ∈ ns, k ≤ n := by
  induction ns generalizing m with
  | nil => simp
  | cons k ns ih => rw [List.foldl_cons, ih, Nat.max_le, List.forall_mem_cons, and_assoc]

end

/-! ## Invocations -/

namespace Group

variable {c : Config} {g : Group}

/-- Why an invocation is refused whatever the levels are: the header has no such macro (`unsupported`), or there
are no names (`noNames`). Where both hold it is for the macro. -/
inductive Refuses (c : Config) (g : Group) : HeaderFault → Prop
  | unsupported : g.isSupported c.effectivePairPolicy = false →
    Refuses c g (.unsupported (g.macroName ⟨c.stem⟩) c.variant)
  | noNames : g.isSupported c.effectivePairPolicy = true → g.isEmpty = true →
    Refuses c g (.malformed (.noNames (g.macroName ⟨c.stem⟩)))

/-- The header has the macro, and there is something to name. -/
def IsUsable (c : Config) (g : Group) : Prop := g.isSupported c.effectivePairPolicy = true ∧ g.isEmpty = false

instance (c : Config) (g : Group) : Decidable (g.IsUsable c) := inferInstanceAs (Decidable (_ ∧ _))

theorem checkSupport_error_iff {fault : HeaderFault} : g.checkSupport c = .error fault ↔ g.Refuses c fault := by
  unfold checkSupport
  constructor
  · intro h
    split at h
    · rename_i hs
      split at h
      · rename_i he
        cases h
        exact .noNames hs he
      · cases h
    · rename_i hs
      cases h
      exact .unsupported (by simpa using hs)
  · rintro (hs | ⟨hs, he⟩)
    · simp [hs]
    · simp [hs, he]

theorem checkSupport_ne_ok_iff : g.checkSupport c ≠ .ok () ↔ ¬g.IsUsable c := not_congr checkSupport_ok_iff

end Group

/-! ## Plans -/

namespace Plan

variable {p : Plan} {c : Config} {n : Nat} {fault : HeaderFault}

/-- Why `validate` refuses a plan: for the first invocation that is not usable, or if all of them are for the
first one whose `requiredArity` is more than there are levels. -/
inductive Refuses (c : Config) (p : Plan) : HeaderFault → Prop
  | group {g : Group} {fault : HeaderFault} : IsFirst (fun g => ¬g.IsUsable c) p.groups g → g.Refuses c fault →
    Refuses c p fault
  | capacity {g : Group} : (∀ g ∈ p.groups, g.IsUsable c) →
    IsFirst (fun g => c.maxArity.toNat < g.requiredArity) p.groups g →
      Refuses c p (.arityExceeded g.requiredArity c.maxArity.toNat)

theorem requiredArity_le_iff : p.requiredArity ≤ n ↔ ∀ g ∈ p.groups, g.requiredArity ≤ n := by
  rw [requiredArity, foldl_max_le_iff, List.forall_mem_map]
  simp

theorem checkCapacity_error_iff : p.checkCapacity n = .error fault ↔
    ∃ g, IsFirst (fun g => n < g.requiredArity) p.groups g ∧ fault = .arityExceeded g.requiredArity n := by
  have found (needed : Nat) :
      (p.groups.map Group.requiredArity).find? (fun needed => decide (n < needed)) = some needed ↔
      ∃ g, IsFirst (fun g => n < g.requiredArity) p.groups g ∧ g.requiredArity = needed := by
    rw [List.find?_map, Option.map_eq_some_iff]
    simp only [find?_eq_some_iff_isFirst, Function.comp_apply, decide_eq_true_eq]
  unfold checkCapacity
  constructor
  · intro h
    split at h
    · cases h
    · rename_i needed hsome
      cases h
      obtain ⟨g, hg, rfl⟩ := (found needed).1 hsome
      exact ⟨g, hg, rfl⟩
  · rintro ⟨g, hg, rfl⟩
    rw [(found g.requiredArity).2 ⟨g, hg, rfl⟩]

theorem checkSupport_error_iff : p.checkSupport c = .error fault ↔
    ∃ g, IsFirst (fun g => ¬g.IsUsable c) p.groups g ∧ g.Refuses c fault := by
  rw [checkSupport, forM_error_iff]
  simp only [Group.checkSupport_error_iff, Group.checkSupport_ne_ok_iff]

theorem checkSupport_ok_iff : p.checkSupport c = .ok () ↔ ∀ g ∈ p.groups, g.IsUsable c := by
  rw [checkSupport, forM_ok_iff]
  simp only [Group.checkSupport_ok_iff, Group.IsUsable]

theorem validate_ok_iff : p.validate c = .ok () ↔
    ∀ g ∈ p.groups, g.IsUsable c ∧ g.requiredArity ≤ c.maxArity.toNat := by
  rw [validate, both_ok_iff, checkSupport_ok_iff, checkCapacity_ok_iff, forall₂_and]

theorem validate_error_iff : p.validate c = .error fault ↔ p.Refuses c fault := by
  rw [validate, both_error_iff, checkSupport_error_iff, checkSupport_ok_iff, checkCapacity_error_iff]
  constructor
  · rintro (⟨g, hg, hr⟩ | ⟨hall, g, hg, rfl⟩)
    · exact .group hg hr
    · exact .capacity hall hg
  · rintro (⟨hg, hr⟩ | ⟨hall, hg⟩)
    · exact .inl ⟨_, hg, hr⟩
    · exact .inr ⟨hall, _, hg, rfl⟩

/-- The levels suffice exactly when they do for the plan's `requiredArity`, and otherwise the first group that
needs too many is reported. A plan passes `validate` exactly when each group alone does, and it goes on passing
with more levels; it is refused for the first invocation that cannot be made whatever the levels are, if there
is one, and for the levels only if there is none. -/
theorem validate_outcome (p : Plan) :
    (∀ n, (p.checkCapacity n = .ok () ↔ p.requiredArity ≤ n) ∧
      ∀ fault, p.checkCapacity n = .error fault ↔
        ∃ g, IsFirst (fun g => n < g.requiredArity) p.groups g ∧ fault = .arityExceeded g.requiredArity n) ∧
    ∀ c : Config, (p.validate c = .ok () ↔ ∀ g ∈ p.groups, Plan.validate ⟨[g]⟩ c = .ok ()) ∧
      (p.validate c = .ok () → ∀ n, c.maxArity ≤ n → p.validate (c.withMaxArity n) = .ok ()) ∧
      ∀ fault, p.validate c = .error fault ↔ p.Refuses c fault := by
  refine ⟨fun n => ⟨?_, fun _ => checkCapacity_error_iff⟩, fun c => ⟨?_, fun h n hn => ?_, fun _ => validate_error_iff⟩⟩
  · rw [checkCapacity_ok_iff, requiredArity_le_iff]
  · simp only [validate_ok_iff, List.mem_singleton, forall_eq]
  · rw [validate_ok_iff] at h ⊢
    intro g hg
    exact ⟨(h g hg).1, Nat.le_trans (h g hg).2 (UInt64.le_iff_toNat_le.1 hn)⟩

/-- A plan that fits the header with exactly the levels it needs fits one with more; in a `legacy` header it is
refused for `ALIAS_FUNC`, although an invocation before that needs too many levels. -/
theorem validate_outcome_alias :
    let p : Plan := ⟨[⟨.attachMany ["add", "sub", "mul"], false⟩, ⟨.singleAlias "add" "Sum", false⟩]⟩
    let c : Config := ⟨3, .classic, none, "RPC_"⟩
    p.validate c = .ok () ∧ c.maxArity ≤ 50 ∧ p.validate (c.withMaxArity 50) = .ok () ∧
      p.validate ⟨2, .legacy, none, "RPC_"⟩ = .error (.unsupported "RPC_ALIAS_FUNC" .legacy) := by
  intro p c
  have fits : p.validate c = .ok () := rfl
  have more : c.maxArity ≤ 50 := by decide
  refine ⟨fits, more, (((validate_outcome p).2 c).2.1 fits 50 more), ?_⟩
  have first : IsFirst (fun g => ¬g.IsUsable ⟨2, .legacy, none, "RPC_"⟩) p.groups ⟨.singleAlias "add" "Sum", false⟩ :=
    ⟨[⟨.attachMany ["add", "sub", "mul"], false⟩], [], rfl, by decide, by decide⟩
  exact (((validate_outcome p).2 _).2.2 _).2 (.group first (.unsupported rfl))

end Plan

end NamedDispatch
