/-
The branches of a plan bound one after the other in a table. Three ways to let the first of several equal
names win meet here: the chain of branches takes the first match, `Plan.shadowed` remembers the names seen,
and `Table.addName` refuses a name that is taken. Along the branches the names seen and the names bound stay
the same, and what a name finds is the first branch that has it.
-/
import NamedDispatch.Plan.Basic
import NamedDispatch.Proofs.Remote.Function
import NamedDispatch.Proofs.Table.Run
import NamedDispatch.Remote.Catalogue

namespace NamedDispatch

variable {σ : Type}

/-! ## Binding branches -/

/-- The binding of a branch, where each target is a function. -/
def Branch.binding (function : String → RemoteFunction σ) (b : Branch) : Binding σ :=
  .ofFunction b.target (function b.target) b.cached

namespace Table

/-- Binds a branch: its target's function, under its name. -/
def bindBranch (function : String → RemoteFunction σ) (t : Table σ) (b : Branch) :
    Except DispatchFault Unit × Table σ :=
  t.attachAliased b.target [b.name] (function b.target) b.cached

/-- Binds branches in order, whatever comes of each. -/
def replay (function : String → RemoteFunction σ) (t : Table σ) : List Branch →
    List (Except DispatchFault Unit) × Table σ
  | [] => ([], t)
  | b :: bs =>
    let next := t.bindBranch function b
    let rest := replay function next.2 bs
    (next.1 :: rest.1, rest.2)

variable {function : String → RemoteFunction σ} {t : Table σ} {b : Branch} {bs : List Branch} {name : String}

theorem bindBranch_taken (hb : Text.isBlankText b.name = false) (hc : t.contains b.name = true) :
    t.bindBranch function b = (.error (.takenName b.name), t) := by
  rw [bindBranch, attachAliased, addNames, addName_of_taken hb hc]
  exact if_pos rfl

theorem bindBranch_free (hf : t.Free b.name) : t.bindBranch function b = (.ok (),
    { t.withName b.name t.bindings.length with bindings := t.bindings ++ [b.binding function] }) := by
  have ha : t.addNames t.bindings.length [b.name] = (.ok (), t.withName b.name t.bindings.length) := by
    rw [addNames, addName_of_free hf]
    rfl
  rw [bindBranch, attachAliased, ha]
  refine if_neg ?_
  rw [size, size, withName, List.length_append]
  exact Nat.succ_ne_self _

theorem bindBranch_wellFormed (hw : t.WellFormed) (b : Branch) : (t.bindBranch function b).2.WellFormed := by
  obtain ⟨more, _, hg⟩ := t.attachAliased_grown b.target [b.name] (function b.target) b.cached
  exact hg.wellFormed hw

theorem replay_wellFormed (hw : t.WellFormed) (bs : List Branch) : (t.replay function bs).2.WellFormed := by
  induction bs generalizing t with
  | nil => exact hw
  | cons b bs ih => exact ih (bindBranch_wellFormed hw b)

/-! ## What names find -/

/-- A branch is found by its name, unless the name was bound before. -/
theorem find?_bindBranch (hw : t.WellFormed) (hb : Text.isBlankText b.name = false) (name : String) :
    (t.bindBranch function b).2.find? name =
      (t.find? name).or (if b.name == name then some (b.binding function) else none) := by
  cases hc : t.contains b.name with
  | true =>
    rw [bindBranch_taken hb hc]
    by_cases hn : b.name = name
    · subst hn
      obtain ⟨c, hf⟩ := Option.isSome_iff_exists.1 (hw.contains_iff_find?.1 hc)
      rw [hf, Option.some_or]
    · rw [beq_false_of_ne hn, if_neg Bool.false_ne_true, Option.or_none]
  | false =>
    rw [bindBranch_free ⟨hb, hc⟩]
    exact hw.find?_withName (b.binding function) b.name name

/-- What a name finds after branches were bound: what it found before, or the first branch of that name. -/
theorem find?_replay (hw : t.WellFormed) (hb : ∀ b ∈ bs, Text.isBlankText b.name = false) (name : String) :
    (t.replay function bs).2.find? name =
      (t.find? name).or ((bs.find? fun b => b.name == name).map (Branch.binding function)) := by
  induction bs generalizing t with
  | nil => rw [replay, List.find?_nil, Option.map_none, Option.or_none]
  | cons b bs ih =>
    obtain ⟨hb1, hb2⟩ := List.forall_mem_cons.1 hb
    rw [replay, ih (bindBranch_wellFormed hw b) hb2, find?_bindBranch hw hb1, Option.or_assoc, List.find?_cons]
    cases b.name == name <;> rfl

/-! ## Which bindings fail -/

theorem contains_bindBranch (hw : t.WellFormed) (hb : Text.isBlankText b.name = false) (name : String) :
    (t.bindBranch function b).2.contains name = (t.contains name || b.name == name) := by
  rw [Bool.eq_iff_iff, (bindBranch_wellFormed hw b).contains_iff_find?, find?_bindBranch hw hb, Option.isSome_or,
    Bool.or_eq_true, ← hw.contains_iff_find?, Bool.or_eq_true]
  cases b.name == name <;> rfl

/-- Binding fails where a branch is shadowed, if the names seen are the names bound. -/
theorem findIdxs_replay {seen : List (String × Nat)} (hw : t.WellFormed)
    (hs : ∀ name, (seen.lookup name).isSome = t.contains name)
    (hb : ∀ b ∈ bs, Text.isBlankText b.name = false) (position : Nat) :
    (t.replay function bs).1.findIdxs (fun o => !o.isOk) position =
      (Plan.shadowedFrom seen position bs).map Plan.Shadowed.position := by
  induction bs generalizing t seen position with
  | nil => rfl
  | cons b bs ih =>
    obtain ⟨hb1, hb2⟩ := List.forall_mem_cons.1 hb
    have hc := hs b.name
    rw [replay, Plan.shadowedFrom, List.findIdxs_cons]
    cases hl : seen.lookup b.name with
    | some first =>
      rw [hl] at hc
      rw [bindBranch_taken hb1 hc.symm]
      exact congrArg (List.cons position) (ih hw hs hb2 (position + 1))
    | none =>
      rw [hl] at hc
      have hs' (name : String) : (List.lookup name ((b.name, position) :: seen)).isSome =
          (t.bindBranch function b).2.contains name := by
        rw [contains_bindBranch hw hb1, ← hs, List.lookup_cons, BEq.comm]
        cases b.name == name <;> simp
      have hw' : (t.bindBranch function b).2.WellFormed := bindBranch_wellFormed hw b
      rw [bindBranch_free ⟨hb1, hc.symm⟩] at hs' hw' ⊢
      exact ih hw' hs' hb2 (position + 1)

/-! ## Calls -/

theorem dispatch_kind (h : t.find? name = some (b.binding function)) {args : List Json} {s : σ} {e : DispatchFault}
    (he : (t.dispatch name args s).1 = .error e) : e.kind ≠ .functionMissing := by
  obtain ⟨i, hn, hb⟩ := find?_eq_some_iff.1 h
  rw [dispatch_bound hn hb] at he
  rcases (b.binding function).invoke_cases args s with ⟨r, _, hi⟩ | ⟨_, ⟨r, _, hi⟩ | ⟨e', hr, hi⟩⟩
  · rw [hi] at he
    cases he
  · rw [hi] at he
    cases he
  · rw [hi] at he
    cases he
    exact RemoteFunction.call_kind hr

end Table

/-! ## Every plan -/

namespace Plan

/-- The `branches` of a plan, bound one after the other in an empty table. The bindings that fail are those at
the positions that `shadowed` reports. The names bound are those of branches, each once, and each is bound as
the first branch of that name says. A call fails with `functionMissing` exactly if no branch has the name. -/
theorem replay_branches (p : Plan) (function : String → RemoteFunction σ)
    (hb : ∀ b ∈ p.branches, Text.isBlankText b.name = false) :
    let r := Table.empty.replay function p.branches
    r.1.findIdxs (fun o => !o.isOk) = p.shadowed.map Shadowed.position ∧
      (r.2.names.map Prod.fst).Nodup ∧ (∀ name, r.2.contains name = true ↔ ∃ b ∈ p.branches, b.name = name) ∧
      (∀ name, r.2.find? name = (p.branches.find? fun b => b.name == name).map (Branch.binding function)) ∧
      ∀ name args s, (∃ e, (r.2.dispatch name args s).1 = .error e ∧ e.kind = .functionMissing) ↔
        ∀ b ∈ p.branches, b.name ≠ name := by
  intro r
  have hw : r.2.WellFormed := Table.replay_wellFormed Table.wellFormed_empty p.branches
  have hf (name : String) : r.2.find? name =
      (p.branches.find? fun b => b.name == name).map (Branch.binding function) := by
    rw [Table.find?_replay Table.wellFormed_empty hb]
    rfl
  refine ⟨Table.findIdxs_replay Table.wellFormed_empty (fun _ => rfl) hb 0, hw.distinct, fun name => ?_, hf,
    fun name args s => ?_⟩
  · rw [hw.contains_iff_find?, hf, Option.isSome_map, List.find?_isSome]
    simp only [beq_iff_eq]
  · constructor
    · rintro ⟨e, he, hk⟩ b hb hn
      cases hd : p.branches.find? fun b => b.name == name with
      | none => exact List.find?_eq_none.1 hd b hb (beq_iff_eq.2 hn)
      | some b' => exact Table.dispatch_kind ((hf name).trans (by rw [hd, Option.map_some])) he hk
    · intro hn
      have hd : p.branches.find? (fun b => b.name == name) = none :=
        List.find?_eq_none.2 fun b hb he => hn b hb (beq_iff_eq.1 he)
      rw [Table.dispatch_unbound (by rw [hf, hd, Option.map_none])]
      exact ⟨_, rfl, rfl⟩

/-- The functions `Sum` and `Mul`, and the names `Add` and `Mul` for the first. -/
def sums : Plan := ⟨[⟨.attachMany ["Sum", "Mul"], false⟩, ⟨.multiAlias "Sum" ["Add", "Mul"], true⟩]⟩

theorem replay_branches_sums : let r := Table.empty.replay (fun _ => Catalogue.add) sums.branches
    (∀ b ∈ sums.branches, Text.isBlankText b.name = false) ∧ r.1.findIdxs (fun o => !o.isOk) = [3] ∧
      r.2.find? "Mul" = some (Branch.binding (fun _ => Catalogue.add) ⟨"Mul", "Mul", false⟩) := by
  have hb : ∀ b ∈ sums.branches, Text.isBlankText b.name = false := by decide
  obtain ⟨hs, _, _, hf, _⟩ := sums.replay_branches (fun _ => Catalogue.add) hb
  exact ⟨hb, hs, hf "Mul"⟩

end Plan

end NamedDispatch
