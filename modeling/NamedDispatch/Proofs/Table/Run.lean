/-
What is asked of a table, one operation after the other. An operation is a call, or drops the kept
results, or lets the table grow by names and at most one binding; each of these is said once, and what
holds along a run follows.
-/
import Mathlib.Data.List.Induction
import NamedDispatch.Proofs.Table.Names

namespace NamedDispatch

/-! ## Bindings that are called -/

namespace Binding

variable {σ : Type}

/-- A call is answered from the kept results, or the handler runs; then a result is kept and a fault is
not. -/
theorem invoke_cases (b : Binding σ) (args : List Json) (s : σ) :
    (∃ r, b.kept? args = some r ∧ b.invoke args s = (.ok r, b, s)) ∨
    b.kept? args = none ∧
      ((∃ r, (b.handler args s).1 = .ok r ∧ b.invoke args s = (.ok r, b.keep args r, (b.handler args s).2)) ∨
      ∃ e, (b.handler args s).1 = .error e ∧ b.invoke args s = (.error e, b, (b.handler args s).2)) := by
  rw [invoke]
  cases hk : b.kept? args with
  | some r => exact .inl ⟨r, rfl, rfl⟩
  | none =>
    obtain ⟨outcome, s'⟩ := b.handler args s
    cases outcome with
    | ok r => exact .inr ⟨rfl, .inl ⟨r, rfl, rfl⟩⟩
    | error e => exact .inr ⟨rfl, .inr ⟨e, rfl, rfl⟩⟩

end Binding

/-! ## Operations -/

/-- What is asked of a table. -/
inductive Operation (σ : Type) where
  | attach (name : String) (f : RemoteFunction σ) (cached : Bool)
  | attachRaw (name : String) (arity : UInt64) (cached : Bool) (h : Handler σ)
  | attachAliased (target : String) (names : List String) (f : RemoteFunction σ) (cached : Bool)
  | addAlias (name target : String)
  | clearCache
  | dispatch (name : String) (args : List Json)
  | handle (r : Request)
  | handleBytes (bytes : List UInt8)
  | contains (name : String)
  | size
  | cachedResults (name : String)
  | describe

/-- What a table answers: the reply to bytes is a text, any other answer a value. -/
inductive Answer where
  | bound (r : Except DispatchFault Unit)
  | cleared
  | outcome (r : Except DispatchFault Json)
  | response (r : Response)
  | reply (text : String)
  | contained (b : Bool)
  | size (n : Nat)
  | kept (n : Nat)
  | described (ds : List Description)

namespace Operation

variable {σ : Type}

/-- The binding that an operation makes, if it can bind a name. -/
def binding? : Operation σ → Option (Binding σ)
  | attach name f cached => some (.ofFunction name f cached)
  | attachRaw name arity cached h => some (.ofHandler name arity cached h)
  | attachAliased target _ f cached => some (.ofFunction target f cached)
  | _ => none

/-- The name called and the arguments, if the operation is a call. -/
def call? : Operation σ → Option (String × List Json)
  | dispatch name args => some (name, args)
  | handle r => some (r.func, r.args)
  | handleBytes bytes =>
    match Request.ofBytes bytes with
    | .ok r => some (r.func, r.args)
    | .error _ => none
  | _ => none

/-- Whether an operation drops the kept results. -/
def clears : Operation σ → Bool
  | clearCache => true
  | _ => false

theorem freshCache_eq_nil {cached : Bool} {kept : List (String × Json)} (h : kept ∈ Binding.freshCache cached) :
    kept = [] := by
  cases cached with
  | true => exact (Option.some.inj h).symm
  | false => cases h

/-- Nothing is kept at first. -/
theorem fresh_binding {op : Operation σ} {b : Binding σ} (h : op.binding? = some b) :
    ∀ kept ∈ b.cache, kept = [] := by
  cases op <;> cases h <;> exact fun kept hk => freshCache_eq_nil hk

end Operation

namespace Table

variable {σ : Type}

/-- Performs an operation: its answer, the table left and the state left. -/
def perform (t : Table σ) (s : σ) : Operation σ → Answer × Table σ × σ
  | .attach name f cached => (.bound (t.attach name f cached).1, (t.attach name f cached).2, s)
  | .attachRaw name arity cached h =>
    (.bound (t.attachRaw name arity cached h).1, (t.attachRaw name arity cached h).2, s)
  | .attachAliased target names f cached =>
    (.bound (t.attachAliased target names f cached).1, (t.attachAliased target names f cached).2, s)
  | .addAlias name target => (.bound (t.addAlias name target).1, (t.addAlias name target).2, s)
  | .clearCache => (.cleared, t.clearCache, s)
  | .dispatch name args => (.outcome (t.dispatch name args s).1, (t.dispatch name args s).2)
  | .handle r => (.response (t.handle r s).1, (t.handle r s).2)
  | .handleBytes bytes => (.reply (t.handleBytes bytes s).1.toText, (t.handleBytes bytes s).2)
  | .contains name => (.contained (t.contains name), t, s)
  | .size => (.size t.size, t, s)
  | .cachedResults name => (.kept (t.cachedResults name), t, s)
  | .describe => (.described t.describe, t, s)

/-- Performs the operations in order: the answers, the table left and the state left. -/
def run (t : Table σ) (s : σ) : List (Operation σ) → List Answer × Table σ × σ
  | [] => ([], t, s)
  | op :: ops =>
    let next := t.perform s op
    let rest := run next.2.1 next.2.2 ops
    (next.1 :: rest.1, rest.2)

variable {t : Table σ} {s : σ} {name : String} {i : Nat}

theorem run_append (t : Table σ) (s : σ) (ops more : List (Operation σ)) :
    (t.run s (ops ++ more)).2 = ((t.run s ops).2.1.run (t.run s ops).2.2 more).2 := by
  induction ops generalizing t s with
  | nil => rfl
  | cons first ops ih => exact ih (t.perform s first).2.1 (t.perform s first).2.2

theorem run_concat (t : Table σ) (s : σ) (ops : List (Operation σ)) (op : Operation σ) :
    (t.run s (ops ++ [op])).2 = ((t.run s ops).2.1.perform (t.run s ops).2.2 op).2 := run_append t s ops [op]

/-! ## Calls -/

theorem dispatch_unbound (h : t.find? name = none) (args : List Json) (s : σ) :
    t.dispatch name args s = (.error (.missing name), t, s) := by
  rw [dispatch]
  split
  · rfl
  · rename_i i hn
    rw [find?, hn, Option.bind_some] at h
    rw [h]

theorem dispatch_bound {b : Binding σ} (hn : t.names.lookup name = some i) (hb : t.bindings[i]? = some b)
    (args : List Json) (s : σ) : t.dispatch name args s = ((b.invoke args s).1,
      { t with bindings := t.bindings.set i (b.invoke args s).2.1 }, (b.invoke args s).2.2) := by
  rw [dispatch, hn]
  dsimp only
  rw [hb]

/-- A call finds no binding, or the one at the position of its name. -/
theorem find?_cases (t : Table σ) (name : String) :
    t.find? name = none ∨ ∃ i b, t.names.lookup name = some i ∧ t.bindings[i]? = some b := by
  cases h : t.find? name with
  | none => exact .inl rfl
  | some b =>
    obtain ⟨i, hn, hb⟩ := find?_eq_some_iff.1 h
    exact .inr ⟨i, b, hn, hb⟩

/-! ## What an operation does -/

/-- An operation is a call, or clears, or lets the table grow by a binding that it makes. -/
theorem perform_cases (t : Table σ) (s : σ) (op : Operation σ) :
    (∃ name args, op.call? = some (name, args) ∧ (t.perform s op).2 = (t.dispatch name args s).2) ∨
    (op.call? = none ∧ op.clears = true ∧ (t.perform s op).2 = (t.clearCache, s)) ∨
    (op.call? = none ∧ op.clears = false ∧ (t.perform s op).2.2 = s ∧
      ∃ more, (∀ b ∈ more, op.binding? = some b) ∧ Grown t (t.perform s op).2.1 more) := by
  have same : ∃ more, (∀ b ∈ more, op.binding? = some b) ∧ Grown t t more := ⟨[], nofun, .refl t⟩
  cases op with
  | attach name f cached =>
    obtain ⟨more, hm, hg⟩ := t.bind_grown name (.ofFunction name f cached)
    exact .inr (.inr ⟨rfl, rfl, rfl, more, fun b hb => congrArg some (hm b hb).symm, hg⟩)
  | attachRaw name arity cached h =>
    obtain ⟨more, hm, hg⟩ := t.bind_grown name (.ofHandler name arity cached h)
    exact .inr (.inr ⟨rfl, rfl, rfl, more, fun b hb => congrArg some (hm b hb).symm, hg⟩)
  | attachAliased target names f cached =>
    obtain ⟨more, hm, hg⟩ := t.attachAliased_grown target names f cached
    exact .inr (.inr ⟨rfl, rfl, rfl, more, fun b hb => congrArg some (hm b hb).symm, hg⟩)
  | addAlias name target => exact .inr (.inr ⟨rfl, rfl, rfl, [], nofun, t.addAlias_grown name target⟩)
  | clearCache => exact .inr (.inl ⟨rfl, rfl, rfl⟩)
  | dispatch name args => exact .inl ⟨name, args, rfl, rfl⟩
  | handle r => exact .inl ⟨r.func, r.args, rfl, rfl⟩
  | handleBytes bytes =>
    cases h : Request.ofBytes bytes with
    | ok r =>
      refine .inl ⟨r.func, r.args, by rw [Operation.call?, h], ?_⟩
      rw [perform, handleBytes, h]
      rfl
    | error cause =>
      have hp : (t.perform s (.handleBytes bytes)).2 = (t, s) := by rw [perform, handleBytes, h]
      rw [hp]
      exact .inr (.inr ⟨by rw [Operation.call?, h], rfl, rfl, same⟩)
  | contains name => exact .inr (.inr ⟨rfl, rfl, rfl, same⟩)
  | size => exact .inr (.inr ⟨rfl, rfl, rfl, same⟩)
  | cachedResults name => exact .inr (.inr ⟨rfl, rfl, rfl, same⟩)
  | describe => exact .inr (.inr ⟨rfl, rfl, rfl, same⟩)

theorem dispatch_wellFormed (h : t.WellFormed) (name : String) (args : List Json) (s : σ) :
    (t.dispatch name args s).2.1.WellFormed := by
  rcases t.find?_cases name with hn | ⟨i, b, hn, hb⟩
  · rw [dispatch_unbound hn]
    exact h
  · rw [dispatch_bound hn hb]
    exact ⟨h.distinct, h.visible, fun p hp => by rw [List.length_set]; exact h.below p hp⟩

theorem perform_wellFormed (h : t.WellFormed) (s : σ) (op : Operation σ) : (t.perform s op).2.1.WellFormed := by
  rcases t.perform_cases s op with ⟨name, args, _, he⟩ | ⟨_, _, he⟩ | ⟨_, _, _, more, _, hg⟩
  · rw [he]
    exact dispatch_wellFormed h name args s
  · rw [he]
    exact ⟨h.distinct, h.visible, fun p hp => by rw [clearCache, List.length_map]; exact h.below p hp⟩
  · exact hg.wellFormed h

/-! ## What holds of every binding -/

section

variable {P : Binding σ → Prop}

theorem dispatch_bindings {args : List Json} (hi : ∀ b s, P b → P (b.invoke args s).2.1)
    (h : ∀ b ∈ t.bindings, P b) (name : String) (s : σ) : ∀ b ∈ (t.dispatch name args s).2.1.bindings, P b := by
  rcases t.find?_cases name with hn | ⟨i, b, hn, hb⟩
  · rw [dispatch_unbound hn]
    exact h
  · rw [dispatch_bound hn hb]
    intro b' hb'
    rcases List.mem_or_eq_of_mem_set hb' with hb' | rfl
    · exact h b' hb'
    · exact hi b s (h b (List.mem_of_getElem? hb))

/-- What holds of every binding still does after an operation, if it holds of the binding made, and calls
and clearing keep it. -/
theorem perform_bindings {op : Operation σ}
    (hi : ∀ name args, op.call? = some (name, args) → ∀ b s, P b → P (b.invoke args s).2.1)
    (hc : ∀ b, P b → P b.clear) (hm : ∀ b ∈ op.binding?, P b) (h : ∀ b ∈ t.bindings, P b) (s : σ) :
    ∀ b ∈ (t.perform s op).2.1.bindings, P b := by
  rcases t.perform_cases s op with ⟨name, args, hcall, he⟩ | ⟨_, _, he⟩ | ⟨_, _, _, more, hmore, hg⟩
  · rw [he]
    exact dispatch_bindings (hi name args hcall) h name s
  · rw [he]
    exact List.forall_mem_map.2 fun b hb => hc b (h b hb)
  · rw [hg.bindings]
    exact List.forall_mem_append.2 ⟨h, fun b hb => hm b (hmore b hb)⟩

/-- What holds of every binding made, and is kept by calls and by clearing, holds of every binding of a
reachable table. -/
theorem run_bindings (hi : ∀ b args s, P b → P (b.invoke args s).2.1) (hc : ∀ b, P b → P b.clear)
    {ops : List (Operation σ)} (hm : ∀ op ∈ ops, ∀ b ∈ op.binding?, P b) (s : σ) :
    ∀ b ∈ ((empty : Table σ).run s ops).2.1.bindings, P b := by
  induction ops using List.reverseRecOn with
  | nil => nofun
  | append_singleton ops op ih =>
    obtain ⟨hops, hop⟩ := List.forall_mem_append.1 hm
    rw [run_concat]
    exact perform_bindings (fun _ args _ b => hi b args) hc (hop op (List.mem_singleton_self op)) (ih hops) _

end

theorem WellFormed.run (h : t.WellFormed) (s : σ) (ops : List (Operation σ)) : (t.run s ops).2.1.WellFormed := by
  induction ops generalizing t s with
  | nil => exact h
  | cons op ops ih => exact ih (perform_wellFormed h s op) _

/-- Every run from the empty table leaves a well-formed one. -/
theorem run_wellFormed (s : σ) (ops : List (Operation σ)) : ((empty : Table σ).run s ops).2.1.WellFormed :=
  wellFormed_empty.run s ops

end Table

end NamedDispatch
