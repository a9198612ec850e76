/-
Keeping results changes no answer. Where what a handler answers depends on the arguments only, a run
over a table that keeps results is answered like the run over the table that keeps none, but for what is
asked about the keeping itself. What carries this is that every kept result is the one that the handler
gives for the arguments of its key; two lists of arguments called with must not have one text.
-/
import Mathlib.Data.Set.Function
import NamedDispatch.Proofs.Table.Run
import NamedDispatch.Remote.Catalogue

namespace NamedDispatch

variable {σ : Type}

/-- What the handler answers depends on the arguments only. -/
def Handler.IsPure (h : Handler σ) : Prop := ∀ args s s', (h args s).1 = (h args s').1

theorem RemoteFunction.isPure_call {f : RemoteFunction σ} (h : ∀ a s s', (f.run a s).1 = (f.run a s').1)
    (func : String) : (f.call func).IsPure := by
  intro args s s'
  rw [call, call]
  cases f.decode func args with
  | error e => rfl
  | ok a => exact congrArg (encodeResult f.encode func) (h a s s')

/-! ## Bindings -/

namespace Binding

variable {b : Binding σ} {A A' : Set (List Json)} {args : List Json}

/-- The binding with a handler that is asked at every call. -/
def uncached (b : Binding σ) : Binding σ := { b with cache := none }

/-- Every kept result was answered by the handler to some of the arguments, whose text is the key. -/
def Answered (A : Set (List Json)) (b : Binding σ) : Prop :=
  ∀ kept ∈ b.cache, ∀ p ∈ kept, ∃ args ∈ A, key args = p.1 ∧ ∃ s, (b.handler args s).1 = .ok p.2

theorem answered_of_fresh (h : ∀ kept ∈ b.cache, kept = []) : b.Answered A := by
  intro kept hk
  rw [h kept hk]
  nofun

theorem Answered.mono (h : b.Answered A) (hA : A ⊆ A') : b.Answered A' := by
  intro kept hk p hp
  obtain ⟨args, ha, hr⟩ := h kept hk p hp
  exact ⟨args, hA ha, hr⟩

theorem answered_clear (b : Binding σ) : b.clear.Answered A := by
  refine answered_of_fresh fun kept hk => ?_
  obtain ⟨_, _, rfl⟩ := Option.map_eq_some_iff.1 hk
  rfl

theorem Answered.keep (h : b.Answered A) (ha : args ∈ A) {s : σ} {r : Json} (hr : (b.handler args s).1 = .ok r) :
    (b.keep args r).Answered A := by
  intro kept hk
  obtain ⟨before, hb, rfl⟩ := Option.map_eq_some_iff.1 hk
  refine List.forall_mem_cons.2 ⟨?_, h before hb⟩
  exact ⟨args, ha, rfl, s, hr⟩

theorem Answered.invoke (h : b.Answered A) (ha : args ∈ A) (s : σ) : (b.invoke args s).2.1.Answered A := by
  rcases b.invoke_cases args s with ⟨r, _, he⟩ | ⟨_, ⟨r, hr, he⟩ | ⟨e, _, he⟩⟩ <;> rw [he]
  · exact h
  · exact h.keep ha hr
  · exact h

theorem Answered.kept? (h : b.Answered A) {r : Json} (hr : b.kept? args = some r) :
    ∃ xs ∈ A, key xs = key args ∧ ∃ s, (b.handler xs s).1 = .ok r := by
  obtain ⟨kept, hc, hl⟩ := Option.bind_eq_some_iff.1 hr
  obtain ⟨before, after, rfl, _⟩ := List.lookup_eq_some_iff.1 hl
  exact h _ hc (key args, r) (by simp)

/-- Every kept result is what the handler answers to some of the arguments, whose text is the key. -/
structure Sound (A : Set (List Json)) (b : Binding σ) : Prop where
  isPure : b.handler.IsPure
  kept : ∀ kept ∈ b.cache, ∀ p ∈ kept, ∃ args ∈ A, key args = p.1 ∧ ∀ s, (b.handler args s).1 = .ok p.2

/-- What was answered once is answered always, if it depends on the arguments only. -/
theorem Answered.sound (h : b.Answered A) (hp : b.handler.IsPure) : b.Sound A := by
  refine ⟨hp, fun kept hk p hm => ?_⟩
  obtain ⟨args, ha, hkey, s, hs⟩ := h kept hk p hm
  exact ⟨args, ha, hkey, fun s' => (hp args s' s).trans hs⟩

theorem Sound.answered (h : b.Sound A) (s : σ) : b.Answered A := by
  intro kept hk p hm
  obtain ⟨args, ha, hkey, hs⟩ := h.kept kept hk p hm
  exact ⟨args, ha, hkey, s, hs s⟩

theorem Sound.keep (h : b.Sound A) (ha : args ∈ A) {s : σ} {r : Json} (hr : (b.handler args s).1 = .ok r) :
    (b.keep args r).Sound A :=
  ((h.answered s).keep ha hr).sound h.isPure

theorem Sound.clear (h : b.Sound A) : b.clear.Sound A := b.answered_clear.sound h.isPure

/-- A kept result is what the handler would answer now. -/
theorem Sound.kept? (h : b.Sound A) (hk : Set.InjOn key A) (ha : args ∈ A) {r : Json}
    (hr : b.kept? args = some r) (s : σ) : (b.handler args s).1 = .ok r := by
  obtain ⟨args', ha', he, s', hs⟩ := (h.answered s).kept? hr
  rw [← hk ha' ha he]
  exact (h.isPure args' s s').trans hs

/-- A call is answered as the handler answers it, and only what is kept changes. -/
theorem Sound.invoke (h : b.Sound A) (hk : Set.InjOn key A) (ha : args ∈ A) (s s' : σ) :
    (b.invoke args s).1 = (b.handler args s').1 ∧ (b.invoke args s).2.1.Sound A ∧
      (b.invoke args s).2.1.uncached = b.uncached := by
  rcases b.invoke_cases args s with ⟨r, hr, he⟩ | ⟨_, ⟨r, hr, he⟩ | ⟨e, hr, he⟩⟩ <;> rw [he]
  · exact ⟨(h.kept? hk ha hr s').symm, h, rfl⟩
  · exact ⟨hr.symm.trans (h.isPure args s s'), h.keep ha hr, rfl⟩
  · exact ⟨hr.symm.trans (h.isPure args s s'), h, rfl⟩

theorem invoke_uncached (b : Binding σ) (args : List Json) (s : σ) :
    (b.uncached.invoke args s).1 = (b.handler args s).1 ∧ (b.uncached.invoke args s).2.1 = b.uncached := by
  rcases b.uncached.invoke_cases args s with ⟨r, hr, _⟩ | ⟨_, ⟨r, hr, he⟩ | ⟨e, hr, he⟩⟩
  · cases hr
  · rw [he]
    exact ⟨hr.symm, rfl⟩
  · rw [he]
    exact ⟨hr.symm, rfl⟩

end Binding

/-! ## Operations and answers -/

/-- The operation with every binding it makes uncached. -/
def Operation.uncached : Operation σ → Operation σ
  | .attach name f _ => .attach name f false
  | .attachRaw name arity _ h => .attachRaw name arity false h
  | .attachAliased target names f _ => .attachAliased target names f false
  | op => op

/-- The answer with what it says about kept results left out. -/
def Answer.withoutCaching : Answer → Answer
  | .kept _ => .kept 0
  | .described ds => .described (ds.map fun d => { d with cached := false })
  | a => a

/-- The arguments that a run calls with. -/
def calledWith (ops : List (Operation σ)) : Set (List Json) :=
  { args | ∃ op ∈ ops, ∃ name, op.call? = some (name, args) }

theorem calledWith_append (ops more : List (Operation σ)) :
    calledWith (ops ++ more) = calledWith ops ∪ calledWith more := by
  ext args
  simp [calledWith, or_and_right, exists_or]

/-! ## Tables -/

namespace Table

variable {t : Table σ} {A : Set (List Json)} {s s' : σ}

/-- The table with every binding uncached. -/
def uncached (t : Table σ) : Table σ := { t with bindings := t.bindings.map Binding.uncached }

/-- Every binding of the table keeps only what its handler answers. -/
def Sound (A : Set (List Json)) (t : Table σ) : Prop := ∀ b ∈ t.bindings, b.Sound A

theorem find?_uncached (t : Table σ) (name : String) :
    t.uncached.find? name = (t.find? name).map Binding.uncached := by
  rw [find?, find?, Option.map_bind]
  exact Option.bind_congr fun i _ => List.getElem?_map

/-! ### Names do not depend on bindings -/

theorem addName_uncached (t : Table σ) (name : String) (i : Nat) :
    t.uncached.addName name i = (t.addName name i).map uncached := by
  have hc : t.uncached.checkName name = t.checkName name := rfl
  rw [addName, addName, hc]
  cases t.checkName name <;> rfl

theorem addNames_uncached (i : Nat) : ∀ (names : List String) (t : Table σ),
    t.uncached.addNames i names = ((t.addNames i names).1, (t.addNames i names).2.uncached)
  | [], _ => rfl
  | name :: names, t => by
    rw [addNames, addNames, addName_uncached]
    cases t.addName name i with
    | ok t => exact addNames_uncached i names t
    | error e => rfl

theorem bind_uncached (t : Table σ) (name : String) (b : Binding σ) :
    t.uncached.bind name b.uncached = ((t.bind name b).1, (t.bind name b).2.uncached) := by
  have hl : t.uncached.bindings.length = t.bindings.length := List.length_map _
  rw [bind, bind, addName_uncached, hl]
  cases t.addName name t.bindings.length with
  | ok t => simp [Except.map, uncached]
  | error e => rfl

theorem attachAliased_uncached (t : Table σ) (target : String) (names : List String) (f : RemoteFunction σ)
    (cached : Bool) : t.uncached.attachAliased target names f false =
      ((t.attachAliased target names f cached).1, (t.attachAliased target names f cached).2.uncached) := by
  have hl : t.uncached.bindings.length = t.bindings.length := List.length_map _
  simp only [attachAliased, hl, addNames_uncached]
  have hs (t : Table σ) : t.uncached.size = t.size := rfl
  rw [hs, hs]
  split
  · rfl
  · simp [uncached, Binding.uncached, Binding.ofFunction, Binding.freshCache]

theorem addAlias_uncached (t : Table σ) (name target : String) :
    t.uncached.addAlias name target = ((t.addAlias name target).1, (t.addAlias name target).2.uncached) := by
  have hn : t.uncached.names = t.names := rfl
  rw [addAlias, addAlias, hn]
  cases t.names.lookup target with
  | none => rfl
  | some i =>
    dsimp only
    rw [addName_uncached]
    cases t.addName name i <;> rfl

/-! ### What is told of a table -/

theorem cachedResults_uncached (t : Table σ) (name : String) : t.uncached.cachedResults name = 0 := by
  rw [cachedResults, find?_uncached]
  cases t.find? name <;> rfl

theorem describe_uncached (t : Table σ) :
    t.uncached.describe = t.describe.map fun d => { d with cached := false } := by
  rw [describe, describe, List.map_filterMap]
  refine List.filterMap_congr fun name _ => ?_
  rw [describeName, describeName, find?_uncached, Option.map_map, Option.map_map]
  rfl

/-! ### Calls -/

theorem dispatch_uncached (h : t.Sound A) (hk : Set.InjOn Binding.key A) {args : List Json} (ha : args ∈ A)
    (name : String) (s s' : σ) :
    (t.uncached.dispatch name args s').1 = (t.dispatch name args s).1 ∧
      (t.uncached.dispatch name args s').2.1 = (t.dispatch name args s).2.1.uncached := by
  rcases t.find?_cases name with hn | ⟨i, b, hn, hb⟩
  · rw [dispatch_unbound hn, dispatch_unbound (by rw [find?_uncached, hn]; rfl)]
    exact ⟨rfl, rfl⟩
  · have hb' : t.uncached.bindings[i]? = some b.uncached := by rw [uncached, List.getElem?_map, hb]; rfl
    obtain ⟨h1, _, h3⟩ := (h b (List.mem_of_getElem? hb)).invoke hk ha s s'
    obtain ⟨h1', h2'⟩ := b.invoke_uncached args s'
    rw [dispatch_bound hn hb, dispatch_bound (t := t.uncached) hn hb', h1', h2', ← h3]
    exact ⟨h1.symm, by simp [uncached]⟩

/-! ### Operations -/

section

variable {op : Operation σ} (hk : Set.InjOn Binding.key A) (ha : ∀ name args, op.call? = some (name, args) → args ∈ A)
include hk ha

/-- An operation leaves what is kept as it should be, if what it binds depends on arguments only. -/
theorem Sound.perform (h : t.Sound A) (hp : ∀ b ∈ op.binding?, b.handler.IsPure) (s : σ) :
    (t.perform s op).2.1.Sound A := by
  refine perform_bindings (fun name args hc b s hb => (hb.invoke hk (ha name args hc) s s).2.1)
    (fun b hb => hb.clear) (fun b hb => ?_) h s
  exact (Binding.answered_of_fresh (Operation.fresh_binding hb)).sound (hp b hb)

/-- An operation is answered alike by the table that keeps nothing. -/
theorem perform_uncached (h : t.Sound A) (s s' : σ) :
    (t.uncached.perform s' op.uncached).1 = (t.perform s op).1.withoutCaching ∧
      (t.uncached.perform s' op.uncached).2.1 = (t.perform s op).2.1.uncached := by
  have called {name : String} {args : List Json} (hc : op.call? = some (name, args)) :=
    dispatch_uncached h hk (ha name args hc) name s s'
  have bound {r r' : Except DispatchFault Unit × Table σ} (he : r = (r'.1, r'.2.uncached)) :
      Answer.bound r.1 = .bound r'.1 ∧ r.2 = r'.2.uncached := he ▸ ⟨rfl, rfl⟩
  cases op with
  | attach name f cached => exact bound (t.bind_uncached name (.ofFunction name f cached))
  | attachRaw name arity cached handler => exact bound (t.bind_uncached name (.ofHandler name arity cached handler))
  | attachAliased target names f cached => exact bound (t.attachAliased_uncached target names f cached)
  | addAlias name target => exact bound (t.addAlias_uncached name target)
  | clearCache =>
    exact ⟨rfl, by simp [Operation.uncached, perform, clearCache, uncached, Binding.clear, Binding.uncached]⟩
  | dispatch name args => exact ⟨congrArg Answer.outcome (called rfl).1, (called rfl).2⟩
  | handle r => exact ⟨congrArg (fun o => Answer.response (.ofOutcome r.func o)) (called rfl).1, (called rfl).2⟩
  | handleBytes bytes =>
    simp only [Operation.uncached, perform, handleBytes]
    cases hr : Request.ofBytes bytes with
    | error cause => exact ⟨rfl, rfl⟩
    | ok r =>
      have hc : (Operation.handleBytes (σ := σ) bytes).call? = some (r.func, r.args) := by rw [Operation.call?, hr]
      exact ⟨congrArg (fun o => Answer.reply (Response.ofOutcome r.func o).toText) (called hc).1, (called hc).2⟩
  | contains name => exact ⟨rfl, rfl⟩
  | size => exact ⟨rfl, rfl⟩
  | cachedResults name => exact ⟨congrArg Answer.kept (t.cachedResults_uncached name), rfl⟩
  | describe => exact ⟨congrArg Answer.described t.describe_uncached, rfl⟩

end

/-- A run is answered alike by the table that keeps nothing, whatever the handlers' states are. -/
theorem run_uncached_from (hk : Set.InjOn Binding.key A) : ∀ (ops : List (Operation σ)) {t : Table σ} (s s' : σ),
    t.Sound A → (∀ op ∈ ops, ∀ b ∈ op.binding?, b.handler.IsPure) → calledWith ops ⊆ A →
      (t.uncached.run s' (ops.map Operation.uncached)).1 = (t.run s ops).1.map Answer.withoutCaching
  | [], _, _, _, _, _, _ => rfl
  | op :: ops, t, s, s', h, hp, ha => by
    obtain ⟨hp1, hp2⟩ := List.forall_mem_cons.1 hp
    have first : ∀ name args, op.call? = some (name, args) → args ∈ A := fun name args hc =>
      ha ⟨op, List.mem_cons_self .., name, hc⟩
    have others : calledWith ops ⊆ A := fun args ⟨op', hm, hc⟩ => ha ⟨op', List.mem_cons_of_mem _ hm, hc⟩
    obtain ⟨h1, h2⟩ := perform_uncached hk first h s s'
    simp only [List.map_cons, run, h1, h2]
    rw [run_uncached_from hk ops _ _ (h.perform hk first hp1 s) hp2 others]

/-- A run over an empty table is answered like the run in which no binding keeps results, but for the answers to
`cachedResults` and what `describe` says of keeping. The handlers answer by their arguments only, and no two of
the lists called with have the same text. -/
theorem run_uncached (ops : List (Operation σ)) (hp : ∀ op ∈ ops, ∀ b ∈ op.binding?, b.handler.IsPure)
    (hk : Set.InjOn Binding.key (calledWith ops)) (s s' : σ) :
    (empty.run s' (ops.map Operation.uncached)).1 = (empty.run s ops).1.map Answer.withoutCaching :=
  run_uncached_from (t := empty) hk ops s s' nofun hp subset_rfl

/-- Two names of one function that keeps results, and calls by both of them. -/
def squares : List (Operation UInt64) :=
  [.attachAliased "square" ["Square", "Sq"] Catalogue.square true, .dispatch "Square" [.ofUInt64 7],
    .dispatch "Sq" [.ofUInt64 7], .dispatch "Sq" [.ofUInt64 8], .clearCache, .dispatch "Square" [.ofUInt64 7]]

theorem calledWith_squares : calledWith squares ⊆ {[.ofUInt64 7], [.ofUInt64 8]} := by
  rintro args ⟨op, hm, name, hc⟩
  simp only [squares, List.mem_cons, List.not_mem_nil, or_false] at hm
  rcases hm with rfl | rfl | rfl | rfl | rfl | rfl <;> cases hc <;> simp

theorem run_uncached_squares : (∀ op ∈ squares, ∀ b ∈ op.binding?, b.handler.IsPure) ∧
    Set.InjOn Binding.key (calledWith squares) ∧
    (empty.run 0 (squares.map Operation.uncached)).1 = (empty.run 0 squares).1.map Answer.withoutCaching := by
  have hp : ∀ op ∈ squares, ∀ b ∈ op.binding?, b.handler.IsPure := by
    have hs := RemoteFunction.isPure_call (f := Catalogue.square) (fun _ _ _ => rfl) "square"
    simpa [squares, Operation.binding?, Binding.ofFunction] using hs
  have hk : Set.InjOn Binding.key (calledWith squares) := by
    refine Set.InjOn.mono calledWith_squares (Set.injOn_pair.2 fun h => ?_)
    exact absurd h (by decide +kernel)
  exact ⟨hp, hk, run_uncached squares hp hk 0 0⟩

end Table

end NamedDispatch
