/-
What a binding keeps accounts for the calls since results were last dropped: there is one kept result for
each key that a call succeeded with. For every key the calls are some that fail, each with a run of the
handler, then perhaps one that succeeds with a run, and after it calls that repeat its result without a
run. One call keeps this up, and so does every operation; induction over the run does the rest.
-/
import Mathlib.Data.List.Dedup
import NamedDispatch.Proofs.Table.Trace
import NamedDispatch.Remote.Catalogue

namespace NamedDispatch

/-- The result of a run, if it is of the handler at a position, for arguments of a key, and no fault. -/
def HandlerRun.result? (i : Nat) (k : String) (run : HandlerRun) : Option Json :=
  if run.position = i ∧ Binding.key run.args = k then run.outcome.toOption else none

namespace Table

variable {σ : Type}

/-! ## Kinds of calls -/

namespace Call

/-- The text of the arguments, under which a result is kept. -/
def key (c : Call) : String := Binding.key c.args

/-- Whether the call comes to a result. -/
def succeeded (c : Call) : Bool := c.outcome.isOk

/-- The handler ran once for the call, and the call comes to what the run does. -/
def Ran (c : Call) : Prop := ∃ i, c.position = some i ∧ c.runs = [⟨i, c.args, c.outcome⟩]

/-- The handler ran for the call and failed. -/
structure Failed (c : Call) : Prop where
  ran : c.Ran
  outcome : ∃ e, c.outcome = .error e

/-- The handler ran for the call and returned a result. -/
structure Returned (r : Json) (c : Call) : Prop where
  ran : c.Ran
  outcome : c.outcome = .ok r

/-- The call comes to a result without a run of the handler. -/
structure Repeated (r : Json) (c : Call) : Prop where
  runs : c.runs = []
  outcome : c.outcome = .ok r

end Call

/-- The calls whose arguments have a key. -/
def withKey (k : String) (calls : List Call) : List Call := calls.filter fun c => c.key == k

/-- The keys that calls succeeded with. -/
def succeededKeys (calls : List Call) : List String := ((calls.filter Call.succeeded).map Call.key).dedup

/-- How the calls with one key are served, and what is kept for it in the end. -/
inductive Served : List Call → Option Json → Prop where
  | missing {calls : List Call} (hf : ∀ c ∈ calls, c.Failed) : Served calls none
  | kept {failed later : List Call} {c : Call} {r : Json} (hf : ∀ c ∈ failed, c.Failed) (hr : c.Returned r)
    (hl : ∀ c ∈ later, c.Repeated r) : Served (failed ++ c :: later) (some r)

namespace Served

variable {calls : List Call} {c : Call} {r : Json} {kept : Option Json}

theorem fail (h : Served calls none) (hc : c.Failed) : Served (calls ++ [c]) none := by
  cases h with
  | missing hf => exact .missing (List.forall_mem_append.2 ⟨hf, List.forall_mem_singleton.2 hc⟩)

theorem first (h : Served calls none) (hc : c.Returned r) : Served (calls ++ [c]) (some r) := by
  cases h with
  | missing hf => exact .kept hf hc (List.forall_mem_nil _)

theorem again (h : Served calls (some r)) (hc : c.Repeated r) : Served (calls ++ [c]) (some r) := by
  cases h with
  | kept hf hr hl =>
    rw [List.append_assoc, List.cons_append]
    exact .kept hf hr (List.forall_mem_append.2 ⟨hl, List.forall_mem_singleton.2 hc⟩)

/-- Something is kept exactly if a call succeeded. -/
theorem isSome_iff (h : Served calls kept) : kept.isSome = true ↔ ∃ c ∈ calls, c.succeeded = true := by
  cases h with
  | missing hf =>
    refine ⟨nofun, ?_⟩
    rintro ⟨c, hc, hs⟩
    obtain ⟨e, he⟩ := (hf c hc).outcome
    rw [Call.succeeded, he] at hs
    cases hs
  | @kept failed later c r hf hr hl =>
    refine ⟨fun _ => ⟨c, by simp, ?_⟩, fun _ => rfl⟩
    rw [Call.succeeded, hr.outcome]
    rfl

end Served

/-! ## What handlers returned -/

/-- What the handler at a position returned during a call, for arguments of a key. -/
def Call.results (i : Nat) (k : String) (c : Call) : List Json := c.runs.filterMap (HandlerRun.result? i k)

/-- Everything that the handler at a position returned for arguments of a key. -/
def returned (i : Nat) (k : String) (calls : List Call) : List Json := calls.flatMap (Call.results i k)

section

variable {c : Call} {i : Nat} {k : String} {r : Json} {calls : List Call} {kept : Option Json}

theorem Call.results_other (h : ¬(c.position = some i ∧ c.key = k)) : c.results i k = [] := by
  rcases c.own with hr | ⟨j, hj, hr⟩
  · rw [results, hr, List.filterMap_nil]
  · have hn : HandlerRun.result? i k ⟨j, c.args, c.outcome⟩ = none :=
      if_neg fun ⟨hi, hk⟩ => h ⟨hi ▸ hj, hk⟩
    rw [results, hr, List.filterMap_cons, hn, List.filterMap_nil]

/-- A call that the handler ran for adds what the run returned. -/
theorem Call.Ran.results (h : c.Ran) (hi : c.position = some i) (hk : c.key = k) :
    c.results i k = c.outcome.toOption.toList := by
  obtain ⟨j, hj, hr⟩ := h
  cases hj.symm.trans hi
  have he : HandlerRun.result? i k ⟨i, c.args, c.outcome⟩ = c.outcome.toOption := if_pos ⟨rfl, hk⟩
  rw [Call.results, hr, List.filterMap_cons, he]
  cases c.outcome.toOption <;> rfl

theorem returned_eq (i : Nat) (k : String) (calls : List Call) :
    returned i k calls = returned i k (withKey k (callsOf i calls)) := by
  induction calls with
  | nil => rfl
  | cons c calls ih =>
    rw [returned, List.flatMap_cons]
    by_cases h : c.position = some i ∧ c.key = k
    · rw [callsOf, List.filter_cons_of_pos (by simp [h.1]), withKey, List.filter_cons_of_pos (by simp [h.2]),
        returned, List.flatMap_cons]
      exact congrArg (c.results i k ++ ·) ih
    · have hf : withKey k (callsOf i (c :: calls)) = withKey k (callsOf i calls) := by
        rw [withKey, withKey, callsOf, callsOf, List.filter_filter, List.filter_filter]
        exact List.filter_cons_of_neg (by simpa [and_comm] using h)
      rw [Call.results_other h, hf, List.nil_append]
      exact ih

theorem returned_of_failed (hf : ∀ c ∈ calls, c.Failed) (hi : ∀ c ∈ calls, c.position = some i ∧ c.key = k) :
    returned i k calls = [] := by
  refine List.flatMap_eq_nil_iff.2 fun c hc => ?_
  obtain ⟨e, he⟩ := (hf c hc).outcome
  rw [(hf c hc).ran.results (hi c hc).1 (hi c hc).2, he]
  rfl

theorem returned_of_repeated (hl : ∀ c ∈ calls, c.Repeated r) (i : Nat) (k : String) : returned i k calls = [] := by
  refine List.flatMap_eq_nil_iff.2 fun c hc => ?_
  rw [Call.results, (hl c hc).runs, List.filterMap_nil]

/-- The handler returned what is kept, and nothing else. -/
theorem Served.returned (h : Served calls kept) (hi : ∀ c ∈ calls, c.position = some i ∧ c.key = k) :
    returned i k calls = kept.toList := by
  cases h with
  | missing hf => exact returned_of_failed hf hi
  | @kept before later c r hf hr hl =>
    obtain ⟨hb, hi⟩ := List.forall_mem_append.1 hi
    obtain ⟨hc, -⟩ := List.forall_mem_cons.1 hi
    have hs : c.results i k = [r] := by
      rw [hr.ran.results hc.1 hc.2, hr.outcome]
      rfl
    calc Table.returned i k (before ++ c :: later)
        = Table.returned i k before ++ (c.results i k ++ Table.returned i k later) := by
          rw [Table.returned, List.flatMap_append, List.flatMap_cons]
          rfl
      _ = [r] := by rw [returned_of_failed hf hb, hs, returned_of_repeated hl, List.append_nil, List.nil_append]

end

/-! ## What accounts for the calls of a binding -/

/-- The kept results account for the calls of a binding: for each key the calls with it are served as
`Served` says. -/
structure Accounts (kept : List (String × Json)) (calls : List Call) : Prop where
  distinct : (kept.map Prod.fst).Nodup
  served : ∀ k, Served (withKey k calls) (kept.lookup k)

namespace Accounts

variable {kept kept' : List (String × Json)} {calls : List Call} {c : Call} {r : Json}

theorem nil : Accounts [] [] := ⟨List.nodup_nil, fun _ => .missing (List.forall_mem_nil _)⟩

/-- One more call changes what is served for its key only. -/
theorem concat (h : Accounts kept calls) (hd : (kept'.map Prod.fst).Nodup)
    (hs : Served (withKey c.key calls ++ [c]) (kept'.lookup c.key))
    (ho : ∀ k, c.key ≠ k → kept'.lookup k = kept.lookup k) : Accounts kept' (calls ++ [c]) := by
  refine ⟨hd, fun k => ?_⟩
  rw [withKey, List.filter_append]
  by_cases hk : c.key = k
  · subst hk
    rw [List.filter_cons_of_pos (by simp), List.filter_nil]
    exact hs
  · rw [List.filter_cons_of_neg (by simpa using hk), ho k hk, List.filter_nil, List.append_nil]
    exact h.served k

theorem servedAs (h : Accounts kept calls) {k : String} {found : Option Json} (hk : kept.lookup k = found) :
    Served (withKey k calls) found := hk ▸ h.served k

theorem again (h : Accounts kept calls) (hk : kept.lookup c.key = some r) (hc : c.Repeated r) :
    Accounts kept (calls ++ [c]) := by
  refine h.concat h.distinct ?_ fun _ _ => rfl
  rw [hk]
  exact (h.servedAs hk).again hc

theorem fail (h : Accounts kept calls) (hk : kept.lookup c.key = none) (hc : c.Failed) :
    Accounts kept (calls ++ [c]) := by
  refine h.concat h.distinct ?_ fun _ _ => rfl
  rw [hk]
  exact (h.servedAs hk).fail hc

theorem first (h : Accounts kept calls) (hk : kept.lookup c.key = none) (hc : c.Returned r) :
    Accounts ((c.key, r) :: kept) (calls ++ [c]) := by
  refine h.concat (List.nodup_cons.2 ⟨fun hm => ?_, h.distinct⟩) ?_ fun k hk => ?_
  · rw [← isSome_lookup_iff, hk] at hm
    cases hm
  · rw [List.lookup_cons_self]
    exact (h.servedAs hk).first hc
  · rw [List.lookup_cons, beq_false_of_ne (Ne.symm hk)]

theorem mem_succeededKeys (h : Accounts kept calls) {k : String} :
    k ∈ succeededKeys calls ↔ (kept.lookup k).isSome = true := by
  rw [(h.served k).isSome_iff, succeededKeys, List.mem_dedup]
  simp only [withKey, List.mem_map, List.mem_filter, beq_iff_eq]
  constructor
  · rintro ⟨c, ⟨hc, hs⟩, hk⟩
    exact ⟨c, ⟨hc, hk⟩, hs⟩
  · rintro ⟨c, ⟨hc, hk⟩, hs⟩
    exact ⟨c, ⟨hc, hs⟩, hk⟩

/-- As many results are kept as there are keys that calls succeeded with. -/
theorem length_eq (h : Accounts kept calls) : kept.length = (succeededKeys calls).length := by
  have hp : (kept.map Prod.fst).Perm (succeededKeys calls) := by
    refine (List.perm_ext_iff_of_nodup h.distinct (List.nodup_dedup _)).2 fun k => ?_
    exact isSome_lookup_iff.symm.trans h.mem_succeededKeys.symm
  rw [← hp.length_eq, List.length_map]

/-- A call of a binding adds to what it keeps what the call asks for. -/
theorem invoke {b : Binding σ} {s : σ} {i : Nat} (h : ∀ kept ∈ b.cache, Accounts kept calls)
    (hp : c.position = some i) (ho : c.outcome = (b.invoke c.args s).1)
    (hr : c.runs = ((b.noting i).invoke c.args (s, [])).2.2.2) :
    ∀ kept ∈ (b.invoke c.args s).2.1.cache, Accounts kept (calls ++ [c]) := by
  rcases b.invoke_cases c.args s with ⟨r, hk, he⟩ | ⟨hk, hc⟩
  · rw [Binding.invoke_noting_kept hk] at hr
    rw [he] at ho ⊢
    intro kept hb
    refine (h kept hb).again ?_ ⟨hr, ho⟩
    rwa [Binding.kept?, hb] at hk
  · rw [Binding.invoke_noting_missing hk, List.nil_append, ← ho] at hr
    have missing {kept : List (String × Json)} (hb : b.cache = some kept) : kept.lookup c.key = none := by
      rwa [Binding.kept?, hb] at hk
    rcases hc with ⟨r, -, he⟩ | ⟨e, -, he⟩
    · rw [he] at ho ⊢
      intro kept' hb'
      obtain ⟨kept, hb, rfl⟩ := Option.map_eq_some_iff.1 hb'
      exact (h kept hb).first (missing hb) ⟨⟨i, hp, hr⟩, ho⟩
    · rw [he] at ho ⊢
      intro kept hb
      exact (h kept hb).fail (missing hb) ⟨⟨i, hp, hr⟩, e, ho⟩

end Accounts

/-! ## What accounts for the calls of a table -/

/-- Calls are of bindings that the table has, and what each binding keeps accounts for its calls. -/
structure Accounted (t : Table σ) (calls : List Call) : Prop where
  below : ∀ c ∈ calls, ∀ i ∈ c.position, i < t.bindings.length
  each : ∀ i b, t.bindings[i]? = some b → ∀ kept ∈ b.cache, Accounts kept (callsOf i calls)

namespace Accounted

variable {t t' : Table σ} {calls : List Call} {i : Nat}

/-- No call is of a binding that is still to be made. -/
theorem callsOf_eq_nil (h : t.Accounted calls) (hi : t.bindings.length ≤ i) : callsOf i calls = [] := by
  refine List.filter_eq_nil_iff.2 fun c hc hp => ?_
  exact Nat.not_lt_of_le hi (h.below c hc i (beq_iff_eq.1 hp))

theorem call (hw : t.WellFormed) (h : t.Accounted calls) (s : σ) (op : Operation σ) {name : String}
    {args : List Json} (hc : op.call? = some (name, args)) :
    (t.dispatch name args s).2.1.Accounted (calls ++ [t.call s op hc]) := by
  cases hn : t.names.lookup name with
  | none =>
    have hf : t.find? name = none := by rw [find?, hn, Option.bind_none]
    have hp : (t.call s op hc).position = none := hn
    rw [dispatch_unbound hf]
    refine ⟨List.forall_mem_append.2 ⟨h.below, List.forall_mem_singleton.2 (by simp [hp])⟩, fun i b hb => ?_⟩
    rw [callsOf_concat, hp, if_neg (by simp)]
    exact h.each i b hb
  | some i =>
    obtain ⟨b, hb⟩ := hw.bound hn
    have hp : (t.call s op hc).position = some i := hn
    have hd := dispatch_bound hn hb args s
    have hi := Accounts.invoke (h.each i b hb) hp (call_outcome hc hn hb s) (call_runs hc hn hb s)
    rw [hd]
    refine ⟨List.forall_mem_append.2 ⟨fun c hc j hj => ?_, List.forall_mem_singleton.2 fun j hj => ?_⟩,
      fun j b' hb' => ?_⟩
    · rw [List.length_set]
      exact h.below c hc j hj
    · rw [List.length_set]
      cases hp.symm.trans hj
      exact hw.position_lt hn
    · rw [callsOf_concat, hp]
      by_cases hj : i = j
      · subst hj
        rw [List.getElem?_set_self (hw.position_lt hn)] at hb'
        cases hb'
        rw [if_pos rfl]
        exact hi
      · rw [List.getElem?_set_ne hj] at hb'
        rw [if_neg (by simpa using hj)]
        exact h.each j b' hb'

theorem clear (t : Table σ) : t.clearCache.Accounted [] := by
  refine ⟨List.forall_mem_nil _, fun i b hb kept hk => ?_⟩
  rw [clearCache, List.getElem?_map] at hb
  obtain ⟨b, -, rfl⟩ := Option.map_eq_some_iff.1 hb
  obtain ⟨_, -, rfl⟩ := Option.map_eq_some_iff.1 hk
  exact .nil

theorem grow {more : List (Binding σ)} (h : t.Accounted calls) (hg : Grown t t' more)
    (hf : ∀ b ∈ more, ∀ kept ∈ b.cache, kept = []) : t'.Accounted calls := by
  have hl : t.bindings.length ≤ t'.bindings.length := by
    rw [hg.bindings, List.length_append]
    exact Nat.le_add_right ..
  refine ⟨fun c hc i hi => Nat.lt_of_lt_of_le (h.below c hc i hi) hl, fun i b hb => ?_⟩
  rw [hg.bindings] at hb
  by_cases hi : i < t.bindings.length
  · rw [List.getElem?_append_left hi] at hb
    exact h.each i b hb
  · rw [List.getElem?_append_right (Nat.le_of_not_lt hi)] at hb
    intro kept hk
    rw [h.callsOf_eq_nil (Nat.le_of_not_lt hi), hf b (List.mem_of_getElem? hb) kept hk]
    exact .nil

/-- What is kept accounts for the calls after an operation if it did before. -/
theorem perform (hw : t.WellFormed) (h : t.Accounted calls) (s : σ) (op : Operation σ) :
    (t.perform s op).2.1.Accounted ((t.event s op).extend calls) := by
  rcases t.perform_cases s op with ⟨name, args, hc, he⟩ | ⟨hc, hl, he⟩ | ⟨hc, hl, _, more, hm, hg⟩
  · rw [event_called hc, he]
    exact h.call hw s op hc
  · rw [event_other hc, he, hl, if_pos rfl]
    exact clear t
  · rw [event_other hc, hl, if_neg Bool.false_ne_true]
    exact h.grow hg fun b hb => Operation.fresh_binding (hm b hb)

theorem run (s : σ) (ops : List (Operation σ)) :
    ((empty : Table σ).run s ops).2.1.Accounted (sinceCleared (empty.trace s ops)) := by
  induction ops using List.reverseRecOn with
  | nil => exact ⟨List.forall_mem_nil _, nofun⟩
  | append_singleton ops op ih =>
    rw [run_concat, trace_concat, sinceCleared_concat]
    exact ih.perform (run_wellFormed s ops) _ op

end Accounted

/-! ## Every run -/

/-- In every run, `cachedResults` of a binding that keeps results is the number of keys that calls of it
succeeded with since `clearCache`. For each key, the handler returned nothing since then and every call fails,
with a run of the handler; or it returned one result, after calls that fail likewise, and every later call comes
to that result without a run. -/
theorem cachedResults_run (s : σ) (ops : List (Operation σ)) (name : String) (i : Nat)
    (hn : ((empty : Table σ).run s ops).2.1.names.lookup name = some i)
    (hc : (((empty : Table σ).run s ops).2.1.find? name).any Binding.isCached = true) :
    let period := sinceCleared ((empty : Table σ).trace s ops)
    ((empty : Table σ).run s ops).2.1.cachedResults name = (succeededKeys (callsOf i period)).length ∧
      ∀ k, ∃ kept, Served (withKey k (callsOf i period)) kept ∧ returned i k period = kept.toList ∧
        (kept.isSome = true ↔ k ∈ succeededKeys (callsOf i period)) := by
  intro period
  obtain ⟨b, hb⟩ := (run_wellFormed s ops).bound hn
  rw [find?_of_position hn hb] at hc
  obtain ⟨kept, hk⟩ := Option.isSome_iff_exists.1 hc
  have ha := (Accounted.run s ops).each i b hb kept hk
  refine ⟨?_, fun k => ⟨kept.lookup k, ha.served k, ?_, ha.mem_succeededKeys.symm⟩⟩
  · rw [← ha.length_eq, cachedResults, find?_of_position hn hb, Option.map_some, Binding.cachedResults, hk]
    rfl
  · rw [returned_eq]
    refine (ha.served k).returned fun c hc => ?_
    obtain ⟨hc, hk⟩ := List.mem_filter.1 hc
    exact ⟨beq_iff_eq.1 (List.mem_filter.1 hc).2, beq_iff_eq.1 hk⟩

/-- After results were dropped, a call that fails and two that come to one result. -/
def eights : List (Operation UInt64) :=
  [.attachAliased "square" ["Square", "Sq"] Catalogue.square true, .dispatch "Square" [.ofUInt64 7], .clearCache,
    .dispatch "Sq" [.null], .dispatch "Sq" [.ofUInt64 8], .handle ⟨"Square", [.ofUInt64 8]⟩]

theorem cachedResults_run_eights : let t := ((empty : Table UInt64).run 0 eights).2.1
    let period := sinceCleared ((empty : Table UInt64).trace 0 eights)
    t.names.lookup "Sq" = some 0 ∧ (t.find? "Sq").any Binding.isCached = true ∧ t.cachedResults "Sq" = 1 ∧
      t.cachedResults "Sq" = (succeededKeys (callsOf 0 period)).length ∧
      ∀ k, ∃ kept, Served (withKey k (callsOf 0 period)) kept ∧ returned 0 k period = kept.toList ∧
        (kept.isSome = true ↔ k ∈ succeededKeys (callsOf 0 period)) :=
  ⟨rfl, rfl, rfl, cachedResults_run 0 eights "Sq" 0 rfl rfl⟩

end Table

end NamedDispatch
