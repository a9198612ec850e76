/-
A key tells argument lists apart. A text that is read back is of one document, so two lists without floating
point numbers have one key only if they are the same list. What a binding keeps for a key was returned to an
earlier call with this key, hence to one with the same arguments.
-/
import NamedDispatch.Proofs.Json.Documents
import NamedDispatch.Proofs.Table.Caching
import NamedDispatch.Proofs.Table.Kept

namespace NamedDispatch

/-! ## Texts of documents -/

namespace Json

theorem Reader.Reads.unique {α : Type} {r : Reader α} {text : List Char} {a a' : α} (h : Reader.Reads r text a)
    (h' : Reader.Reads r text a') : a = a' := by
  have he := (h [] .start Reader.ends_nil).symm.trans (h' [] .start Reader.ends_nil)
  injection he

/-- A text is of one document, however deep it may be nested. -/
theorem write_injOn : Set.InjOn write {j | j.isFloatFree = true} := by
  intro j hj j' hj' he
  have h : Reader.Reads (Reader.document (max j.depth j'.depth)) j.write j :=
    Reader.reads_write j hj (Nat.le_max_left ..)
  have h' : Reader.Reads (Reader.document (max j.depth j'.depth)) j'.write j' :=
    Reader.reads_write j' hj' (Nat.le_max_right ..)
  exact h.unique (he ▸ h')

end Json

theorem Binding.key_injOn : Set.InjOn key {args | Json.isFloatFreeItems args = true} := by
  intro xs hx ys hy h
  exact Json.arr.inj (Json.write_injOn hx hy (String.ofList_injective h))

namespace Table

variable {σ : Type} {t : Table σ} {s : σ} {op : Operation σ} {name : String} {args : List Json}

/-! ## Calls of a run -/

theorem called_event {c : Call} (h : t.event s op = .called c) :
    ∃ name args, ∃ hc : op.call? = some (name, args), c = t.call s op hc := by
  rcases Option.eq_none_or_eq_some op.call? with hc | ⟨⟨name, args⟩, hc⟩
  · rw [event_other hc] at h
    split at h <;> cases h
  · rw [event_called hc] at h
    exact ⟨name, args, hc, (Event.called.inj h).symm⟩

theorem args_sinceCleared (s : σ) (ops : List (Operation σ)) :
    ∀ c ∈ sinceCleared ((empty : Table σ).trace s ops), c.args ∈ calledWith ops := by
  induction ops using List.reverseRecOn with
  | nil => exact List.forall_mem_nil _
  | append_singleton ops op ih =>
    rw [trace_concat, sinceCleared_concat]
    have before : ∀ c ∈ sinceCleared ((empty : Table σ).trace s ops), c.args ∈ calledWith (ops ++ [op]) := by
      intro c hc
      obtain ⟨op', hm, hcall⟩ := ih c hc
      exact ⟨op', List.mem_append_left _ hm, hcall⟩
    cases he : event _ _ op with
    | called c =>
      obtain ⟨name, args, hc, rfl⟩ := called_event he
      refine List.forall_mem_append.2 ⟨before, List.forall_mem_singleton.2 ?_⟩
      exact ⟨op, List.mem_append_right _ (List.mem_singleton_self op), name, hc⟩
    | cleared => exact List.forall_mem_nil _
    | other => exact before

/-- What is seen before an event is seen of the operations before the one it is of. -/
theorem trace_split {ops : List (Operation σ)} {before after : List Event} {e : Event}
    (h : t.trace s ops = before ++ e :: after) : ∃ done op later, ops = done ++ op :: later ∧
      t.trace s done = before ∧ (t.run s done).2.1.event (t.run s done).2.2 op = e := by
  induction before generalizing t s ops with
  | nil =>
    cases ops with
    | nil => cases h
    | cons op ops => exact ⟨[], op, ops, rfl, rfl, (List.cons.inj h).1⟩
  | cons first before ih =>
    cases ops with
    | nil => cases h
    | cons op ops =>
      obtain ⟨hfirst, hrest⟩ := List.cons.inj h
      obtain ⟨done, op', later, rfl, hdone, he⟩ := ih hrest
      exact ⟨op :: done, op', later, rfl, List.cons_eq_cons.2 ⟨hfirst, hdone⟩, he⟩

/-! ## Calls without a run -/

/-- A call that no handler runs for is answered from what the binding keeps. -/
theorem kept_of_repeated {r : Json} (hc : op.call? = some (name, args)) (h : (t.call s op hc).Repeated r) :
    ∃ i b, t.names.lookup name = some i ∧ t.bindings[i]? = some b ∧ b.kept? args = some r := by
  have ho := h.outcome
  rcases t.find?_cases name with hn | ⟨i, b, hn, hb⟩
  · have he : (t.call s op hc).outcome = .error (.missing name) := congrArg Prod.fst (dispatch_unbound hn args s)
    rw [he] at ho
    cases ho
  · have hr := h.runs
    rw [call_outcome hc hn hb] at ho
    rw [call_runs hc hn hb] at hr
    refine ⟨i, b, hn, hb, ?_⟩
    cases hk : b.kept? args with
    | some r' =>
      rw [Binding.invoke, hk] at ho
      exact congrArg some (Except.ok.inj ho)
    | none =>
      rw [Binding.invoke_noting_missing hk] at hr
      cases hr

theorem Served.returned_mem {calls : List Call} {r : Json} (h : Served calls (some r)) : ∃ c ∈ calls, c.Returned r := by
  cases h with
  | kept hf hr hl => exact ⟨_, List.mem_append_right _ (List.mem_cons_self ..), hr⟩

/-- A call that no handler runs for comes to what was returned, since results were last dropped, to a call
of the same binding with the same key. -/
theorem Accounted.repeated {calls : List Call} {r : Json} (h : t.Accounted calls)
    (hc : op.call? = some (name, args)) (hr : (t.call s op hc).Repeated r) :
    ∃ c ∈ calls, c.position = (t.call s op hc).position ∧ c.key = Binding.key args ∧ c.Returned r := by
  obtain ⟨i, b, hn, hb, hk⟩ := kept_of_repeated hc hr
  obtain ⟨kept, hkept, hl⟩ := Option.bind_eq_some_iff.1 hk
  obtain ⟨c, hm, hret⟩ := ((h.each i b hb kept hkept).servedAs hl).returned_mem
  obtain ⟨hm, hkey⟩ := List.mem_filter.1 hm
  obtain ⟨hm, hpos⟩ := List.mem_filter.1 hm
  exact ⟨c, hm, (beq_iff_eq.1 hpos).trans hn.symm, beq_iff_eq.1 hkey, hret⟩

/-! ## Every run -/

/-- Two argument lists without floating point numbers have one key only if they are the same. So where a run
calls with such lists, a call that no handler runs for comes to a result that the handler of its binding
returned, since results were last dropped, to a call with the same arguments. -/
theorem kept_results_of_same_arguments :
    (∀ xs ys : List Json, Json.isFloatFreeItems xs = true → Json.isFloatFreeItems ys = true →
      Binding.key xs = Binding.key ys → xs = ys) ∧
    ∀ {σ : Type} (s : σ) (ops : List (Operation σ)),
      (∀ xs ∈ calledWith ops, Json.isFloatFreeItems xs = true) →
      ∀ before c after r, (empty : Table σ).trace s ops = before ++ .called c :: after → c.Repeated r →
        ∃ c' ∈ sinceCleared before, c'.position = c.position ∧ c'.args = c.args ∧ c'.Returned r := by
  refine ⟨fun xs ys hx hy h => Binding.key_injOn hx hy h, ?_⟩
  intro σ s ops hf before c after r ht hr
  obtain ⟨done, op, later, rfl, rfl, he⟩ := trace_split ht
  obtain ⟨name, args, hc, rfl⟩ := called_event he
  obtain ⟨c', hm, hpos, hkey, hret⟩ := (Accounted.run s done).repeated hc hr
  obtain ⟨op', hop', hcall⟩ := args_sinceCleared s done c' hm
  have hargs := hf c'.args ⟨op', List.mem_append_left _ hop', hcall⟩
  exact ⟨c', hm, hpos, Binding.key_injOn hargs (hf _ ⟨op, by simp, name, hc⟩) hkey, hret⟩

theorem floatFree_eights : ∀ xs ∈ calledWith eights, Json.isFloatFreeItems xs = true := by
  rintro xs ⟨op, hm, name, hc⟩
  simp only [eights, List.mem_cons, List.not_mem_nil, or_false] at hm
  rcases hm with rfl | rfl | rfl | rfl | rfl | rfl <;> cases hc <;> rfl

/-- The last call of `eights` goes by another name than the one whose result it comes to. -/
theorem kept_results_of_same_arguments_eights : (∀ xs ∈ calledWith eights, Json.isFloatFreeItems xs = true) ∧
    ∃ before c, (empty : Table UInt64).trace 0 eights = before ++ [.called c] ∧ c.Repeated (.ofUInt64 64) ∧
      ∃ c' ∈ sinceCleared before, c'.position = c.position ∧ c'.args = c.args ∧ c'.Returned (.ofUInt64 64) := by
  have hc : (Operation.handle (σ := UInt64) ⟨"Square", [.ofUInt64 8]⟩).call? = some ("Square", [.ofUInt64 8]) := rfl
  have ht := trace_concat (empty : Table UInt64) 0 eights.dropLast (.handle ⟨"Square", [.ofUInt64 8]⟩)
  rw [event_called hc] at ht
  exact ⟨floatFree_eights, _, _, ht, ⟨rfl, rfl⟩,
    kept_results_of_same_arguments.2 0 eights floatFree_eights _ _ [] _ ht ⟨rfl, rfl⟩⟩

end Table

end NamedDispatch
