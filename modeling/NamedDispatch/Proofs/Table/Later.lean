/-
What is left of a table as it is used. Whatever is asked of it, its names stay bound where they are and its
bindings stay the same functions; only what these keep may change.
-/
import NamedDispatch.Proofs.Table.Run

namespace NamedDispatch

variable {σ : Type}

/-! ## Bindings -/

/-- The second binding is the first one later on: it may keep other results, and that is all. -/
structure Binding.Continues (b b' : Binding σ) : Prop where
  target : b'.target = b.target
  arity : b'.arity = b.arity
  handler : b'.handler = b.handler
  isCached : b'.isCached = b.isCached

namespace Binding

variable {b b' b'' : Binding σ}

theorem Continues.refl (b : Binding σ) : b.Continues b := ⟨rfl, rfl, rfl, rfl⟩

theorem Continues.trans (h : b.Continues b') (h' : b'.Continues b'') : b.Continues b'' :=
  ⟨h'.target.trans h.target, h'.arity.trans h.arity, h'.handler.trans h.handler, h'.isCached.trans h.isCached⟩

theorem continues_clear (b : Binding σ) : b.Continues b.clear := ⟨rfl, rfl, rfl, Option.isSome_map⟩

theorem continues_invoke (b : Binding σ) (args : List Json) (s : σ) : b.Continues (b.invoke args s).2.1 := by
  rcases b.invoke_cases args s with ⟨r, _, he⟩ | ⟨_, ⟨r, _, he⟩ | ⟨e, _, he⟩⟩ <;> rw [he]
  · exact .refl b
  · exact ⟨rfl, rfl, rfl, Option.isSome_map⟩
  · exact .refl b

end Binding

/-! ## Tables -/

namespace Table

variable {t t' t'' : Table σ}

/-- The second table is the first one later on: its names come after those of the first, and every binding
of the first continues at its position. -/
structure Continues (t t' : Table σ) : Prop where
  names : t.names <+: t'.names
  bindings : ∀ (i : Nat) b, t.bindings[i]? = some b → ∃ b', t'.bindings[i]? = some b' ∧ b.Continues b'

namespace Continues

theorem refl (t : Table σ) : t.Continues t := ⟨List.prefix_refl _, fun _ b hb => ⟨b, hb, .refl b⟩⟩

theorem trans (h : t.Continues t') (h' : t'.Continues t'') : t.Continues t'' := by
  refine ⟨h.names.trans h'.names, fun i b hb => ?_⟩
  obtain ⟨b', hb', hc⟩ := h.bindings i b hb
  obtain ⟨b'', hb'', hc'⟩ := h'.bindings i b' hb'
  exact ⟨b'', hb'', hc.trans hc'⟩

theorem lookup (h : t.Continues t') {name : String} {i : Nat} (hn : t.names.lookup name = some i) :
    t'.names.lookup name = some i := lookup_mono h.names hn

theorem describeName (h : t.Continues t') {name : String} {d : Description} (hd : t.describeName name = some d) :
    t'.describeName name = some d := by
  obtain ⟨b, hf, rfl⟩ := Option.map_eq_some_iff.1 hd
  obtain ⟨i, hn, hb⟩ := find?_eq_some_iff.1 hf
  obtain ⟨b', hb', hc⟩ := h.bindings i b hb
  rw [Table.describeName, find?_of_position (h.lookup hn) hb', Option.map_some, hc.target, hc.arity, hc.isCached]

end Continues

theorem Grown.continues {more : List (Binding σ)} (h : Grown t t' more) : t.Continues t' := by
  obtain ⟨added, hn⟩ := h.names
  refine ⟨⟨added, hn.symm⟩, fun i b hb => ⟨b, ?_, .refl b⟩⟩
  rw [h.bindings, List.getElem?_append_left (List.getElem?_eq_some_iff.1 hb).1, hb]

theorem continues_dispatch (t : Table σ) (name : String) (args : List Json) (s : σ) :
    t.Continues (t.dispatch name args s).2.1 := by
  rcases t.find?_cases name with hf | ⟨i, b, hn, hb⟩
  · rw [dispatch_unbound hf]
    exact .refl t
  · rw [dispatch_bound hn hb]
    refine ⟨List.prefix_refl _, fun j b' hb' => ?_⟩
    by_cases hj : i = j
    · subst hj
      cases hb.symm.trans hb'
      exact ⟨_, List.getElem?_set_self (List.getElem?_eq_some_iff.1 hb).1, b.continues_invoke args s⟩
    · exact ⟨b', (List.getElem?_set_ne hj).trans hb', .refl b'⟩

theorem continues_clearCache (t : Table σ) : t.Continues t.clearCache := by
  refine ⟨List.prefix_refl _, fun i b hb => ⟨b.clear, ?_, b.continues_clear⟩⟩
  rw [clearCache, List.getElem?_map, hb, Option.map_some]

/-- Every operation, whatever comes of it, leaves the names and the functions of a table as they are. -/
theorem continues_perform (t : Table σ) (s : σ) (op : Operation σ) : t.Continues (t.perform s op).2.1 := by
  rcases t.perform_cases s op with ⟨name, args, _, he⟩ | ⟨_, _, he⟩ | ⟨_, _, _, more, _, hg⟩
  · rw [he]
    exact t.continues_dispatch name args s
  · rw [he]
    exact t.continues_clearCache
  · exact hg.continues

theorem continues_run (t : Table σ) (s : σ) (ops : List (Operation σ)) : t.Continues (t.run s ops).2.1 := by
  induction ops generalizing t s with
  | nil => exact .refl t
  | cons op ops ih => exact (t.continues_perform s op).trans (ih _ _)

/-- What a run leaves continues what any first part of it left. -/
theorem continues_run_append (t : Table σ) (s : σ) (ops later : List (Operation σ)) :
    (t.run s ops).2.1.Continues (t.run s (ops ++ later)).2.1 := by
  rw [run_append]
  exact continues_run ..

end Table

end NamedDispatch
