/-
Calls of typed functions with another number of arguments than these take. A binding that keeps results looks for
one before the arguments are counted, and yet finds none for such a call: every result kept was answered to
arguments that were called with, and a typed function answers only as many as it takes.
-/
import NamedDispatch.Proofs.Remote.Function
import NamedDispatch.Proofs.Table.Binding
import NamedDispatch.Proofs.Table.Caching
import NamedDispatch.Proofs.Table.Listing
import NamedDispatch.Proofs.Table.Sharing

namespace NamedDispatch

variable {σ : Type}

theorem RemoteFunction.toNat_ofNat_arity (f : RemoteFunction σ) : (UInt64.ofNat f.arity).toNat = f.arity := by
  have hf : f.arity ≤ 12 := f.few
  refine UInt64.toNat_ofNat_of_lt' ?_
  unfold UInt64.size
  omega

/-! ## What bindings keep -/

namespace Binding

variable {A : Set (List Json)} {b : Binding σ} {args : List Json} {target : String} {f : RemoteFunction σ}

/-- Nothing is kept for another number of arguments than the function takes, if no other arguments have their text. -/
theorem Answered.kept?_misfit (h : b.Answered A) (hb : b.handler = f.call target)
    (hk : ∀ xs ∈ A, key xs = key args → xs = args) (hl : args.length ≠ f.arity) : b.kept? args = none := by
  cases hr : b.kept? args with
  | none => rfl
  | some r =>
    obtain ⟨xs, hx, hkey, s, hs⟩ := h.kept? hr
    cases hk xs hx hkey
    rw [hb, RemoteFunction.call_of_error (RemoteFunction.decode_misfit hl)] at hs
    cases hs

end Binding

/-! ## Names of typed functions -/

namespace Table

variable {t t' : Table σ} {name target : String} {f : RemoteFunction σ} {cached : Bool}

/-- The name finds a binding of the function `f` with the given target; it may have come to keep results. -/
def Finds (t : Table σ) (name target : String) (f : RemoteFunction σ) : Prop :=
  ∃ i b cached, t.names.lookup name = some i ∧ t.bindings[i]? = some b ∧
    (Binding.ofFunction target f cached).Continues b

theorem Finds.later (h : t.Finds name target f) (hc : t.Continues t') : t'.Finds name target f := by
  obtain ⟨i, b, cached, hn, hb, hf⟩ := h
  obtain ⟨b', hb', hf'⟩ := hc.bindings i b hb
  exact ⟨i, b', cached, hc.lookup hn, hb', hf.trans hf'⟩

theorem finds_attach (h : (t.attach name f cached).1 = .ok ()) : (t.attach name f cached).2.Finds name name f := by
  rcases t.bind_cases name (.ofFunction name f cached) with ⟨hf, he⟩ | ⟨_, he⟩ <;> rw [attach, he] at h ⊢
  · exact ⟨_, _, cached, lookup_withName hf _, List.getElem?_concat_length, .refl _⟩
  · cases h

theorem finds_attachAliased {names : List String} (h : Binds t (t.attachAliased target names f cached).2 name) :
    (t.attachAliased target names f cached).2.Finds name target f := by
  obtain ⟨added, rest, more, _, hm, he⟩ := t.attachAliased_parted target names f cached
  rw [he] at h ⊢
  rcases hm with ⟨rfl, rfl⟩ | rfl
  · -- no name was added, and then none is new
    have hc : t.contains name = true := by simpa [contains, withNames] using h.after
    exact absurd hc (by simp [h.before])
  · have hi : ∀ p ∈ added.map fun name => (name, t.bindings.length), p.2 = t.bindings.length := by simp
    exact ⟨_, _, cached, h.lookup rfl hi, List.getElem?_concat_length, .refl _⟩

theorem finds_addAlias {other : String} (h : (t.addAlias name other).1 = .ok ()) (ho : t.Finds other target f) :
    (t.addAlias name other).2.Finds name target f := by
  obtain ⟨i, b, cached, hn, hb, hc⟩ := ho
  obtain ⟨hf, j, hj, he⟩ := addAlias_ok h
  cases hn.symm.trans hj
  rw [he]
  exact ⟨i, b, cached, lookup_withName hf i, hb, hc⟩

section

variable (entries : List (Entry σ)) (t₀ : Table σ) (s : σ)

/-- A name is bound to a typed function with a target, by how it came to be bound in a run from the table of a
registry's entries. -/
inductive BoundTo : List (Operation σ) → String → String → RemoteFunction σ → Prop
  | registered {name target : String} {f : RemoteFunction σ} {cached : Bool} {aliases : List String} :
    Entry.ofFunction target f cached aliases ∈ entries → name ∈ target :: aliases → BoundTo [] name target f
  | attached {ops : List (Operation σ)} {name : String} {f : RemoteFunction σ} {cached : Bool} :
    ((t₀.run s ops).2.1.attach name f cached).1 = .ok () → BoundTo (ops ++ [.attach name f cached]) name name f
  | attachedAs {ops : List (Operation σ)} {target name : String} {names : List String} {f : RemoteFunction σ}
    {cached : Bool} :
    Binds (t₀.run s ops).2.1 ((t₀.run s ops).2.1.attachAliased target names f cached).2 name →
    BoundTo (ops ++ [.attachAliased target names f cached]) name target f
  | aliased {ops : List (Operation σ)} {name other target : String} {f : RemoteFunction σ} :
    BoundTo ops other target f → ((t₀.run s ops).2.1.addAlias name other).1 = .ok () →
    BoundTo (ops ++ [.addAlias name other]) name target f
  | later {ops : List (Operation σ)} {op : Operation σ} {name target : String} {f : RemoteFunction σ} :
    BoundTo ops name target f → BoundTo (ops ++ [op]) name target f

end

variable {entries : List (Entry σ)} {t₀ : Table σ} {s : σ} {ops : List (Operation σ)}

theorem BoundTo.finds (h₀ : ofRegistry entries = .ok t₀) (h : BoundTo entries t₀ s ops name target f) :
    (t₀.run s ops).2.1.Finds name target f := by
  induction h with
  | @registered name target f cached aliases he hm =>
    obtain ⟨i, hb, hi⟩ := ofRegistry_bound h₀ he
    exact ⟨i, _, cached, hi name hm, hb, .refl _⟩
  | attached ha =>
    rw [run_concat]
    exact finds_attach ha
  | attachedAs ha =>
    rw [run_concat]
    exact finds_attachAliased ha
  | aliased _ ha ih =>
    rw [run_concat]
    exact finds_addAlias ha ih
  | later _ ih =>
    rw [run_concat]
    exact ih.later (continues_perform ..)

/-! ## What a table in use keeps -/

theorem ofRegistry_fresh (h : ofRegistry entries = .ok t) : ∀ b ∈ t.bindings, ∀ kept ∈ b.cache, kept = [] := by
  obtain ⟨hl, rfl⟩ := ofRegistry_eq h
  rw [hl.grown.bindings]
  intro b hb kept hk
  obtain ⟨e, _, rfl⟩ := List.mem_map.1 hb
  exact Operation.freshCache_eq_nil hk

theorem answered_run (h₀ : ofRegistry entries = .ok t₀) (s : σ) (ops : List (Operation σ)) :
    ∀ b ∈ (t₀.run s ops).2.1.bindings, b.Answered (calledWith ops) := by
  induction ops using List.reverseRecOn with
  | nil => exact fun b hb => Binding.answered_of_fresh (ofRegistry_fresh h₀ b hb)
  | append_singleton ops op ih =>
    rw [run_concat, calledWith_append]
    -- a call adds its own arguments to those called with, and what was kept before stays answered to these
    apply perform_bindings
    · intro name args hc b s hb
      exact hb.invoke (.inr ⟨op, List.mem_singleton_self op, name, hc⟩) s
    · exact fun b _ => b.answered_clear
    · exact fun b hb => Binding.answered_of_fresh (Operation.fresh_binding hb)
    · exact fun b hb => (ih b hb).mono Set.subset_union_left

/-! ## Calls with another number of arguments -/

theorem set_getElem?_self {α : Type} {l : List α} {i : Nat} {a : α} (h : l[i]? = some a) : l.set i a = l := by
  obtain ⟨hi, rfl⟩ := List.getElem?_eq_some_iff.1 h
  exact List.set_getElem_self hi

/-- A binding that keeps nothing for the arguments, and whose handler fails on them without an effect, fails too
and leaves the table as it is. The handler is asked once. -/
theorem dispatch_failed {i : Nat} {b : Binding σ} {args : List Json} {e : DispatchFault} {s : σ}
    (hn : t.names.lookup name = some i) (hb : t.bindings[i]? = some b) (hk : b.kept? args = none)
    (he : b.handler args s = (.error e, s)) : t.dispatch name args s = (.error e, t, s) ∧
      ∀ runs, t.noting.dispatch name args (s, runs) = (.error e, t.noting, s, runs ++ [⟨i, args, .error e⟩]) := by
  have hinvoke : b.invoke args s = (.error e, b, s) := by rw [Binding.invoke, hk, he]
  constructor
  · rw [dispatch_bound hn hb, hinvoke, set_getElem?_self hb]
  · intro runs
    rw [dispatch_bound (t := t.noting) hn (getElem?_noting hb), Binding.invoke_noting_missing hk, hinvoke,
      set_getElem?_self (getElem?_noting hb)]

/-- In a table in use, a name bound to a typed function, itself or as an alias, has one description. Called by
`dispatch` with another number of arguments than this tells, it is refused with `signatureMismatch`, in the
name of the target, whatever was called before. Nothing is kept then and nothing changes: no result kept is
told, as the function's handler is asked, and this does not run the function. No other arguments called with
may have the same text. -/
theorem dispatch_misfit (h₀ : ofRegistry entries = .ok t₀) (h : BoundTo entries t₀ s ops name target f)
    {args : List Json} (hk : ∀ xs ∈ calledWith ops, Binding.key xs = Binding.key args → xs = args) :
    let t := (t₀.run s ops).2.1
    let e := DispatchFault.arity target f.arity args.length
    e.kind = .signatureMismatch ∧ ∃ i b d, t.names.lookup name = some i ∧ t.bindings[i]? = some b ∧
      b.handler = f.call target ∧ (∀ d', d' ∈ t.describe ∧ d'.name = name ↔ d' = d) ∧
      d.target = target ∧ d.arity.toNat = f.arity ∧
      (args.length ≠ d.arity.toNat → ∀ s',
        t.dispatch name args s' = (.error e, t, s') ∧
        (∀ runs, t.noting.dispatch name args (s', runs) =
          (.error e, t.noting, s', runs ++ [⟨i, args, .error e⟩])) ∧
        ∀ runs, f.noting.call target args (s', runs) = (.error e, s', runs)) := by
  intro t e
  obtain ⟨i, b, cached, hn, hb, hc⟩ := h.finds h₀
  have hhandler : b.handler = f.call target := hc.handler
  have harity : b.arity.toNat = f.arity := by
    rw [hc.arity]
    exact f.toNat_ofNat_arity
  have hd : t.describeName name = some ⟨name, b.target, b.arity, b.isCached⟩ := by
    rw [describeName, find?_of_position hn hb, Option.map_some]
  refine ⟨rfl, i, b, ⟨name, b.target, b.arity, b.isCached⟩, hn, hb, hhandler, fun d' => ?_, hc.target, harity, ?_⟩
  · rw [mem_describe]
    constructor
    · rintro ⟨hd', rfl⟩
      exact Option.some.inj (hd'.symm.trans hd)
    · rintro rfl
      exact ⟨hd, rfl⟩
  · intro hl s'
    have hl : args.length ≠ f.arity := harity ▸ hl
    have hkept : b.kept? args = none := (answered_run h₀ s ops b (List.mem_of_getElem? hb)).kept?_misfit hhandler hk hl
    have he : b.handler args s' = (.error e, s') := by
      rw [hhandler, RemoteFunction.call_of_error (RemoteFunction.decode_misfit hl)]
    obtain ⟨hcall, hruns⟩ := dispatch_failed hn hb hkept he
    refine ⟨hcall, hruns, fun runs => ?_⟩
    exact RemoteFunction.call_of_error (RemoteFunction.decode_misfit (f := f.noting) hl) (s', runs)

/-- An alias of one of the names that a function keeping results has, called with too many arguments after a result
was kept. -/
theorem dispatch_misfit_squares :
    let ops : List (Operation UInt64) :=
      [.attachAliased "square" ["Square"] Catalogue.square true, .addAlias "Sq" "Square",
        .dispatch "Square" [.ofUInt64 7]]
    let args : List Json := [.ofUInt64 7, .ofUInt64 8]
    let t := ((empty : Table UInt64).run 0 ops).2.1
    BoundTo [] empty 0 ops "Sq" "square" Catalogue.square ∧
      (∀ xs ∈ calledWith ops, Binding.key xs = Binding.key args → xs = args) ∧
      t.cachedResults "Sq" = 1 ∧ ∀ s, t.dispatch "Sq" args s = (.error (.arity "square" 1 2), t, s) := by
  intro ops args t
  have first : BoundTo [] (empty : Table UInt64) 0 ([] ++ [.attachAliased "square" ["Square"] Catalogue.square true])
      "Square" "square" Catalogue.square := .attachedAs ⟨rfl, rfl⟩
  have second : BoundTo [] (empty : Table UInt64) 0
      ([.attachAliased "square" ["Square"] Catalogue.square true] ++ [.addAlias "Sq" "Square"])
      "Sq" "square" Catalogue.square := .aliased first rfl
  have hk : ∀ xs ∈ calledWith ops, Binding.key xs = Binding.key args → xs = args := by
    rintro xs ⟨op, hm, name, hc⟩ hkey
    simp only [ops, List.mem_cons, List.not_mem_nil, or_false] at hm
    rcases hm with rfl | rfl | rfl <;> cases hc
    exact absurd hkey (by decide +kernel)
  have hb : BoundTo [] (empty : Table UInt64) 0 ops "Sq" "square" Catalogue.square := second.later
  obtain ⟨_, i, b, d, _, _, _, _, _, hd, hmisfit⟩ := dispatch_misfit ofRegistry_nil hb hk
  have hl : args.length ≠ d.arity.toNat := by
    rw [hd]
    decide
  exact ⟨hb, hk, rfl, fun s => (hmisfit hl s).1⟩

end Table

end NamedDispatch
