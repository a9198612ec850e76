/-
What an attempt to bind names comes to. A name that is blank or bound already is refused, and so is an alias of a
name that is not bound; then nothing changes. Any other name is added, and no other name is disturbed. The names
for one function are bound up to the first that is refused, and those that are share one new binding.
-/
import Mathlib.Data.List.TakeWhile
import NamedDispatch.Proofs.Table.Registry
import NamedDispatch.Proofs.Text.Blank

namespace NamedDispatch

variable {σ : Type}

namespace Table

variable {t : Table σ} {name : String} {i : Nat}

/-! ## Names for one function -/

/-- With `attachAliased` a function is bound under all the names it is attached under if and only if each has a
character that is not blank, none was bound and none is repeated. Otherwise the names before the first that is
blank, bound or repeated are bound, and the fault is of that one. The names bound share one new binding, with
nothing kept, and every name bound before keeps its binding. -/
theorem attachAliased_stops (t : Table σ) (target : String) (names : List String) (f : RemoteFunction σ)
    (cached : Bool) :
    let r := t.attachAliased target names f cached
    (r.1 = .ok () ↔ (∀ name ∈ names, (∃ c ∈ name.toList, Text.isBlank c = false) ∧ t.contains name = false) ∧
      names.Nodup) ∧
    ∃ added rest, t.Parted names added rest ∧ (rest = [] ↔ r.1 = .ok ()) ∧
      (∀ name ∈ rest.head?, r.1 = .error (.refused name) ∧ (DispatchFault.refused name).kind = .functionBind) ∧
      r.2.names.map Prod.fst = t.names.map Prod.fst ++ added ∧
      (∀ name ∈ added, r.2.names.lookup name = some t.bindings.length ∧ r.2.bindings[t.bindings.length]? =
        some ⟨target, .ofNat f.arity, f.call target, if cached then some [] else none⟩) ∧
      ∀ name j b, t.names.lookup name = some j → t.bindings[j]? = some b →
        r.2.names.lookup name = some j ∧ r.2.bindings[j]? = some b := by
  intro r
  obtain ⟨added, rest, more, hp, hm, ha⟩ := t.attachAliased_parted target names f cached
  have hr : r = (outcomeAt rest, { t.withNames added t.bindings.length with bindings := t.bindings ++ more }) := ha
  have hok : r.1 = .ok () ↔ rest = [] := by rw [hr, outcomeAt_eq_ok_iff]
  refine ⟨?_, added, rest, hp, hok.symm, ?_, ?_, ?_, ?_⟩
  · simp only [hok, hp.rest_eq_nil_iff, ← Text.isBlankText_eq_false_iff]
    exact and_congr_left' (forall₂_congr fun name _ => ⟨fun h => ⟨h.visible, h.unbound⟩, fun h => ⟨h.1, h.2⟩⟩)
  · intro name hn
    obtain ⟨rest', rfl⟩ := List.head?_eq_some_iff.1 hn
    rw [hr]
    exact ⟨rfl, DispatchFault.kind_refused name⟩
  · rw [hr]
    exact keys_withNames t added _
  · intro name hn
    rw [hr]
    constructor
    · exact lookup_withNames (hp.free name hn).not_mem_keys hn _
    · obtain ⟨rfl, -⟩ | rfl := hm
      · cases hn
      · exact List.getElem?_concat_length
  · intro name j b hj hb
    rw [hr]
    constructor
    · exact lookup_mono (List.prefix_append ..) hj
    · show (t.bindings ++ more)[j]? = _
      rw [List.getElem?_append_left (List.getElem?_eq_some_iff.1 hb).1, hb]

end Table

/-! ## Operations that bind one name -/

namespace Operation

/-- The name to be bound, if the operation is to bind a single one, as `attach`, `attachRaw` and `addAlias` are. -/
def newName? : Operation σ → Option String
  | attach name _ _ => some name
  | attachRaw name _ _ _ => some name
  | addAlias name _ => some name
  | _ => none

/-- The bound name that an alias is to stand for. -/
def target? : Operation σ → Option String
  | addAlias _ target => some target
  | _ => none

end Operation

namespace Table

variable {t : Table σ} {name : String} {i : Nat} {op : Operation σ} {s : σ}

/-- The operation cannot bind the name: this is not free, or what it is to stand for is not bound. -/
def Refuses (t : Table σ) (op : Operation σ) (name : String) : Prop :=
  ¬ t.Free name ∨ ∃ target ∈ op.target?, t.contains target = false

theorem refuses_iff : t.Refuses op name ↔
    Text.trim name = "" ∨ t.contains name = true ∨ ∃ target ∈ op.target?, t.contains target = false := by
  rw [Refuses, not_free_iff, Text.trim_eq_empty_iff, or_assoc]

/-- What an operation does that is to bind a single name. -/
inductive BindsOne (t : Table σ) (s : σ) (op : Operation σ) (name : String) : Prop where
  | refused {e : DispatchFault} (h : t.Refuses op name) (hk : e.kind = .functionBind)
    (hp : t.perform s op = (.bound (.error e), t, s))
  | made {b : Binding σ} (hf : t.Free name) (hb : op.binding? = some b) (ht : op.target? = none)
    (hp : t.perform s op = (.bound (.ok ()),
      { t.withName name t.bindings.length with bindings := t.bindings ++ [b] }, s))
  | shared {target : String} {i : Nat} (hf : t.Free name) (hb : op.binding? = none) (ht : op.target? = some target)
    (hi : t.names.lookup target = some i) (hp : t.perform s op = (.bound (.ok ()), t.withName name i, s))

/-- An operation that is to bind a single name is refused, or it binds the name to the binding it makes, or to that
of its target. -/
theorem perform_bindsOne (hn : op.newName? = some name) (t : Table σ) (s : σ) : t.BindsOne s op name := by
  cases op with
  | attach n f cached =>
    cases hn
    rcases t.bind_cases name (.ofFunction name f cached) with ⟨hf, h⟩ | ⟨hf, h⟩
    · exact .made hf rfl rfl (by rw [perform, attach, h])
    · exact .refused (.inl hf) (DispatchFault.kind_refused name) (by rw [perform, attach, h])
  | attachRaw n arity cached handler =>
    cases hn
    rcases t.bind_cases name (.ofHandler name arity cached handler) with ⟨hf, h⟩ | ⟨hf, h⟩
    · exact .made hf rfl rfl (by rw [perform, attachRaw, h])
    · exact .refused (.inl hf) (DispatchFault.kind_refused name) (by rw [perform, attachRaw, h])
  | addAlias n target =>
    cases hn
    rcases t.addAlias_cases name target with ⟨hf, i, hi, h⟩ | ⟨hr, e, hk, h⟩
    · exact .shared hf rfl rfl hi (by rw [perform, h])
    · exact .refused (hr.imp_right fun hc => ⟨target, rfl, hc⟩) hk (by rw [perform, h])
  | _ => cases hn

theorem not_refuses (hf : t.Free name) (ht : ∀ target ∈ op.target?, t.contains target = true) :
    ¬ t.Refuses op name := by
  rintro (hn | ⟨target, hm, hc⟩)
  · exact hn hf
  · simp [ht target hm] at hc

/-! ## What other names find -/

theorem lookup_withName_of_ne {other : String} (h : other ≠ name) (i : Nat) :
    (t.withName name i).names.lookup other = t.names.lookup other := by
  unfold withName
  rw [List.lookup_append, List.lookup_cons, beq_false_of_ne h, List.lookup_nil, Option.or_none]

theorem find?_withName_of_ne {other : String} (h : other ≠ name) (i : Nat) :
    (t.withName name i).find? other = t.find? other := by
  unfold find?
  rw [lookup_withName_of_ne h]
  rfl

theorem WellFormed.find?_made_of_ne (hw : t.WellFormed) {other : String} (h : other ≠ name) (b : Binding σ) :
    find? { t.withName name t.bindings.length with bindings := t.bindings ++ [b] } other = t.find? other := by
  rw [hw.find?_withName, if_neg (by simpa using h.symm), Option.or_none]

/-- In a table in use, an operation that is to bind a name is refused, always with `functionBind`, if and only
if nothing is left of the name when it is trimmed, or it is bound already, or what it is to stand for is not
bound. Then all is as it was: the table, what it keeps, and the state of the functions. Otherwise this name and
no other is added, to the binding made or to that of its target, and every other name finds what it found. -/
theorem bound_or_unchanged {entries : List (Entry σ)} {t₀ : Table σ} (h₀ : ofRegistry entries = .ok t₀) (s₀ s : σ)
    (ops : List (Operation σ)) (hn : op.newName? = some name) :
    let t := (t₀.run s₀ ops).2.1
    let r := t.perform s op
    ∃ o, r.1 = .bound o ∧
      ((∃ e, o = .error e) ↔
        Text.trim name = "" ∨ t.contains name = true ∨ ∃ target ∈ op.target?, t.contains target = false) ∧
      (∀ e, o = .error e → e.kind = .functionBind ∧ r.2 = (t, s)) ∧
      (o = .ok () → r.2.2 = s ∧ r.2.1.names.map Prod.fst = t.names.map Prod.fst ++ [name] ∧
        (∀ other ≠ name, r.2.1.names.lookup other = t.names.lookup other ∧ r.2.1.find? other = t.find? other) ∧
        (∀ b ∈ op.binding?, r.2.1.find? name = some b) ∧
        ∀ target ∈ op.target?, r.2.1.names.lookup name = t.names.lookup target) := by
  intro t r
  have hw : t.WellFormed := (ofRegistry_wellFormed h₀).run s₀ ops
  rw [← refuses_iff]
  cases perform_bindsOne hn t s with
  | @refused e h hk hp =>
    have hr : r = (.bound (.error e), t, s) := hp
    rw [hr]
    refine ⟨.error e, rfl, ⟨fun _ => h, fun _ => ⟨e, rfl⟩⟩, ?_, nofun⟩
    intro e' he
    cases he
    exact ⟨hk, rfl⟩
  | @made b hf hb ht hp =>
    have hr : r = (.bound (.ok ()), { t.withName name t.bindings.length with bindings := t.bindings ++ [b] }, s) := hp
    have hnot : ¬ t.Refuses op name := not_refuses hf (by simp [ht])
    rw [hr]
    refine ⟨.ok (), rfl, ⟨nofun, fun h => absurd h hnot⟩, nofun, fun _ => ⟨rfl, keys_withNames t [name] _, ?_, ?_, ?_⟩⟩
    · exact fun other ho => ⟨lookup_withName_of_ne ho _, hw.find?_made_of_ne ho b⟩
    · rintro b' hb'
      cases hb.symm.trans hb'
      exact find?_of_position (lookup_withName hf _) List.getElem?_concat_length
    · simp [ht]
  | @shared target i hf hb ht hi hp =>
    have hr : r = (.bound (.ok ()), t.withName name i, s) := hp
    have hnot : ¬ t.Refuses op name := not_refuses hf (by simpa [ht] using contains_of_lookup hi)
    rw [hr]
    refine ⟨.ok (), rfl, ⟨nofun, fun h => absurd h hnot⟩, nofun, fun _ => ⟨rfl, keys_withNames t [name] i, ?_, ?_, ?_⟩⟩
    · exact fun other ho => ⟨lookup_withName_of_ne ho i, find?_withName_of_ne ho i⟩
    · simp [hb]
    · rintro target' ht'
      cases ht.symm.trans ht'
      rw [lookup_withName hf, hi]

/-- A name cannot be made an alias of itself, as it is bound. -/
theorem bound_or_unchanged_itself :
    let ops : List (Operation UInt64) := [.attach "add" Catalogue.add false]
    let t := ((empty : Table UInt64).run 0 ops).2.1
    ofRegistry ([] : List (Entry UInt64)) = .ok empty ∧ t.contains "add" = true ∧
      ∃ e, t.perform 0 (.addAlias "add" "add") = (.bound (.error e), t, 0) ∧ e.kind = .functionBind := by
  intro ops t
  have h₀ : ofRegistry ([] : List (Entry UInt64)) = .ok empty := ofRegistry_nil
  have hn : (Operation.addAlias "add" "add" : Operation UInt64).newName? = some "add" := rfl
  obtain ⟨o, ho, hiff, he, -⟩ := bound_or_unchanged h₀ 0 0 ops hn
  obtain ⟨e, rfl⟩ := hiff.2 (.inr (.inl rfl))
  exact ⟨h₀, rfl, e, Prod.ext ho (he e rfl).2, (he e rfl).1⟩

end Table

end NamedDispatch
