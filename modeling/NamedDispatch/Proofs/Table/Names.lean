/-
What binding does to the names of a table. A name that is not blank and not taken is added, with the
position of its binding; any other name is refused and leaves the table as it is. So a table only grows:
its names keep their bindings, and no name is bound twice.
-/
import Mathlib.Data.List.Nodup
import NamedDispatch.Remote.Table

namespace NamedDispatch

theorem Text.isBlankText_eq_false_iff {s : String} :
    isBlankText s = false ↔ ∃ c ∈ s.toList, isBlank c = false := by
  simp [isBlankText, List.all_eq_false]

theorem isSome_lookup_iff {α : Type} {entries : List (String × α)} {name : String} :
    (entries.lookup name).isSome = true ↔ name ∈ entries.map Prod.fst := by
  rw [List.lookup_isSome_iff, List.mem_map]
  exact ⟨fun ⟨p, hp, h⟩ => ⟨p, hp, (beq_iff_eq.1 h).symm⟩, fun ⟨p, hp, h⟩ => ⟨p, hp, beq_iff_eq.2 h.symm⟩⟩

/-- Why a name is refused that is blank or taken. -/
def DispatchFault.refused (name : String) : DispatchFault :=
  if Text.isBlankText name then .blankName name else .takenName name

theorem DispatchFault.kind_refused (name : String) : (refused name).kind = .functionBind := by
  rw [refused]
  split <;> rfl

namespace Table

variable {σ : Type} {t t' : Table σ} {name : String} {i : Nat}

/-! ## Finding -/

theorem contains_iff : t.contains name = true ↔ name ∈ t.names.map Prod.fst := isSome_lookup_iff

theorem contains_of_lookup (h : t.names.lookup name = some i) : t.contains name = true :=
  Option.isSome_iff_exists.2 ⟨i, h⟩

/-- A name stays where it is bound when names are added. -/
theorem lookup_mono (hp : t.names <+: t'.names) (h : t.names.lookup name = some i) :
    t'.names.lookup name = some i := by
  obtain ⟨added, ha⟩ := hp
  rw [← ha, List.lookup_append, h, Option.some_or]

theorem find?_eq_some_iff {b : Binding σ} :
    t.find? name = some b ↔ ∃ i, t.names.lookup name = some i ∧ t.bindings[i]? = some b := Option.bind_eq_some_iff

theorem find?_of_position {b : Binding σ} (hn : t.names.lookup name = some i) (hb : t.bindings[i]? = some b) :
    t.find? name = some b := find?_eq_some_iff.2 ⟨i, hn, hb⟩

/-! ## Well-formed tables -/

/-- No name is bound twice, none is blank, and every name has a binding. -/
structure WellFormed (t : Table σ) : Prop where
  distinct : (t.names.map Prod.fst).Nodup
  visible : ∀ p ∈ t.names, Text.isBlankText p.1 = false
  below : ∀ p ∈ t.names, p.2 < t.bindings.length

theorem wellFormed_empty : (empty : Table σ).WellFormed := ⟨List.nodup_nil, nofun, nofun⟩

theorem WellFormed.position_lt (hw : t.WellFormed) (hn : t.names.lookup name = some i) : i < t.bindings.length := by
  obtain ⟨before, after, hs, _⟩ := List.lookup_eq_some_iff.1 hn
  exact hw.below (name, i) (hs ▸ List.mem_append_right _ (List.mem_cons_self ..))

theorem WellFormed.bound (hw : t.WellFormed) (hn : t.names.lookup name = some i) : ∃ b, t.bindings[i]? = some b :=
  ⟨_, List.getElem?_eq_getElem (hw.position_lt hn)⟩

theorem WellFormed.contains_iff_find? (hw : t.WellFormed) :
    t.contains name = true ↔ (t.find? name).isSome = true := by
  rw [contains, find?]
  cases hn : t.names.lookup name with
  | none => simp
  | some i => simp [List.getElem?_eq_getElem (hw.position_lt hn)]

/-! ## Adding a name -/

/-- What a name must be to be bound. -/
structure Free (t : Table σ) (name : String) : Prop where
  visible : Text.isBlankText name = false
  unbound : t.contains name = false

/-- The table with one more name, of the binding at a position. -/
def withName (t : Table σ) (name : String) (i : Nat) : Table σ := { t with names := t.names ++ [(name, i)] }

/-- A name bound to a further binding finds it, unless the name was bound before. -/
theorem WellFormed.find?_withName (hw : t.WellFormed) (b : Binding σ) (name name' : String) :
    find? { t.withName name t.bindings.length with bindings := t.bindings ++ [b] } name' =
      (t.find? name').or (if name == name' then some b else none) := by
  rw [find?, withName, List.lookup_append, find?]
  cases hn : t.names.lookup name' with
  | some i =>
    rw [Option.some_or, Option.bind_some, Option.bind_some, List.getElem?_append_left (hw.position_lt hn),
      List.getElem?_eq_getElem (hw.position_lt hn), Option.some_or]
  | none =>
    by_cases he : name = name'
    · subst he
      simp
    · simp [List.lookup_cons, beq_false_of_ne he, beq_false_of_ne (Ne.symm he)]

theorem not_free_iff : ¬ t.Free name ↔ Text.isBlankText name = true ∨ t.contains name = true := by
  constructor
  · intro h
    cases hb : Text.isBlankText name with
    | true => exact .inl rfl
    | false => exact .inr (Bool.not_eq_false _ ▸ fun hc => h ⟨hb, hc⟩)
  · rintro (hb | hc) h
    · exact absurd hb (by simp [h.visible])
    · exact absurd hc (by simp [h.unbound])

theorem free_withName {other : String} : (t.withName name i).Free other ↔ t.Free other ∧ other ≠ name := by
  have hc : (t.withName name i).contains other = false ↔ t.contains other = false ∧ other ≠ name := by
    rw [← Bool.not_eq_true, contains_iff, ← Bool.not_eq_true (t.contains other), contains_iff, withName]
    simp [not_or]
  exact ⟨fun h => ⟨⟨h.visible, (hc.1 h.unbound).1⟩, (hc.1 h.unbound).2⟩,
    fun h => ⟨h.1.visible, hc.2 ⟨h.1.unbound, h.2⟩⟩⟩

theorem addName_of_free (h : t.Free name) (i : Nat) : t.addName name i = .ok (t.withName name i) := by
  have hc : t.checkName name = .ok () := by rw [checkName, h.visible, h.unbound]; rfl
  rw [addName, hc]
  rfl

theorem addName_refused (h : ¬ t.Free name) (i : Nat) : t.addName name i = .error (.refused name) := by
  have hc : t.checkName name = .error (.refused name) := by
    rw [checkName, DispatchFault.refused]
    cases hb : Text.isBlankText name with
    | true => rfl
    | false =>
      rw [(not_free_iff.1 h).resolve_left (by simp [hb])]
      rfl
  rw [addName, hc]
  rfl

theorem addName_of_taken (hb : Text.isBlankText name = false) (hc : t.contains name = true) (i : Nat) :
    t.addName name i = .error (.takenName name) := by
  rw [addName_refused (not_free_iff.2 (.inr hc)), DispatchFault.refused, hb]
  rfl

/-- A name is added if it is free, and else it is refused. -/
theorem addName_cases (t : Table σ) (name : String) (i : Nat) :
    (t.Free name ∧ t.addName name i = .ok (t.withName name i)) ∨
    (¬ t.Free name ∧ t.addName name i = .error (.refused name)) := by
  by_cases hf : t.Free name
  · exact .inl ⟨hf, addName_of_free hf i⟩
  · exact .inr ⟨hf, addName_refused hf i⟩

theorem bind_cases (t : Table σ) (name : String) (b : Binding σ) :
    (t.Free name ∧ t.bind name b =
      (.ok (), { t.withName name t.bindings.length with bindings := t.bindings ++ [b] })) ∨
    (¬ t.Free name ∧ t.bind name b = (.error (.refused name), t)) := by
  rw [bind]
  rcases addName_cases t name t.bindings.length with ⟨hf, h⟩ | ⟨hf, h⟩ <;> rw [h]
  · exact .inl ⟨hf, rfl⟩
  · exact .inr ⟨hf, rfl⟩

/-- An alias is a name added at the position of its target, or it is refused and nothing changes. -/
theorem addAlias_cases (t : Table σ) (name target : String) :
    (t.Free name ∧ ∃ i, t.names.lookup target = some i ∧ t.addAlias name target = (.ok (), t.withName name i)) ∨
    ((¬ t.Free name ∨ t.contains target = false) ∧
      ∃ e, e.kind = .functionBind ∧ t.addAlias name target = (.error e, t)) := by
  rw [addAlias, contains]
  cases t.names.lookup target with
  | none => exact .inr ⟨.inr rfl, _, rfl, rfl⟩
  | some i =>
    dsimp only
    rcases addName_cases t name i with ⟨hf, h⟩ | ⟨hf, h⟩ <;> rw [h]
    · exact .inl ⟨hf, i, rfl, rfl⟩
    · exact .inr ⟨.inl hf, _, DispatchFault.kind_refused name, rfl⟩

theorem addAlias_ok {target : String} (h : (t.addAlias name target).1 = .ok ()) :
    t.Free name ∧ ∃ i, t.names.lookup target = some i ∧ t.addAlias name target = (.ok (), t.withName name i) := by
  rcases t.addAlias_cases name target with hok | ⟨_, e, _, he⟩
  · exact hok
  · rw [he] at h
    cases h

/-! ## Adding several names -/

/-- The names of a table, in the order in which they were bound. -/
def keys (t : Table σ) : List String := t.names.map Prod.fst

/-- The table with more names, all of the binding at a position. -/
def withNames (t : Table σ) (names : List String) (i : Nat) : Table σ :=
  { t with names := t.names ++ names.map fun name => (name, i) }

theorem keys_withNames (t : Table σ) (names : List String) (i : Nat) :
    (t.withNames names i).keys = t.keys ++ names := by
  simp [keys, withNames, Function.comp_def]

theorem Free.not_mem_keys (h : t.Free name) : name ∉ t.keys := by
  rw [keys, ← contains_iff, h.unbound]
  exact Bool.false_ne_true

theorem lookup_withNames {names : List String} (hk : name ∉ t.keys) (hm : name ∈ names) (i : Nat) :
    (t.withNames names i).names.lookup name = some i := by
  have hn : t.names.lookup name = none := by
    rw [← Option.not_isSome_iff_eq_none, isSome_lookup_iff]
    exact hk
  rw [withNames, List.lookup_append, hn, Option.none_or]
  clear hk hn
  induction names with
  | nil => cases hm
  | cons first names ih =>
    rw [List.map_cons, List.lookup_cons]
    by_cases he : name = first
    · rw [beq_iff_eq.2 he]
    · rw [beq_false_of_ne he]
      exact ih ((List.mem_cons.1 hm).resolve_left he)

theorem lookup_withName (h : t.Free name) (i : Nat) : (t.withName name i).names.lookup name = some i :=
  lookup_withNames h.not_mem_keys (List.mem_singleton_self name) i

/-- Names, parted at the first that cannot be bound after those before it: it is not free, or it is one of those. -/
structure Parted (t : Table σ) (names added rest : List String) : Prop where
  parts : names = added ++ rest
  free : ∀ name ∈ added, t.Free name
  distinct : added.Nodup
  stops : ∀ name ∈ rest.head?, ¬ t.Free name ∨ name ∈ added

namespace Parted

variable {names added rest : List String}

theorem nil (t : Table σ) : t.Parted [] [] [] := ⟨rfl, nofun, List.nodup_nil, nofun⟩

theorem here (h : ¬ t.Free name) : t.Parted (name :: names) [] (name :: names) := by
  refine ⟨rfl, nofun, List.nodup_nil, fun other ho => ?_⟩
  cases ho
  exact .inl h

theorem further (hf : t.Free name) (h : (t.withName name i).Parted names added rest) :
    t.Parted (name :: names) (name :: added) rest := by
  refine ⟨congrArg (List.cons name) h.parts, List.forall_mem_cons.2 ⟨hf, fun other hm => ?_⟩,
    List.nodup_cons.2 ⟨fun hm => (free_withName.1 (h.free name hm)).2 rfl, h.distinct⟩, fun other ho => ?_⟩
  · exact (free_withName.1 (h.free other hm)).1
  · rw [List.mem_cons]
    rcases h.stops other ho with hn | hm
    · rw [free_withName, not_and_not_right] at hn
      by_cases hother : t.Free other
      · exact .inr (.inl (hn hother))
      · exact .inl hother
    · exact .inr (.inr hm)

theorem rest_eq_nil_iff (h : t.Parted names added rest) : rest = [] ↔ (∀ name ∈ names, t.Free name) ∧ names.Nodup := by
  constructor
  · rintro rfl
    rw [h.parts, List.append_nil]
    exact ⟨h.free, h.distinct⟩
  · rintro ⟨hf, hd⟩
    rw [h.parts] at hf hd
    refine List.head?_eq_none_iff.1 (Option.eq_none_iff_forall_not_mem.2 fun name hn => ?_)
    have hm : name ∈ rest := List.mem_of_mem_head? hn
    rcases h.stops name hn with hn | ha
    · exact hn (hf name (List.mem_append_right _ hm))
    · exact List.disjoint_of_nodup_append hd ha hm

end Parted

/-- What comes of binding names when these are left. -/
def outcomeAt : List String → Except DispatchFault Unit
  | [] => .ok ()
  | name :: _ => .error (.refused name)

theorem outcomeAt_eq_ok_iff {rest : List String} : outcomeAt rest = .ok () ↔ rest = [] := by
  cases rest with
  | nil => exact ⟨fun _ => rfl, fun _ => rfl⟩
  | cons name rest => exact ⟨nofun, nofun⟩

/-- Names are bound up to the first that cannot be. -/
theorem addNames_parted (i : Nat) : ∀ (names : List String) (t : Table σ),
    ∃ added rest, t.Parted names added rest ∧ t.addNames i names = (outcomeAt rest, t.withNames added i)
  | [], t => ⟨[], [], .nil t, by simp [addNames, withNames, outcomeAt]⟩
  | name :: names, t => by
    rw [addNames]
    rcases addName_cases t name i with ⟨hf, h⟩ | ⟨hf, h⟩ <;> rw [h]
    · obtain ⟨added, rest, hp, ha⟩ := addNames_parted i names (t.withName name i)
      dsimp only
      rw [ha]
      exact ⟨name :: added, rest, .further hf hp, by simp [withNames, withName]⟩
    · exact ⟨[], name :: names, .here hf, by simp [outcomeAt, withNames]⟩

/-- Of the names for one function those that are bound get a new binding, unless there are none. -/
theorem attachAliased_parted (t : Table σ) (target : String) (names : List String) (f : RemoteFunction σ)
    (cached : Bool) : ∃ added rest more, t.Parted names added rest ∧
      (added = [] ∧ more = [] ∨ more = [Binding.ofFunction target f cached]) ∧
      t.attachAliased target names f cached =
        (outcomeAt rest, { t.withNames added t.bindings.length with bindings := t.bindings ++ more }) := by
  obtain ⟨added, rest, hp, ha⟩ := addNames_parted t.bindings.length names t
  have hs : (t.withNames added t.bindings.length).size = t.size + added.length := by simp [size, withNames]
  rw [attachAliased, ha]
  dsimp only
  rw [hs]
  cases added with
  | nil => exact ⟨[], rest, [], hp, .inl ⟨rfl, rfl⟩, by simp [withNames]⟩
  | cons name added => exact ⟨name :: added, rest, _, hp, .inr rfl, if_neg (by simp)⟩

/-! ## How a table grows -/

/-- The second table has the names of the first and perhaps more, these all of the binding at a position. -/
structure Named (i : Nat) (t t' : Table σ) : Prop where
  names : ∃ added, t'.names = t.names ++ added ∧ ∀ p ∈ added, p.2 = i
  bindings : t'.bindings = t.bindings
  distinct : (t.names.map Prod.fst).Nodup → (t'.names.map Prod.fst).Nodup
  visible : (∀ p ∈ t.names, Text.isBlankText p.1 = false) → ∀ p ∈ t'.names, Text.isBlankText p.1 = false

theorem named_withNames {names : List String} (hf : ∀ name ∈ names, t.Free name) (hd : names.Nodup) (i : Nat) :
    Named i t (t.withNames names i) := by
  refine ⟨⟨_, rfl, by simp⟩, rfl, fun h => ?_, fun h => ?_⟩
  · rw [← keys, keys_withNames]
    exact List.nodup_append'.2 ⟨h, hd, fun name hk hm => (hf name hm).not_mem_keys hk⟩
  · exact List.forall_mem_append.2 ⟨h, List.forall_mem_map.2 fun name hm => (hf name hm).visible⟩

theorem Free.named (h : t.Free name) (i : Nat) : Named i t (t.withName name i) :=
  named_withNames (List.forall_mem_singleton.2 h) (List.nodup_singleton name) i

/-- The second table has the names of the first and perhaps more, and after the bindings of the first the
given ones. -/
structure Grown (t t' : Table σ) (more : List (Binding σ)) : Prop where
  names : ∃ added, t'.names = t.names ++ added
  bindings : t'.bindings = t.bindings ++ more
  wellFormed : t.WellFormed → t'.WellFormed

theorem Grown.refl (t : Table σ) : Grown t t [] := ⟨⟨[], (List.append_nil _).symm⟩, (List.append_nil _).symm, id⟩

theorem Grown.trans {t'' : Table σ} {more more' : List (Binding σ)} (h : Grown t t' more) (h' : Grown t' t'' more') :
    Grown t t'' (more ++ more') := by
  obtain ⟨added, hn⟩ := h.names
  obtain ⟨added', hn'⟩ := h'.names
  exact ⟨⟨added ++ added', by rw [hn', hn, List.append_assoc]⟩, by rw [h'.bindings, h.bindings, List.append_assoc],
    fun hw => h'.wellFormed (h.wellFormed hw)⟩

/-- Names are added to a binding that the table has, or has with the bindings given. -/
theorem Named.grown {more : List (Binding σ)} (h : Named i t t')
    (hi : t.WellFormed → i < t.bindings.length + more.length) :
    Grown t { t' with bindings := t'.bindings ++ more } more := by
  obtain ⟨added, hn, ha⟩ := h.names
  refine ⟨⟨added, hn⟩, by rw [h.bindings], fun hw => ⟨h.distinct hw.distinct, h.visible hw.visible, fun p hp => ?_⟩⟩
  show p.2 < (t'.bindings ++ more).length
  rw [h.bindings, List.length_append]
  rcases List.mem_append.1 (hn ▸ hp) with hp | hp
  · exact Nat.lt_add_right _ (hw.below p hp)
  · rw [ha p hp]
    exact hi hw

theorem bind_grown (t : Table σ) (name : String) (b : Binding σ) :
    ∃ more, (∀ b' ∈ more, b' = b) ∧ Grown t (t.bind name b).2 more := by
  rcases t.bind_cases name b with ⟨hf, h⟩ | ⟨hf, h⟩ <;> rw [h]
  · exact ⟨[b], by simp, (hf.named _).grown (by simp)⟩
  · exact ⟨[], nofun, .refl t⟩

theorem attachAliased_grown (t : Table σ) (target : String) (names : List String) (f : RemoteFunction σ)
    (cached : Bool) : ∃ more, (∀ b ∈ more, b = Binding.ofFunction target f cached) ∧
      Grown t (t.attachAliased target names f cached).2 more := by
  obtain ⟨added, rest, more, hp, hm, h⟩ := t.attachAliased_parted target names f cached
  rw [h]
  rcases hm with ⟨rfl, rfl⟩ | rfl
  · refine ⟨[], nofun, ?_⟩
    rw [List.append_nil, withNames, List.map_nil, List.append_nil]
    exact .refl t
  · exact ⟨[_], by simp, (named_withNames hp.free hp.distinct _).grown (by simp)⟩

theorem addAlias_grown (t : Table σ) (name target : String) : Grown t (t.addAlias name target).2 [] := by
  rcases t.addAlias_cases name target with ⟨hf, i, hn, h⟩ | ⟨_, e, _, h⟩ <;> rw [h]
  · have hg : Grown t { t.withName name i with bindings := t.bindings ++ [] } [] :=
      (hf.named i).grown fun hw => hw.position_lt hn
    rwa [List.append_nil] at hg
  · exact .refl t

end Table

end NamedDispatch
