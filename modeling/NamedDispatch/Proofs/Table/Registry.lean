/-
Tables made from a registry. Names are bound one after the other, and all of them are if and only if they are
distinct and none is blank; then each entry has one binding, under its own name and its aliases. Entries are
sorted by their names before, so that the table does not depend on the order in which they were given.
-/
import NamedDispatch.Proofs.Table.Later
import NamedDispatch.Proofs.Text.Order
import NamedDispatch.Remote.Catalogue

namespace NamedDispatch

variable {σ : Type}

/-! ## Entries -/

namespace Entry

/-- The names of an entry: its own, and its aliases. -/
def names (e : Entry σ) : List String := e.name :: e.aliases

/-- The binding of an entry, under all its names. -/
def binding (e : Entry σ) : Binding σ := .ofHandler e.name e.arity e.cached e.handler

theorem sorted_perm (entries : List (Entry σ)) : (sorted entries).Perm entries := List.mergeSort_perm ..

theorem own_nodup {entries : List (Entry σ)} (h : (entries.flatMap names).Nodup) : (entries.map name).Nodup := by
  refine List.pairwise_map.2 ((List.nodup_flatMap.1 h).2.imp fun {e e'} hd (hn : e.name = e'.name) => ?_)
  exact hd (List.mem_cons_self ..) (List.mem_cons.2 (.inl hn))

/-- Of entries of different names, one order only is sorted. -/
theorem sorted_eq_of_perm {entries entries' : List (Entry σ)} (hp : entries'.Perm entries)
    (h : (entries.flatMap names).Nodup) : sorted entries' = sorted entries :=
  Text.mergeSort_eq_of_perm name hp ((hp.map name).nodup_iff.2 (own_nodup h))

end Entry

namespace Table

variable {t : Table σ} {names : List String} {i : Nat}

/-! ## Names that can be bound -/

/-- Names that can all be bound. -/
structure Legal (names : List String) : Prop where
  distinct : names.Nodup
  visible : ∀ name ∈ names, Text.isBlankText name = false

namespace Legal

variable {more : List String}

theorem perm (h : Legal names) (hp : names.Perm more) : Legal more :=
  ⟨hp.nodup_iff.1 h.distinct, fun name hm => h.visible name (hp.mem_iff.2 hm)⟩

theorem left (h : Legal (names ++ more)) : Legal names :=
  ⟨(List.nodup_append'.1 h.distinct).1, fun name hm => h.visible name (List.mem_append_left _ hm)⟩

theorem iff_visible : Legal names ↔
    names.Nodup ∧ ∀ name ∈ names, ∃ c ∈ name.toList, Text.isBlank c = false := by
  simp only [← Text.isBlankText_eq_false_iff]
  exact ⟨fun h => ⟨h.distinct, h.visible⟩, fun h => ⟨h.1, h.2⟩⟩

end Legal

/-! ## Binding names in turn -/

theorem inTurn_append (t : Table σ) (steps more : List (Table σ → Except DispatchFault Unit × Table σ)) :
    t.inTurn (steps ++ more) =
      match t.inTurn steps with
      | (.ok (), t) => t.inTurn more
      | (.error e, t) => (.error e, t) := by
  induction steps generalizing t with
  | nil => rfl
  | cons step steps ih =>
    rw [List.cons_append, inTurn, inTurn]
    rcases step t with ⟨⟨⟩ | ⟨⟨⟩⟩, t'⟩
    · rfl
    · exact ih t'

/-- More names can be bound if they are free and distinct. -/
theorem legal_append_iff (h : Legal t.keys) :
    Legal (t.keys ++ names) ↔ (∀ name ∈ names, t.Free name) ∧ names.Nodup := by
  constructor
  · intro hl
    obtain ⟨-, hd, hdisj⟩ := List.nodup_append'.1 hl.distinct
    refine ⟨fun name hm => ⟨hl.visible name (List.mem_append_right _ hm), ?_⟩, hd⟩
    rw [← Bool.not_eq_true, contains_iff]
    exact fun hk => hdisj hk hm
  · rintro ⟨hf, hd⟩
    exact ⟨List.nodup_append'.2 ⟨h.distinct, hd, fun name hk hm => (hf name hm).not_mem_keys hk⟩,
      List.forall_mem_append.2 ⟨h.visible, fun name hm => (hf name hm).visible⟩⟩

theorem free_iff (h : Legal t.keys) {name : String} : t.Free name ↔ Legal (t.keys ++ [name]) := by
  rw [legal_append_iff h, List.forall_mem_singleton]
  exact ⟨fun hf => ⟨hf, List.nodup_singleton name⟩, And.left⟩

/-- Names are all bound if together with those there they can be, and else there is a fault. -/
theorem addNames_cases (h : Legal t.keys) (i : Nat) (names : List String) :
    (Legal (t.keys ++ names) ∧ t.addNames i names = (.ok (), t.withNames names i)) ∨
    (¬ Legal (t.keys ++ names) ∧ ∃ e t', t.addNames i names = (.error e, t')) := by
  obtain ⟨added, rest, hp, ha⟩ := addNames_parted i names t
  rw [legal_append_iff h, ← hp.rest_eq_nil_iff, ha]
  cases rest with
  | nil =>
    have hn : names = added := hp.parts.trans (List.append_nil added)
    exact .inl ⟨rfl, by rw [hn]; rfl⟩
  | cons name rest => exact .inr ⟨List.cons_ne_nil name rest, _, _, rfl⟩

/-- Aliases of a bound name are names added to its binding. -/
theorem inTurn_addAlias {target : String} (ht : t.names.lookup target = some i) (names : List String) :
    t.inTurn (names.map fun name t => t.addAlias name target) = t.addNames i names := by
  induction names generalizing t with
  | nil => rfl
  | cons name names ih =>
    rw [List.map_cons, inTurn, addNames, addAlias, ht]
    dsimp only
    rcases addName_cases t name i with ⟨_, ha⟩ | ⟨e, ha⟩ <;> rw [ha]
    exact ih (lookup_mono (List.prefix_append ..) ht)

/-! ## Binding entries in turn -/

/-- The table with one more entry. -/
def withEntry (t : Table σ) (e : Entry σ) : Table σ :=
  { t.withNames e.names t.bindings.length with bindings := t.bindings ++ [e.binding] }

/-- The table with more entries, one after the other. -/
def withEntries (t : Table σ) (entries : List (Entry σ)) : Table σ := entries.foldl withEntry t

theorem keys_withEntry (t : Table σ) (e : Entry σ) : (t.withEntry e).keys = t.keys ++ e.names :=
  keys_withNames t e.names t.bindings.length

theorem keys_withEntries (t : Table σ) (entries : List (Entry σ)) :
    (t.withEntries entries).keys = t.keys ++ entries.flatMap Entry.names := by
  induction entries generalizing t with
  | nil => exact (List.append_nil _).symm
  | cons e entries ih => rw [withEntries, List.foldl_cons, ← withEntries, ih, keys_withEntry, List.flatMap_cons,
      List.append_assoc]

theorem steps_cases (h : Legal t.keys) (e : Entry σ) :
    (Legal (t.keys ++ e.names) ∧ t.inTurn e.steps = (.ok (), t.withEntry e)) ∨
    (¬ Legal (t.keys ++ e.names) ∧ ∃ fault t', t.inTurn e.steps = (.error fault, t')) := by
  have hs : t.inTurn e.steps = match t.bind e.name e.binding with
    | (.ok (), t) => t.inTurn (e.aliases.map fun name t => t.addAlias name e.name)
    | (.error fault, t) => (.error fault, t) := rfl
  have hn : t.keys ++ e.names = t.keys ++ [e.name] ++ e.aliases := by rw [List.append_assoc]; rfl
  rw [hs, hn]
  rcases t.bind_cases e.name e.binding with ⟨hf, ha⟩ | ⟨hf, ha⟩
  · rw [ha]
    have hl : Legal (t.keys ++ [e.name]) := (free_iff h).1 hf
    -- the table with the entry's own name, to which the aliases are added
    let t₁ : Table σ := { t.withName e.name t.bindings.length with bindings := t.bindings ++ [e.binding] }
    have hk : t₁.keys = t.keys ++ [e.name] := keys_withNames t [e.name] _
    have ht : t₁.names.lookup e.name = some t.bindings.length := lookup_withName hf _
    have he : t₁.withNames e.aliases t.bindings.length = t.withEntry e := by
      simp [t₁, withNames, withName, withEntry, Entry.names]
    have hc := addNames_cases (hk ▸ hl) t.bindings.length e.aliases
    rw [hk, he, ← inTurn_addAlias ht] at hc
    exact hc
  · rw [ha]
    exact .inr ⟨fun hl => hf ((free_iff h).2 hl.left), _, t, rfl⟩

/-- Entries are all bound if their names together with those there can be, and else there is a fault. -/
theorem inTurn_steps_cases (h : Legal t.keys) (entries : List (Entry σ)) :
    (Legal (t.keys ++ entries.flatMap Entry.names) ∧
      t.inTurn (entries.flatMap Entry.steps) = (.ok (), t.withEntries entries)) ∨
    (¬ Legal (t.keys ++ entries.flatMap Entry.names) ∧
      ∃ fault t', t.inTurn (entries.flatMap Entry.steps) = (.error fault, t')) := by
  induction entries generalizing t with
  | nil => exact .inl ⟨by rwa [List.flatMap_nil, List.append_nil], rfl⟩
  | cons e entries ih =>
    rw [List.flatMap_cons, List.flatMap_cons, inTurn_append, ← List.append_assoc]
    rcases steps_cases h e with ⟨hl, hs⟩ | ⟨hl, fault, t', hs⟩
    · rw [hs, ← keys_withEntry]
      exact ih (keys_withEntry t e ▸ hl)
    · rw [hs]
      exact .inr ⟨fun hl' => hl hl'.left, fault, t', rfl⟩

theorem ofRegistry_cases (entries : List (Entry σ)) :
    (Legal (entries.flatMap Entry.names) ∧
      ofRegistry entries = .ok ((empty : Table σ).withEntries (Entry.sorted entries))) ∨
    (¬ Legal (entries.flatMap Entry.names) ∧ ∃ fault, ofRegistry entries = .error fault) := by
  have hp : ((Entry.sorted entries).flatMap Entry.names).Perm (entries.flatMap Entry.names) :=
    (Entry.sorted_perm entries).flatMap_right _
  rw [ofRegistry]
  rcases inTurn_steps_cases (t := (empty : Table σ)) ⟨List.nodup_nil, nofun⟩ (Entry.sorted entries) with
    ⟨hl, hs⟩ | ⟨hl, fault, t', hs⟩ <;> rw [hs]
  · exact .inl ⟨hl.perm hp, rfl⟩
  · exact .inr ⟨fun h => hl (h.perm hp.symm), fault, rfl⟩

/-! ## What a registry's table binds -/

theorem Legal.named (h : Legal (t.keys ++ names)) (i : Nat) : Named i t (t.withNames names i) := by
  obtain ⟨hf, hd⟩ := (legal_append_iff h.left).1 h
  exact named_withNames hf hd i

theorem Legal.grown {entries : List (Entry σ)} (h : Legal (t.keys ++ entries.flatMap Entry.names)) :
    Grown t (t.withEntries entries) (entries.map Entry.binding) := by
  induction entries generalizing t with
  | nil => exact .refl t
  | cons e entries ih =>
    rw [List.flatMap_cons, ← List.append_assoc] at h
    have hg : Grown t (t.withEntry e) [e.binding] := (h.left.named _).grown (by simp)
    exact hg.trans (ih (keys_withEntry t e ▸ h))

/-- An entry among those bound has a binding, which all its names reach. -/
theorem entry_bound {entries : List (Entry σ)} (h : Legal (t.keys ++ entries.flatMap Entry.names)) {e : Entry σ}
    (he : e ∈ entries) : ∃ i, (t.withEntries entries).bindings[i]? = some e.binding ∧
      ∀ name ∈ e.names, (t.withEntries entries).names.lookup name = some i := by
  induction entries generalizing t with
  | nil => cases he
  | cons first entries ih =>
    have hb := h.grown.bindings
    rw [List.flatMap_cons, ← List.append_assoc] at h
    have hr : Legal ((t.withEntry first).keys ++ entries.flatMap Entry.names) := keys_withEntry t first ▸ h
    rcases List.mem_cons.1 he with rfl | he
    · refine ⟨t.bindings.length, ?_, fun name hm => hr.grown.continues.lookup ?_⟩
      · rw [hb]
        simp
      · exact lookup_withNames (fun hk => (List.nodup_append'.1 h.left.distinct).2.2 hk hm) hm _
    · exact ih hr he

/-- Without entries there are no names. -/
theorem ofRegistry_nil : ofRegistry [] = .ok (empty : Table σ) := by
  rw [ofRegistry, Entry.sorted, List.mergeSort_nil]
  rfl

/-- What a registry's table is. -/
theorem ofRegistry_eq {entries : List (Entry σ)} (h : ofRegistry entries = .ok t) :
    Legal ((empty : Table σ).keys ++ (Entry.sorted entries).flatMap Entry.names) ∧
      t = (empty : Table σ).withEntries (Entry.sorted entries) := by
  rcases ofRegistry_cases entries with ⟨hl, ho⟩ | ⟨_, fault, ho⟩ <;> cases h.symm.trans ho
  exact ⟨hl.perm ((Entry.sorted_perm entries).flatMap_right _).symm, rfl⟩

/-- An entry of a registry has a binding in its table, which all its names reach. -/
theorem ofRegistry_bound {entries : List (Entry σ)} (h : ofRegistry entries = .ok t) {e : Entry σ}
    (he : e ∈ entries) : ∃ i, t.bindings[i]? = some e.binding ∧ ∀ name ∈ e.names, t.names.lookup name = some i := by
  obtain ⟨hl, rfl⟩ := ofRegistry_eq h
  exact entry_bound hl ((Entry.sorted_perm entries).mem_iff.2 he)

theorem ofRegistry_wellFormed {entries : List (Entry σ)} (h : ofRegistry entries = .ok t) : t.WellFormed := by
  obtain ⟨hl, rfl⟩ := ofRegistry_eq h
  exact hl.grown.wellFormed wellFormed_empty

theorem describeName_entry {e : Entry σ} {name : String} (hb : t.bindings[i]? = some e.binding)
    (hn : t.names.lookup name = some i) : t.describeName name = some ⟨name, e.name, e.arity, e.cached⟩ := by
  have hc : e.binding.isCached = e.cached := by
    rw [Entry.binding, Binding.ofHandler, Binding.isCached, Binding.freshCache]
    cases e.cached <;> rfl
  rw [describeName, find?_of_position hn hb, Option.map_some, hc]
  rfl

/-- A registry makes a table by `ofRegistry` if and only if its names, aliases included, are distinct and each
has a character that is not blank. The table is then the same for every order of the entries. It binds these
names and no others, those of an entry all to one binding, which has the entry's arity, caching and handler and
tells its own name as the target. -/
theorem ofRegistry_perm {entries entries' : List (Entry σ)} (hp : entries'.Perm entries) :
    ((∃ t, ofRegistry entries' = .ok t) ↔ (entries.flatMap Entry.names).Nodup ∧
      ∀ name ∈ entries.flatMap Entry.names, ∃ c ∈ name.toList, Text.isBlank c = false) ∧
    ∀ t, ofRegistry entries' = .ok t → ofRegistry entries = .ok t ∧
      (∀ name, t.contains name = true ↔ name ∈ entries.flatMap Entry.names) ∧
      ∀ e ∈ entries, ∃ i, t.bindings[i]? = some (.ofHandler e.name e.arity e.cached e.handler) ∧
        ∀ name ∈ e.name :: e.aliases, t.names.lookup name = some i ∧
          t.describeName name = some ⟨name, e.name, e.arity, e.cached⟩ := by
  have hn : (entries'.flatMap Entry.names).Perm (entries.flatMap Entry.names) := hp.flatMap_right _
  refine ⟨?_, fun t ht => ?_⟩
  · rw [← Legal.iff_visible]
    rcases ofRegistry_cases entries' with ⟨hl, ho⟩ | ⟨hl, fault, ho⟩ <;> rw [ho]
    · exact ⟨fun _ => hl.perm hn, fun _ => ⟨_, rfl⟩⟩
    · exact ⟨nofun, fun h => absurd (h.perm hn.symm) hl⟩
  · have hs : (Entry.sorted entries').Perm entries := (Entry.sorted_perm entries').trans hp
    obtain ⟨hl, rfl⟩ := ofRegistry_eq ht
    have hl' : Legal (entries.flatMap Entry.names) := hl.perm (hs.flatMap_right _)
    refine ⟨?_, fun name => ?_, fun e he => ?_⟩
    · rcases ofRegistry_cases entries with ⟨_, ho⟩ | ⟨hn, _⟩
      · rw [ho, Entry.sorted_eq_of_perm hp hl'.distinct]
      · exact absurd hl' hn
    · rw [contains_iff, ← keys, keys_withEntries, ← (hs.flatMap_right _).mem_iff]
      rfl
    · obtain ⟨i, hb, hi⟩ := entry_bound hl (hs.mem_iff.2 he)
      exact ⟨i, hb, fun name hm => ⟨hi name hm, describeName_entry hb (hi name hm)⟩⟩

/-- The catalogue's registry makes a table, in the opposite order too. -/
theorem ofRegistry_perm_catalogue : Catalogue.registry.reverse.Perm Catalogue.registry ∧
    ∃ t, ofRegistry Catalogue.registry.reverse = .ok t ∧ ofRegistry Catalogue.registry = .ok t ∧
      t.describeName "Sum" = some ⟨"Sum", "reg_add", 2, false⟩ := by
  have hp : Catalogue.registry.reverse.Perm Catalogue.registry := List.reverse_perm _
  obtain ⟨hmade, hsame⟩ := ofRegistry_perm hp
  have hl : Legal (Catalogue.registry.flatMap Entry.names) := ⟨by decide, by decide⟩
  obtain ⟨t, ht⟩ := hmade.2 (Legal.iff_visible.1 hl)
  obtain ⟨he, _, hb⟩ := hsame t ht
  obtain ⟨i, _, hi⟩ := hb (.ofFunction "reg_add" Catalogue.add false ["Plus", "Sum"]) (by simp [Catalogue.registry])
  exact ⟨hp, t, ht, he, (hi "Sum" (by simp [Entry.ofFunction])).2⟩

end Table

end NamedDispatch
