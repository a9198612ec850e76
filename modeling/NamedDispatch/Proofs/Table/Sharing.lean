/-
Names of one binding. A registry's entry binds its names together, an alias is bound together with the name it
is made for, and so are the names that one attachment binds; nothing else makes two names share a binding.
Names bound together cannot be told apart by calls, however the table is used afterwards.
-/
import NamedDispatch.Proofs.Table.Registry
import NamedDispatch.Proofs.Table.Trace

namespace NamedDispatch.Table

variable {σ : Type} {t t' : Table σ} {name a b : String} {i j : Nat}

/-! ## Names that become bound -/

/-- The name is bound in the second table and not yet in the first. -/
structure Binds (t t' : Table σ) (name : String) : Prop where
  before : t.contains name = false
  after : t'.contains name = true

section

variable {added : List (String × Nat)} (hn : t'.names = t.names ++ added) (hi : ∀ p ∈ added, p.2 = i)

include hn hi

/-- A name is where it was, or it is new and where names were added. -/
theorem lookup_added_cases (h : t'.names.lookup name = some j) : t.names.lookup name = some j ∨
    j = i ∧ Binds t t' name ∧ name ∈ added.map Prod.fst := by
  cases ho : t.names.lookup name with
  | some k =>
    rw [hn, List.lookup_append, ho, Option.some_or] at h
    exact .inl h
  | none =>
    have hb : Binds t t' name := ⟨by rw [contains, ho]; rfl, contains_of_lookup h⟩
    rw [hn, List.lookup_append, ho, Option.none_or] at h
    obtain ⟨before, after, he, _⟩ := List.lookup_eq_some_iff.1 h
    have hm : (name, j) ∈ added := he ▸ List.mem_append_right _ (List.mem_cons_self ..)
    exact .inr ⟨hi _ hm, hb, List.mem_map_of_mem hm⟩

theorem Binds.lookup (hb : Binds t t' name) : t'.names.lookup name = some i := by
  obtain ⟨j, hj⟩ := Option.isSome_iff_exists.1 hb.after
  rcases lookup_added_cases hn hi hj with ho | ⟨rfl, _⟩
  · exact absurd (contains_of_lookup ho) (by simp [hb.before])
  · exact hj

end

/-- An attachment adds names at the position of its binding. -/
theorem attachAliased_added (t : Table σ) (target : String) (names : List String) (f : RemoteFunction σ)
    (cached : Bool) : ∃ added, (t.attachAliased target names f cached).2.names = t.names ++ added ∧
      ∀ p ∈ added, p.2 = t.bindings.length := by
  obtain ⟨added, rest, more, _, _, h⟩ := t.attachAliased_parted target names f cached
  rw [h]
  exact ⟨_, rfl, by simp⟩

theorem bind_added (t : Table σ) (name : String) (b : Binding σ) : (t.bind name b).2.names = t.names ∨
    (t.bind name b).2.names = t.names ++ [(name, t.bindings.length)] := by
  rcases t.bind_cases name b with ⟨_, h⟩ | ⟨_, h⟩ <;> rw [h]
  · exact .inr rfl
  · exact .inl rfl

/-! ## Names bound together -/

section

variable (entries : List (Entry σ)) (t₀ : Table σ) (s : σ)

/-- Two names share a binding, by how they came to be bound in a run from the table of a registry's entries. -/
inductive Together : List (Operation σ) → String → String → Prop
  | registered {e : Entry σ} {a b : String} : e ∈ entries → a ∈ e.names → b ∈ e.names → Together [] a b
  | aliased {ops : List (Operation σ)} {name target : String} :
    ((t₀.run s ops).2.1.addAlias name target).1 = .ok () → Together (ops ++ [.addAlias name target]) name target
  | attached {ops : List (Operation σ)} {target : String} {names : List String} {f : RemoteFunction σ}
    {cached : Bool} {a b : String} :
    Binds (t₀.run s ops).2.1 ((t₀.run s ops).2.1.attachAliased target names f cached).2 a →
    Binds (t₀.run s ops).2.1 ((t₀.run s ops).2.1.attachAliased target names f cached).2 b →
    Together (ops ++ [.attachAliased target names f cached]) a b
  | later {ops : List (Operation σ)} {op : Operation σ} {a b : String} :
    Together ops a b → Together (ops ++ [op]) a b
  | same {ops : List (Operation σ)} {name : String} :
    (t₀.run s ops).2.1.contains name = true → Together ops name name
  | symm {ops : List (Operation σ)} {a b : String} : Together ops a b → Together ops b a
  | trans {ops : List (Operation σ)} {a b c : String} : Together ops a b → Together ops b c → Together ops a c

end

variable {entries : List (Entry σ)} {t₀ : Table σ} {s : σ} {ops : List (Operation σ)}

/-- Names bound together are at one position. -/
theorem Together.position (h₀ : ofRegistry entries = .ok t₀) (h : Together entries t₀ s ops a b) :
    ∃ i, (t₀.run s ops).2.1.names.lookup a = some i ∧ (t₀.run s ops).2.1.names.lookup b = some i := by
  induction h with
  | registered he ha hb =>
    obtain ⟨i, _, hi⟩ := ofRegistry_bound h₀ he
    exact ⟨i, hi _ ha, hi _ hb⟩
  | @aliased ops name target ha =>
    obtain ⟨hf, i, ht, he⟩ := addAlias_ok ha
    rw [run_concat, perform, he]
    exact ⟨i, lookup_withName hf i, lookup_mono (List.prefix_append ..) ht⟩
  | @attached ops target names f cached a b ha hb =>
    obtain ⟨added, hn, hi⟩ := attachAliased_added (t₀.run s ops).2.1 target names f cached
    rw [run_concat, perform]
    exact ⟨_, ha.lookup hn hi, hb.lookup hn hi⟩
  | later _ ih =>
    obtain ⟨i, ha, hb⟩ := ih
    rw [run_concat]
    exact ⟨i, (continues_perform ..).lookup ha, (continues_perform ..).lookup hb⟩
  | same hc =>
    obtain ⟨i, hi⟩ := Option.isSome_iff_exists.1 hc
    exact ⟨i, hi, hi⟩
  | symm _ ih =>
    obtain ⟨i, ha, hb⟩ := ih
    exact ⟨i, hb, ha⟩
  | trans _ _ ih ih' =>
    obtain ⟨i, ha, hb⟩ := ih
    obtain ⟨j, hb', hc⟩ := ih'
    cases hb.symm.trans hb'
    exact ⟨i, ha, hc⟩

/-! ## Names of one position -/

/-- What an operation does to the names of a table: nothing, or it adds an alias, or it adds names at the position
after all bindings, one name only unless it attaches several. -/
theorem perform_names (t : Table σ) (s : σ) (op : Operation σ) :
    (t.perform s op).2.1.names = t.names ∨
    (∃ name target i, op = .addAlias name target ∧ (t.addAlias name target).1 = .ok () ∧
      t.names.lookup target = some i ∧ (t.perform s op).2.1.names = t.names ++ [(name, i)]) ∨
    ∃ added, (t.perform s op).2.1.names = t.names ++ added ∧ (∀ p ∈ added, p.2 = t.bindings.length) ∧
      (added.length = 1 ∨ ∃ target names f cached, op = .attachAliased target names f cached) := by
  have bound (name : String) (b : Binding σ) : (t.bind name b).2.names = t.names ∨ ∃ added,
      (t.bind name b).2.names = t.names ++ added ∧ (∀ p ∈ added, p.2 = t.bindings.length) ∧ added.length = 1 :=
    (t.bind_added name b).imp_right fun hn => ⟨_, hn, by simp, rfl⟩
  have called (name : String) (args : List Json) : (t.dispatch name args s).2.1.names = t.names := by
    rcases t.find?_cases name with hf | ⟨i, b, hn, hb⟩
    · rw [dispatch_unbound hf]
    · rw [dispatch_bound hn hb]
  cases op with
  | attach name f cached =>
    exact (bound name _).imp_right fun ⟨added, hn, hi, hl⟩ => .inr ⟨added, hn, hi, .inl hl⟩
  | attachRaw name arity cached h =>
    exact (bound name _).imp_right fun ⟨added, hn, hi, hl⟩ => .inr ⟨added, hn, hi, .inl hl⟩
  | attachAliased target names f cached =>
    obtain ⟨added, hn, hi⟩ := t.attachAliased_added target names f cached
    exact .inr (.inr ⟨added, hn, hi, .inr ⟨target, names, f, cached, rfl⟩⟩)
  | addAlias name target =>
    rw [perform]
    rcases t.addAlias_cases name target with ⟨_, i, ht, he⟩ | ⟨_, e, _, he⟩ <;> rw [he]
    · exact .inr (.inl ⟨name, target, i, rfl, by rw [he], ht, rfl⟩)
    · exact .inl rfl
  | dispatch name args => exact .inl (called name args)
  | handle r => exact .inl (called r.func r.args)
  | handleBytes bytes =>
    refine .inl ?_
    rw [perform, handleBytes]
    split
    · exact called _ _
    · rfl
  | _ => exact .inl rfl

/-- Names of one position in a registry's table are names of one entry. -/
theorem entry_of_position (h : ofRegistry entries = .ok t) (ha : t.names.lookup a = some i)
    (hb : t.names.lookup b = some i) : ∃ e ∈ entries, a ∈ e.names ∧ b ∈ e.names := by
  obtain ⟨hl, rfl⟩ := ofRegistry_eq h
  -- each name has an entry, and the binding at its position tells the name of that entry
  have each {name : String} (hn : ((empty : Table σ).withEntries (Entry.sorted entries)).names.lookup name = some i) :
      ∃ e ∈ Entry.sorted entries, name ∈ e.names ∧
        ((empty : Table σ).withEntries (Entry.sorted entries)).bindings[i]? = some e.binding := by
    have hm := contains_iff.1 (contains_of_lookup hn)
    rw [← keys, keys_withEntries] at hm
    obtain ⟨e, he, hm⟩ := List.mem_flatMap.1 hm
    obtain ⟨j, hb, hj⟩ := entry_bound hl he
    cases hn.symm.trans (hj name hm)
    exact ⟨e, he, hm, hb⟩
  obtain ⟨e, he, hae, hbe⟩ := each ha
  obtain ⟨e', he', hbe', hbe''⟩ := each hb
  have hn : e.name = e'.name := congrArg Binding.target (Option.some.inj (hbe.symm.trans hbe''))
  have hs : e = e' := List.inj_on_of_nodup_map (Entry.own_nodup hl.distinct) he he' hn
  exact ⟨e, (Entry.sorted_perm entries).mem_iff.1 he, hae, hs ▸ hbe'⟩

/-- Names at one position after an operation became bound together, if this is so of those before. -/
theorem together_concat {op : Operation σ} (hw : (t₀.run s ops).2.1.WellFormed)
    (ih : ∀ {a b i}, (t₀.run s ops).2.1.names.lookup a = some i → (t₀.run s ops).2.1.names.lookup b = some i →
      Together entries t₀ s ops a b)
    (ha : (t₀.run s (ops ++ [op])).2.1.names.lookup a = some i)
    (hb : (t₀.run s (ops ++ [op])).2.1.names.lookup b = some i) : Together entries t₀ s (ops ++ [op]) a b := by
  have hp := perform_names (t₀.run s ops).2.1 (t₀.run s ops).2.2 op
  rw [← run_concat] at hp
  rcases hp with hn | ⟨name, target, j, rfl, hr, ht, hn⟩ | ⟨added, hn, hi, hadded⟩
  · rw [hn] at ha hb
    exact .later (ih ha hb)
  · have hj : ∀ p ∈ [(name, j)], p.2 = j := by simp
    -- the alias is together with its target, and so is whatever was at the position of that
    have named {c : String} (hc : (t₀.run s (ops ++ [.addAlias name target])).2.1.names.lookup c = some j) :
        Together entries t₀ s (ops ++ [.addAlias name target]) c target := by
      rcases lookup_added_cases hn hj hc with hc | ⟨_, _, hc⟩
      · exact .later (ih hc ht)
      · cases List.mem_singleton.1 hc
        exact .aliased hr
    rcases lookup_added_cases hn hj ha with ha' | ⟨rfl, _⟩
    · rcases lookup_added_cases hn hj hb with hb' | ⟨rfl, _⟩
      · exact .later (ih ha' hb')
      · exact (named ha).trans (named hb).symm
    · exact (named ha).trans (named hb).symm
  · rcases lookup_added_cases hn hi ha with ha' | ⟨rfl, hba, hma⟩
    · rcases lookup_added_cases hn hi hb with hb' | ⟨rfl, _⟩
      · exact .later (ih ha' hb')
      · exact absurd (hw.position_lt ha') (Nat.lt_irrefl _)
    · rcases lookup_added_cases hn hi hb with hb' | ⟨_, hbb, hmb⟩
      · exact absurd (hw.position_lt hb') (Nat.lt_irrefl _)
      · rcases hadded with hl | ⟨target, names, f, cached, rfl⟩
        · obtain ⟨p, rfl⟩ := List.length_eq_one_iff.1 hl
          cases List.mem_singleton.1 hma
          cases List.mem_singleton.1 hmb
          exact .same (contains_of_lookup ha)
        · rw [run_concat] at hba hbb
          exact .attached hba hbb

/-- Names are at one position if and only if they became bound together. -/
theorem together_iff (h₀ : ofRegistry entries = .ok t₀) : Together entries t₀ s ops a b ↔
    ∃ i, (t₀.run s ops).2.1.names.lookup a = some i ∧ (t₀.run s ops).2.1.names.lookup b = some i := by
  refine ⟨fun h => h.position h₀, ?_⟩
  rintro ⟨i, ha, hb⟩
  induction ops using List.reverseRecOn generalizing a b i with
  | nil =>
    obtain ⟨e, he, ha, hb⟩ := entry_of_position h₀ ha hb
    exact .registered he ha hb
  | append_singleton ops op ih =>
    exact together_concat ((ofRegistry_wellFormed h₀).run s ops) (fun {_ _ _} ha hb => ih _ ha hb) ha hb

/-! ## Calls under names bound together -/

theorem dispatch_congr (hw : t.WellFormed) (ha : t.names.lookup a = some i) (hb : t.names.lookup b = some i)
    (args : List Json) (s : σ) : t.dispatch a args s = t.dispatch b args s := by
  obtain ⟨x, hx⟩ := hw.bound ha
  rw [dispatch_bound ha hx, dispatch_bound hb hx]

theorem noting_wellFormed (hw : t.WellFormed) : t.noting.WellFormed :=
  ⟨hw.distinct, hw.visible, fun p hp => by rw [noting, List.length_mapIdx]; exact hw.below p hp⟩

/-- Whatever was asked of a table since two names of it became bound together, `dispatch` of the one name
answers what that of the other does, a result or a fault, and leaves the same bindings, results kept and state
of the functions, with the same functions run; and both names tell the same number of `cachedResults`. -/
theorem dispatch_together (h₀ : ofRegistry entries = .ok t₀) (h : Together entries t₀ s ops a b)
    (later : List (Operation σ)) :
    let t := (t₀.run s (ops ++ later)).2.1
    t.contains a = true ∧ t.contains b = true ∧ t.cachedResults a = t.cachedResults b ∧
      ∀ args s', t.dispatch a args s' = t.dispatch b args s' ∧
        ∀ runs, t.noting.dispatch a args (s', runs) = t.noting.dispatch b args (s', runs) := by
  intro t
  obtain ⟨i, ha, hb⟩ := h.position h₀
  have hw : t.WellFormed := (ofRegistry_wellFormed h₀).run s _
  have hc : (t₀.run s ops).2.1.Continues t := continues_run_append t₀ s ops later
  have ha : t.names.lookup a = some i := hc.lookup ha
  have hb : t.names.lookup b = some i := hc.lookup hb
  refine ⟨contains_of_lookup ha, contains_of_lookup hb, ?_, fun args s' => ⟨dispatch_congr hw ha hb args s',
    fun runs => dispatch_congr (noting_wellFormed hw) ha hb args (s', runs)⟩⟩
  rw [cachedResults, cachedResults, find?, find?, ha, hb]

/-- An alias of an alias, and a call after both. -/
theorem dispatch_together_chain :
    let ops : List (Operation UInt64) :=
      [.attach "tick" Catalogue.tick true, .addAlias "Tick" "tick", .addAlias "TICK" "Tick"]
    let t := ((empty : Table UInt64).run 0 (ops ++ [.dispatch "tick" [.str "a"]])).2.1
    t.cachedResults "TICK" = t.cachedResults "tick" ∧
      ∀ args s', t.dispatch "TICK" args s' = t.dispatch "tick" args s' := by
  have first : Together [] (empty : Table UInt64) 0 ([.attach "tick" Catalogue.tick true] ++ [.addAlias "Tick" "tick"])
      "Tick" "tick" := .aliased rfl
  have second : Together [] (empty : Table UInt64) 0
      ([.attach "tick" Catalogue.tick true, .addAlias "Tick" "tick"] ++ [.addAlias "TICK" "Tick"]) "TICK" "Tick" :=
    .aliased rfl
  obtain ⟨_, _, hk, hd⟩ := dispatch_together ofRegistry_nil (second.trans first.later) [.dispatch "tick" [.str "a"]]
  exact ⟨hk, fun args s' => (hd args s').1⟩

end NamedDispatch.Table
