/-
When the checks of `Header.audit` pass. Each check is on some macros of a sheet only, and what those have to be
like is said here for any sheet: it is both what a check needs and all that it finds out.
-/
import NamedDispatch.Header.Audit
import NamedDispatch.Proofs.Header.Layout
import NamedDispatch.Proofs.Header.Names

namespace NamedDispatch

open Naming (mentions isName)

/-! ## Checks one after the other -/

section

variable {ε : Type}

theorem both_ok_iff {check check' : Except ε Unit} :
    (do check; check') = .ok () ↔ check = .ok () ∧ check' = .ok () := by
  constructor
  · intro h
    cases check with
    | error fault => cases h
    | ok u => exact ⟨rfl, h⟩
  · rintro ⟨rfl, rfl⟩
    rfl

theorem forM_ok_iff {α : Type} {check : α → Except ε Unit} (as : List α) :
    as.forM check = .ok () ↔ ∀ a ∈ as, check a = .ok () := by
  induction as with
  | nil => exact ⟨nofun, fun _ => rfl⟩
  | cons a as ih =>
    rw [List.forall_mem_cons, ← ih]
    exact both_ok_iff

end

theorem refuteAny_ok_iff {α : Type} {found : Option α} {violation : α → Violation} :
    refuteAny found violation = .ok () ↔ found = none := by
  cases found with
  | none => exact ⟨fun _ => rfl, fun _ => rfl⟩
  | some a => exact ⟨nofun, nofun⟩

namespace PairPolicy

theorem step_bounds (p : PairPolicy) : 1 ≤ p.step ∧ p.step ≤ 2 := by
  cases p <;> decide

theorem eq_of_step {p p' : PairPolicy} (h : p.step = p'.step) : p = p' := by
  cases p <;> cases p' <;> trivial

end PairPolicy

/-! ## Parameters -/

namespace Macro

theorem isVariadic_of_params {m : Macro} {named : List String} (h : m.params = named ++ [ellipsis]) :
    m.isVariadic = true ∧ m.namedParams = named := by
  have hv : m.isVariadic = true := by simp [isVariadic, h]
  exact ⟨hv, by rw [namedParams, if_pos hv, h, List.dropLast_concat]⟩

theorem params_of_isVariadic {m : Macro} (h : m.isVariadic = true) : ∃ named, m.params = named ++ [ellipsis] := by
  rwa [isVariadic, beq_iff_eq, List.getLast?_eq_some_iff] at h

end Macro

namespace Selector

theorem params_counter (n : Naming) (t : Nat) : (counterMacro n t).params =
    ((List.range (t + 1)).map (fun slot => "_" ++ toString slot) ++ ["NAME"]) ++ [Macro.ellipsis] := by
  rw [List.append_assoc]
  rfl

theorem isVariadic_counter (n : Naming) (t : Nat) : (counterMacro n t).isVariadic = true :=
  (Macro.isVariadic_of_params (params_counter n t)).1

theorem namedParams_counter (n : Naming) (t : Nat) : (counterMacro n t).namedParams =
    (List.range (t + 1)).map (fun slot => "_" ++ toString slot) ++ ["NAME"] :=
  (Macro.isVariadic_of_params (params_counter n t)).2

end Selector

namespace Sheet

variable {s : Sheet}

/-! ## Macros in their places -/

/-- Under its number a macro comes after all that it uses, and it uses whatever it records. -/
structure Placed (s : Sheet) (id : Nat) (m : Macro) : Prop where
  recorded : ∀ r ∈ m.refs, r < id ∧ s.nameOf r ∈ m.used
  found : ∀ name ∈ m.used, ∀ first, s.lookup name = some first → first < id

theorem checkMacro_ok_iff {id : Nat} {m : Macro} : s.checkMacro id m = .ok () ↔ s.Placed id m := by
  unfold checkMacro
  rw [both_ok_iff, refuteAny_ok_iff, both_ok_iff, refuteAny_ok_iff, refuteAny_ok_iff,
    List.find?_eq_none, List.find?_eq_none, List.find?_eq_none]
  simp only [decide_eq_true_eq, Nat.not_le, Option.any_eq_true, not_exists, not_and,
    Std.HashSet.contains_ofList, Bool.not_eq_true, Bool.not_eq_false', List.contains_iff_mem]
  constructor
  · rintro ⟨below, found, used⟩
    exact ⟨fun r hr => ⟨below r hr, used r hr⟩, found⟩
  · rintro ⟨recorded, found⟩
    exact ⟨fun r hr => (recorded r hr).1, found, fun r hr => (recorded r hr).2⟩

theorem checkMacros_ok_iff {id : Nat} {ms : List Macro} :
    s.checkMacros id ms = .ok () ↔ ∀ i m, ms[i]? = some m → s.Placed (id + i) m := by
  induction ms generalizing id with
  | nil => exact ⟨nofun, fun _ => rfl⟩
  | cons m ms ih =>
    rw [checkMacros, both_ok_iff, checkMacro_ok_iff, ih]
    constructor
    · rintro ⟨first, rest⟩ (_ | i) m' hi
      · cases hi
        exact first
      · rw [← Nat.add_assoc, Nat.add_right_comm]
        exact rest i m' hi
    · intro h
      refine ⟨h 0 m rfl, fun i m' hi => ?_⟩
      rw [Nat.add_right_comm]
      exact h (i + 1) m' hi

/-! ### Sound macros -/

/-- What puts a macro in its place: the names in its body are those of the macros it records, these come
before it, and no parameter looks like a name. -/
structure Sound (s : Sheet) (id : Nat) (m : Macro) : Prop where
  names : mentions m.body = m.refs.map s.nameOf
  below : ∀ r ∈ m.refs, r < id
  params : ∀ p ∈ m.params, isName p = false

/-- Whatever a `Sound` macro uses comes before it, in a sheet whose macros have names that look like one. -/
theorem Sound.placed (hi : s.Indexed) (hn : ∀ m ∈ s.defs.toList, isName m.name = true) {id : Nat} {m : Macro}
    (hm : s.Sound id m) (hid : s.defs.toList[id]? = some m) : s.Placed id m := by
  constructor
  · intro r hr
    have : s.nameOf r ∈ mentions m.body := hm.names ▸ List.mem_map_of_mem hr
    obtain ⟨hword, hname⟩ := List.mem_filter.1 this
    have hp : s.nameOf r ∉ m.params := fun hp => absurd (hname.symm.trans (hm.params _ hp)) (by decide)
    exact ⟨hm.below r hr, List.mem_filter.2 ⟨hword, by simpa using hp⟩⟩
  · intro name hname first hf
    -- a word that is found is the name of a macro, so that it is one of the names recorded
    obtain ⟨hlt, hfirst⟩ := hi.getElem?_lookup hf
    have : name ∈ m.refs.map s.nameOf := by
      rw [← hm.names]
      exact List.mem_filter.2 ⟨(List.mem_filter.1 hname).1, hfirst ▸ hn _ (List.getElem_mem hlt)⟩
    obtain ⟨r, hr, rfl⟩ := List.mem_map.1 this
    have hbelow := hm.below r hr
    have hget := List.getElem?_eq_getElem (Nat.lt_trans hbelow (List.getElem?_eq_some_iff.1 hid).1)
    obtain ⟨first', hle, hf'⟩ := hi.lookup_le hget
    rw [← nameOf_eq hget, hf] at hf'
    cases hf'
    omega

/-! ## Names -/

/-- No name is repeated just when no two are the same and none was seen before. -/
theorem firstRepeated_eq_none_iff {names : List String} {seen : Std.HashSet String} :
    firstRepeated seen names = none ↔ names.Nodup ∧ ∀ name ∈ names, seen.contains name = false := by
  induction names generalizing seen with
  | nil => exact ⟨fun _ => ⟨List.nodup_nil, nofun⟩, fun _ => rfl⟩
  | cons name names ih =>
    rw [firstRepeated, List.nodup_cons, List.forall_mem_cons]
    by_cases hs : seen.contains name = true
    · rw [if_pos hs]
      exact ⟨nofun, fun h => absurd (hs.symm.trans h.2.1) (by decide)⟩
    · rw [if_neg hs, ih]
      simp only [Std.HashSet.contains_insert, Bool.or_eq_false_iff, beq_eq_false_iff_ne]
      constructor
      · rintro ⟨hnodup, hnew⟩
        exact ⟨⟨fun h => (hnew name h).1 rfl, hnodup⟩, by simpa using hs, fun other h => (hnew other h).2⟩
      · rintro ⟨⟨hname, hnodup⟩, -, hseen⟩
        exact ⟨hnodup, fun other h => ⟨fun e => hname (e ▸ h), hseen other h⟩⟩

theorem checkNames_ok_iff_nodup : s.checkNames = .ok () ↔ s.singleNames.Nodup := by
  rw [checkNames, refuteAny_ok_iff, firstRepeated_eq_none_iff]
  exact and_iff_left fun _ _ => Std.HashSet.contains_empty

/-- Two macros of one name are one macro, `HEADER_FUNC` apart. -/
def NamesOnce (s : Sheet) : Prop :=
  ∀ (i j : Nat) (m m' : Macro), s.defs[i]? = some m → s.defs[j]? = some m' → m.role ≠ .headerFunc →
    m'.role ≠ .headerFunc → m.name = m'.name → i = j

theorem checkNames_ok_iff : s.checkNames = .ok () ↔ s.NamesOnce := by
  rw [checkNames_ok_iff_nodup, singleNames, List.Nodup, List.pairwise_map, List.pairwise_filter,
    List.pairwise_iff_getElem]
  simp only [NamesOnce, ← Array.getElem?_toList, bne_iff_ne]
  constructor
  · -- of two macros the later one would be a repetition
    intro h i j m m' hi hj hr hr' hn
    obtain ⟨hil, rfl⟩ := List.getElem?_eq_some_iff.1 hi
    obtain ⟨hjl, rfl⟩ := List.getElem?_eq_some_iff.1 hj
    rcases Nat.lt_trichotomy i j with hlt | rfl | hlt
    · exact absurd hn (h i j hil hjl hlt hr hr')
    · rfl
    · exact absurd hn.symm (h j i hjl hil hlt hr' hr)
  · intro h i j hi hj hlt hr hr' hn
    have := h i j _ _ (List.getElem?_eq_getElem hi) (List.getElem?_eq_getElem hj) hr hr' hn
    omega

/-! ## Ladders -/

/-- Each macro of a ladder is the level of its position. From level `first` on it refers to the level
`step` below it, and to no other level of any ladder. -/
def Climbs (s : Sheet) (l : Ladder) (step first : Nat) : Prop :=
  ∀ k id, l.level? k = some id → ∃ m, s.defs[id]? = some m ∧ m.role.level? = some k ∧
    (k < first → s.levelRefs m.refs = []) ∧
    (first ≤ k → ∃ below, l.level? (k - step) = some below ∧ s.levelRefs m.refs = [below])

theorem levelOf_eq_some_iff {id k : Nat} :
    s.levelOf id = some k ↔ ∃ m, s.defs[id]? = some m ∧ m.role.level? = some k := by
  simp only [levelOf, roleOf, Option.bind_eq_some_iff, Option.map_eq_some_iff]
  constructor
  · rintro ⟨role, ⟨m, hm, rfl⟩, hk⟩
    exact ⟨m, hm, hk⟩
  · rintro ⟨m, hm, hk⟩
    exact ⟨m.role, ⟨m, hm, rfl⟩, hk⟩

theorem checkLevels_ok_iff {l : Ladder} {step first k : Nat} {ids : List Nat} :
    s.checkLevels l step first k ids = .ok () ↔ ∀ i id, ids[i]? = some id →
      ∃ m, s.defs[id]? = some m ∧ m.role.level? = some (k + i) ∧
        s.levelRefs m.refs = nextLevel l step first (k + i) := by
  induction ids generalizing k with
  | nil => exact ⟨nofun, fun _ => rfl⟩
  | cons id ids ih =>
    have head : s.checkLevels l step first k (id :: ids) = .ok () ↔
        (∃ m, s.defs[id]? = some m ∧ m.role.level? = some k ∧ s.levelRefs m.refs = nextLevel l step first k) ∧
          s.checkLevels l step first (k + 1) ids = .ok () := by
      rw [checkLevels]
      by_cases hk : s.levelOf id = some k
      · obtain ⟨m, hm, hl⟩ := levelOf_eq_some_iff.1 hk
        rw [if_neg (not_not.2 hk), hm, Option.map_some, Option.getD_some]
        by_cases hr : s.levelRefs m.refs = nextLevel l step first k
        · rw [if_neg (not_not.2 hr)]
          exact (and_iff_right ⟨m, rfl, hl, hr⟩).symm
        · rw [if_pos hr]
          constructor
          · nofun
          · rintro ⟨⟨_, h, -, hr'⟩, -⟩
            cases h
            exact absurd hr' hr
      · rw [if_pos hk]
        constructor
        · nofun
        · rintro ⟨⟨m, hm, hl, -⟩, -⟩
          exact absurd (levelOf_eq_some_iff.2 ⟨m, hm, hl⟩) hk
    rw [head, ih]
    constructor
    · rintro ⟨first, rest⟩ (_ | i) id' hi
      · cases hi
        exact first
      · rw [Nat.add_comm i, ← Nat.add_assoc]
        exact rest i id' hi
    · intro h
      refine ⟨h 0 id rfl, fun i id' hi => ?_⟩
      rw [Nat.add_assoc, Nat.add_comm 1]
      exact h (i + 1) id' hi

theorem eq_nextLevel_iff {l : Ladder} {step first k : Nat} (hk : k < l.levels.length) {refs : List Nat} :
    refs = nextLevel l step first k ↔
      (k < first → refs = []) ∧ (first ≤ k → ∃ below, l.level? (k - step) = some below ∧ refs = [below]) := by
  obtain ⟨below, lower⟩ : ∃ below, l.level? (k - step) = some below :=
    ⟨_, List.getElem?_eq_getElem (show k - step < l.levels.length by omega)⟩
  unfold nextLevel
  by_cases hf : first ≤ k
  · simp [hf, lower, Nat.not_lt.2 hf]
  · simp [hf, Nat.lt_of_not_le hf]

/-- A ladder passes `checkLadder` when it has a level for each number of arguments and climbs from one to the next. -/
theorem checkLadder_ok_iff {l : Ladder} {maxArity step first : Nat} :
    s.checkLadder l maxArity step first = .ok () ↔ l.levels.length = maxArity + 1 ∧ s.Climbs l step first := by
  unfold checkLadder
  by_cases hl : l.levels.length = maxArity + 1
  · rw [if_neg (not_not.2 hl), checkLevels_ok_iff, and_iff_right hl]
    refine forall_congr' fun k => forall_congr' fun id => forall_congr' fun hk => exists_congr fun m => ?_
    rw [Nat.zero_add, eq_nextLevel_iff (List.getElem?_eq_some_iff.1 hk).1]
  · rw [if_pos hl]
    exact ⟨nofun, fun h => absurd h.1 hl⟩

/-! ### Ladders of macros that follow one another -/

/-- The levels of a ladder whose level 0 has the number `base` are its macros in order. -/
def HasLevels (s : Sheet) (base t : Nat) : Prop := ∀ k < t, s.levelOf (base + k) = some k

theorem levelOf_eq {id : Nat} {m : Macro} (h : s.defs.toList[id]? = some m) : s.levelOf id = m.role.level? := by
  rw [levelOf, roleOf_eq h]; rfl

theorem level?_range' {base t k : Nat} (hk : k < t) :
    (⟨List.range' base t⟩ : Ladder).level? k = some (base + k) := by
  rw [Ladder.level?, List.getElem?_range' hk, Nat.one_mul]

theorem level?_range'_iff {base t k id : Nat} :
    (⟨List.range' base t⟩ : Ladder).level? k = some id ↔ k < t ∧ base + k = id := by
  constructor
  · intro h
    have hk : k < t := by
      have := (List.getElem?_eq_some_iff.1 h).1
      rwa [List.length_range'] at this
    rw [level?_range' hk] at h
    exact ⟨hk, Option.some.inj h⟩
  · rintro ⟨hk, rfl⟩
    exact level?_range' hk

theorem climbs_range' {step first base t : Nat} (h : ∀ k < t, ∃ m, s.defs.toList[base + k]? = some m ∧
      m.role.level? = some k ∧ (k < first → s.levelRefs m.refs = []) ∧
      (first ≤ k → s.levelRefs m.refs = [base + (k - step)])) :
    s.Climbs ⟨List.range' base t⟩ step first := by
  intro k id hid
  obtain ⟨hk, rfl⟩ := level?_range'_iff.1 hid
  obtain ⟨m, hm, hl, hlow, hhigh⟩ := h k hk
  rw [Array.getElem?_toList] at hm
  exact ⟨m, hm, hl, hlow, fun hf => ⟨_, level?_range' (by omega), hhigh hf⟩⟩

section

variable {n : Naming} {expand base t : Nat}

/-- Of a macro that is no level and a level only the level is one. -/
theorem levelRefs_step {k : Nat} (he : s.levelOf expand = none) (h : s.HasLevels base t) (hk : k < t) :
    s.levelRefs [expand, base + k] = [base + k] := by
  simp [levelRefs, he, h k hk]

theorem hasLevels_single (hm : ∀ k < t, s.defs.toList[base + k]? = some (Ladder.single n expand base k)) :
    s.HasLevels base t := by
  intro k hk
  rw [levelOf_eq (hm k hk)]
  match k with
  | 0 | 1 | _ + 2 => rfl

theorem hasLevels_pair {p : PairPolicy}
    (hm : ∀ k < t, s.defs.toList[base + k]? = some (Ladder.pair n p expand base k)) : s.HasLevels base t := by
  intro k hk
  rw [levelOf_eq (hm k hk)]
  match k with
  | 0 | 1 | 2 | _ + 3 => rfl

theorem climbs_single (he : s.levelOf expand = none)
    (hm : ∀ k < t, s.defs.toList[base + k]? = some (Ladder.single n expand base k)) :
    s.Climbs ⟨List.range' base t⟩ 1 2 := by
  refine climbs_range' fun k hk => ⟨_, hm k hk, ?_⟩
  match k with
  | 0 => exact ⟨rfl, fun _ => rfl, nofun⟩
  | 1 => exact ⟨rfl, fun _ => rfl, fun h => absurd h (by decide)⟩
  | k + 2 =>
    refine ⟨rfl, fun h => absurd h (Nat.not_lt.2 (Nat.le_add_left ..)), fun _ => ?_⟩
    exact levelRefs_step he (hasLevels_single hm) (show k + 1 < t by omega)

theorem levelRefs_pair {p : PairPolicy} (he : s.levelOf expand = none) (h : s.HasLevels base t) {k : Nat}
    (hk : k < t) : (k < 3 → s.levelRefs (Ladder.pair n p expand base k).refs = []) ∧
      (3 ≤ k → s.levelRefs (Ladder.pair n p expand base k).refs = [base + (k - p.step)]) := by
  match k with
  | 0 | 1 | 2 => exact ⟨fun _ => rfl, fun h => absurd h (show ¬3 ≤ _ by decide)⟩
  | k + 3 =>
    refine ⟨fun h => absurd h (Nat.not_lt.2 (Nat.le_add_left ..)), fun _ => ?_⟩
    exact levelRefs_step he h (show k + 3 - p.step < t by omega)

/-- The levels `FE2_k` climb as their policy says. Up to `FE2_2` they do not go on at any other level, so that
they climb in any way there. -/
theorem climbs_pair_iff {p p' : PairPolicy} (he : s.levelOf expand = none)
    (hm : ∀ k < t, s.defs.toList[base + k]? = some (Ladder.pair n p expand base k)) :
    s.Climbs ⟨List.range' base t⟩ p'.step 3 ↔ p = p' ∨ t ≤ 3 := by
  have levels := hasLevels_pair hm
  constructor
  · intro h
    by_cases ht : t ≤ 3
    · exact .inr ht
    · -- at level 3 the two ways differ
      have h3 : 3 < t := Nat.not_le.1 ht
      obtain ⟨m, hm', -, -, hnext⟩ := h 3 (base + 3) (level?_range' h3)
      obtain ⟨below, hbelow, hrefs⟩ := hnext (Nat.le_refl 3)
      rw [← Array.getElem?_toList, hm 3 h3] at hm'
      cases hm'
      rw [(levelRefs_pair he levels h3).2 (Nat.le_refl 3)] at hrefs
      obtain ⟨-, hbelow⟩ := level?_range'_iff.1 hbelow
      have hsame : base + (3 - p.step) = below := List.singleton_inj.1 hrefs
      have := p.step_bounds
      have := p'.step_bounds
      exact .inl (PairPolicy.eq_of_step (by omega))
  · intro h
    refine climbs_range' fun k hk => ⟨_, hm k hk, ?_, (levelRefs_pair he levels hk).1, fun hf => ?_⟩
    · rw [← levelOf_eq (hm k hk), levels k hk]
    · obtain rfl | ht := h
      · exact (levelRefs_pair he levels hk).2 hf
      · omega

end

/-! ## `GET_MACRO` -/

/-- The macro counts up to `maxArity` arguments, as `GET_MACRO` does: it has a named parameter for each, one for
the selector's `_0` and one for `NAME`, and takes any number of further ones. -/
def Counts (s : Sheet) (counter maxArity : Nat) : Prop :=
  ∃ m, s.defs[counter]? = some m ∧ m.role = .counter ∧
    ∃ named, m.params = named ++ [Macro.ellipsis] ∧ named.length = maxArity + 2

theorem checkCounter_ok_iff {counter maxArity : Nat} (hc : counter < s.size) :
    s.checkCounter counter maxArity = .ok () ↔ s.Counts counter maxArity := by
  unfold checkCounter Counts
  rw [Array.getElem?_eq_getElem hc]
  generalize s.defs[counter] = m
  simp only [Option.some.injEq, exists_eq_left']
  constructor
  · intro h
    split at h
    · rename_i hm
      obtain ⟨hr, hv, hl⟩ := hm
      obtain ⟨named, hp⟩ := Macro.params_of_isVariadic hv
      rw [(Macro.isVariadic_of_params hp).2] at hl
      exact ⟨hr, named, hp, hl⟩
    · cases h
  · rintro ⟨hr, named, hp, hl⟩
    obtain ⟨hv, hn⟩ := Macro.isVariadic_of_params hp
    rw [if_pos ⟨hr, hv, by rw [hn, hl]⟩]

/-- A `GET_MACRO` fits the number of arguments that it was made for and no other. -/
theorem checkCounter_iff {n : Naming} {counter t maxArity : Nat}
    (hm : s.defs.toList[counter]? = some (Selector.counterMacro n t)) :
    s.checkCounter counter maxArity = .ok () ↔ t = maxArity := by
  have hlt : counter < s.size := by
    rw [size_eq]
    exact (List.getElem?_eq_some_iff.1 hm).1
  have slots : (Selector.counterMacro n t).namedParams.length = t + 2 := by
    rw [Selector.namedParams_counter, List.length_append, List.length_map, List.length_range]
    rfl
  rw [Array.getElem?_toList] at hm
  rw [checkCounter_ok_iff hlt]
  constructor
  · rintro ⟨m, hm', -, named, hp, hl⟩
    cases hm.symm.trans hm'
    rw [(Macro.isVariadic_of_params hp).2] at slots
    omega
  · rintro rfl
    refine ⟨_, hm, rfl, _, Selector.params_counter n t, ?_⟩
    rwa [Selector.namedParams_counter] at slots

/-! ## Selectors -/

/-- The macro refers to the levels of a ladder from the top down and to none of them besides, and its body
lists their names in that order. -/
def Lists (s : Sheet) (selector : Nat) (l : Ladder) : Prop :=
  ∃ m, s.defs[selector]? = some m ∧ m.refs.filter (l.levels.contains ·) = l.descending ∧
    (Macro.commaList (l.descending.map s.nameOf)).toList <:+: m.body.toList

theorem isDescending_range (t : Nat) : isDescending (List.range t).reverse = true := by
  induction t with
  | zero => rfl
  | succ t ih =>
    rw [List.range_succ, List.reverse_append, List.reverse_singleton, List.singleton_append]
    cases t with
    | zero => rfl
    | succ t =>
      rw [List.range_succ, List.reverse_append, List.reverse_singleton, List.singleton_append] at ih ⊢
      rw [isDescending, ih, Bool.and_true, decide_eq_true_eq]

/-- Numbers that go down by one to zero are all those below their count. -/
theorem eq_range_of_isDescending {ns : List Nat} (hd : isDescending ns = true) (h0 : ns.getLast? = some 0) :
    ns = (List.range ns.length).reverse := by
  induction ns with
  | nil => rfl
  | cons n ns ih =>
    cases ns with
    | nil =>
      obtain rfl : n = 0 := by simpa using h0
      rfl
    | cons n' ns =>
      rw [isDescending, Bool.and_eq_true, decide_eq_true_eq] at hd
      obtain ⟨rfl, hd⟩ := hd
      have hr := ih hd (by rwa [List.getLast?_cons_cons] at h0)
      -- the number before is the count of those after it
      have hn' : n' = ns.length := by
        have := congrArg List.head? hr
        simpa [List.range_succ] using this
      rw [List.length_cons, List.range_succ, List.reverse_append, ← hr, hn']
      rfl

theorem filterMap_back {f g : Nat → Option Nat} {ns : List Nat} (h : ∀ n ∈ ns, (f n).bind g = some n) :
    (ns.filterMap f).filterMap g = ns := by
  rw [List.filterMap_filterMap, List.filterMap_congr h, List.filterMap_some]

theorem filterMap_level? (l : Ladder) : (List.range l.levels.length).filterMap l.level? = l.levels := by
  obtain ⟨ids⟩ := l
  show (List.range ids.length).filterMap (ids[·]?) = ids
  induction ids with
  | nil => rfl
  | cons id ids ih =>
    rw [List.length_cons, List.range_succ_eq_map, List.filterMap_cons, List.filterMap_map]
    exact congrArg (id :: ·) ih

/-- References whose levels go down from the top are those to the macros of the ladder in that order, when
each of these is the level of its position. -/
theorem listedLevels_eq_iff {l : Ladder} (hl : ∀ k id, l.level? k = some id → s.levelOf id = some k)
    (refs : List Nat) : s.listedLevels refs l = (List.range l.levels.length).reverse ↔
      refs.filter (l.levels.contains ·) = l.descending := by
  have split : s.listedLevels refs l = (refs.filter (l.levels.contains ·)).filterMap s.levelOf :=
    List.filterMap_filter.symm
  -- levels and macros are read off from one another, so that one list is determined by the other
  have forth : l.levels.filterMap s.levelOf = List.range l.levels.length := by
    have : ((List.range l.levels.length).filterMap l.level?).filterMap s.levelOf =
        List.range l.levels.length := by
      refine filterMap_back fun k hk => ?_
      obtain ⟨id, hid⟩ : ∃ id, l.level? k = some id := ⟨_, List.getElem?_eq_getElem (List.mem_range.1 hk)⟩
      rw [hid, Option.bind_some, hl k id hid]
    rwa [filterMap_level?] at this
  have back : ((refs.filter (l.levels.contains ·)).filterMap s.levelOf).filterMap l.level? =
      refs.filter (l.levels.contains ·) := by
    refine filterMap_back fun id h => ?_
    obtain ⟨k, hk⟩ := List.getElem?_of_mem (List.contains_iff_mem.1 (List.mem_filter.1 h).2)
    rw [hl k id hk, Option.bind_some]
    exact hk
  rw [split]
  constructor
  · intro h
    rw [← back, h, List.filterMap_reverse, filterMap_level?]
    rfl
  · intro h
    rw [h, Ladder.descending, List.filterMap_reverse, forth]

theorem checkSelector_ok_iff {selector top : Nat} {l : Ladder} (hs : selector < s.size)
    (hlen : l.levels.length = top + 1) (hl : ∀ k id, l.level? k = some id → s.levelOf id = some k) :
    s.checkSelector selector l = .ok () ↔ s.Lists selector l := by
  unfold checkSelector Lists
  rw [Array.getElem?_eq_getElem hs]
  generalize s.defs[selector] = m
  simp only [Option.some.injEq, exists_eq_left', ← listedLevels_eq_iff hl, ← Text.contains_iff]
  constructor
  · intro h
    split at h
    · rename_i hd
      obtain ⟨hlen', hd, h0⟩ := hd
      split at h
      · rename_i hc
        exact ⟨hlen' ▸ eq_range_of_isDescending hd h0, hc⟩
      · cases h
    · cases h
  · rintro ⟨hd, hc⟩
    have down : (s.listedLevels m.refs l).length = l.levels.length ∧
        isDescending (s.listedLevels m.refs l) = true ∧ (s.listedLevels m.refs l).getLast? = some 0 := by
      rw [hd, List.length_reverse, List.length_range, hlen, List.getLast?_reverse, List.range_succ_eq_map]
      exact ⟨rfl, List.range_succ_eq_map ▸ isDescending_range _, rfl⟩
    rw [if_pos down, if_pos hc]

/-- A selector that refers to the levels of a ladder from the top down, after two other macros such as `EXPAND`
and `GET_MACRO`, passes `checkSelector`. -/
theorem checkSelector_ok {id base t a b : Nat} {name counter : String} (hl : s.HasLevels base (t + 1))
    (ha : a < base ∨ base + (t + 1) ≤ a) (hb : b < base ∨ base + (t + 1) ≤ b) {listed : List String}
    (hn : (⟨List.range' base (t + 1)⟩ : Ladder).descending.map s.nameOf = listed)
    (hm : s.defs.toList[id]? = some (Selector.listing name counter listed
      (a :: b :: (⟨List.range' base (t + 1)⟩ : Ladder).descending))) :
    s.checkSelector id ⟨List.range' base (t + 1)⟩ = .ok () := by
  have hid : id < s.size := by
    rw [size_eq]
    exact (List.getElem?_eq_some_iff.1 hm).1
  have levels : ∀ k id, (⟨List.range' base (t + 1)⟩ : Ladder).level? k = some id → s.levelOf id = some k := by
    intro k id h
    obtain ⟨hk, rfl⟩ := level?_range'_iff.1 h
    exact hl k hk
  rw [Array.getElem?_toList] at hm
  refine (checkSelector_ok_iff hid List.length_range' levels).2 ⟨_, hm, ?_, ?_⟩
  · -- what is not among the levels of the ladder is left out
    have out {r : Nat} (hr : r < base ∨ base + (t + 1) ≤ r) : ¬(List.range' base (t + 1)).contains r = true := by
      rw [List.contains_iff_mem, List.mem_range'_1]
      omega
    rw [Selector.listing, List.filter_cons_of_neg (out ha), List.filter_cons_of_neg (out hb),
      List.filter_eq_self]
    exact fun id h => List.contains_iff_mem.2 (List.mem_reverse.1 h)
  · rw [hn]
    -- the list stands between the first arguments of `GET_MACRO` and the call of what it picks
    refine ⟨(expandName ++ "(" ++ counter ++ "(_0, __VA_ARGS__, ").toList, ")(ACTION, __VA_ARGS__))".toList, ?_⟩
    rw [Selector.listing, Selector.body, Ladder.expanded]
    simp only [String.toList_append, List.append_assoc]
    rfl

end Sheet

end NamedDispatch
