/-
What a built header has under each number and each name. No name but `HEADER_FUNC` is used twice, so
each other macro is found under its name, and looking up a word that does not end like a name finds
nothing.
-/
import Mathlib.Data.List.Nodup
import NamedDispatch.Proofs.Header.Layout
import NamedDispatch.Proofs.Header.Names

namespace NamedDispatch.Header

variable (c : Config)

/-! ## Macros by number -/

theorem toList_build : (build c).sheet.defs.toList = layout c := by
  rw [build_eq, Sheet.toList_writeAll, Sheet.toList_empty, List.nil_append, filterMap_entries]

theorem indexed_build : (build c).sheet.Indexed := by
  rw [build_eq]; exact Sheet.indexed_empty.writeAll _

theorem layout_expand : (layout c)[0]? = some Ladder.expandMacro := rfl

theorem layout_single {k : Nat} (hk : k ≤ c.top) :
    (layout c)[1 + k]? = some (Ladder.single c.naming 0 1 k) := by
  rw [layout, Nat.add_comm, List.getElem?_cons_succ]
  have hl : k < (singlePart c).length := by rw [length_singlePart]; omega
  simp only [List.append_assoc]
  rw [List.getElem?_append_left hl, singlePart, List.getElem?_map, List.getElem?_range (by omega)]
  rfl

theorem layout_pair {p : PairPolicy} (hp : c.effectivePairPolicy = some p) {k : Nat} (hk : k ≤ c.top) :
    (layout c)[c.top + 2 + k]? = some (Ladder.pair c.naming p 0 (c.top + 2) k) := by
  have hl : k < (pairPart c).length := by rw [pairPart, hp]; simp; omega
  rw [layout, show c.top + 2 + k = (singlePart c).length + k + 1 by rw [length_singlePart]; omega,
    List.getElem?_cons_succ]
  simp only [List.append_assoc]
  rw [List.getElem?_append_right (Nat.le_add_right ..), Nat.add_sub_cancel_left,
    List.getElem?_append_left hl, pairPart, hp, List.getElem?_map, List.getElem?_range (by omega)]
  rfl

theorem counterId_eq : counterId c = (singlePart c).length + (pairPart c).length + 1 := by
  rw [length_singlePart, length_pairPart]
  unfold counterId; split <;> omega

theorem layout_table {i : Nat} {m : Macro} (h : (tablePart c)[i]? = some m) :
    (layout c)[counterId c + i]? = some m := by
  have hl : i < (tablePart c).length := (List.getElem?_eq_some_iff.1 h).1
  rw [layout, counterId_eq, show (singlePart c).length + (pairPart c).length + 1 + i =
    ((singlePart c).length + ((pairPart c).length + i)) + 1 by omega, List.getElem?_cons_succ]
  simp only [List.append_assoc]
  rw [List.getElem?_append_right (Nat.le_add_right ..), Nat.add_sub_cancel_left,
    List.getElem?_append_right (Nat.le_add_right ..), Nat.add_sub_cancel_left,
    List.getElem?_append_left hl, h]

theorem registrationId_eq : registrationId c =
    (singlePart c).length + (pairPart c).length + (tablePart c).length + (headerFuncPart c).length + 1 := by
  rw [registrationId, counterId_eq, length_tablePart, length_headerFuncPart]
  omega

theorem layout_registration {i : Nat} {m : Macro}
    (h : (registrationPart c (registrationId c))[i]? = some m) :
    (layout c)[registrationId c + i]? = some m := by
  rw [layout, List.getElem?_cons, if_neg (by rw [registrationId_eq]; omega),
    List.getElem?_append_right (by
      rw [registrationId_eq, List.length_append, List.length_append, List.length_append]; omega),
    List.length_append, List.length_append, List.length_append, ← h]
  congr 1
  rw [registrationId_eq]
  omega

/-! ## Names -/

/-- What follows the stem in `ALIAS_FUNC` and in what repeats it under the policy. -/
def aliasSuffixes : PairPolicy → List String
  | .holdFirst => ["ALIAS_FUNC", "MULTI_ALIAS_FUNC", "ALIAS_CACHED_FUNC", "MULTI_ALIAS_CACHED_FUNC"]
  | .advanceBoth => ["ALIAS_FUNC", "ALIAS_FUNCS", "ALIAS_CACHED_FUNC", "ALIAS_CACHED_FUNCS"]

/-- What follows the stem in `GET_MACRO`, `FOR_EACH` and, with a ladder over pairs, `FOR_EACH2`. -/
def tableSuffixes (pair : Bool) : List String :=
  ["GET_MACRO", "FOR_EACH"] ++ if pair then ["FOR_EACH2"] else []

/-- What follows the stem in the names from `ATTACH_FUNC` to `DEFAULT_DISPATCH`. -/
def registrationSuffixes (policy : Option PairPolicy) : List String :=
  ["ATTACH_FUNC", "ATTACH_FUNCS", "ATTACH_CACHED_FUNC", "ATTACH_CACHED_FUNCS"] ++
    (policy.map aliasSuffixes).getD [] ++ ["DEFAULT_DISPATCH"]

/-- What follows the stem in the levels `FE_k` and `FE2_k`. -/
def ladderSuffixes : List String :=
  (List.range (c.top + 1)).map ("FE_" ++ toString ·) ++
    if c.effectivePairPolicy.isSome then (List.range (c.top + 1)).map ("FE2_" ++ toString ·) else []

/-- The names of the levels `FE_k`. -/
def levelNames : List String := (List.range (c.top + 1)).map c.naming.level

/-- The names of the levels `FE2_k`, if there are any. -/
def pairLevelNames : List String :=
  if c.effectivePairPolicy.isSome then (List.range (c.top + 1)).map c.naming.pairLevel else []

theorem names_singlePart : (singlePart c).map (·.name) = levelNames c := by
  rw [singlePart, List.map_map]
  exact List.map_congr_left fun k _ => single_name ..

theorem names_pairPart : (pairPart c).map (·.name) = pairLevelNames c := by
  unfold pairPart pairLevelNames
  rcases c.effectivePairPolicy with _ | p
  · rfl
  · simp only [Option.isSome_some, if_true, List.map_map]
    exact List.map_congr_left fun k _ => pair_name ..

theorem names_ladders : (singlePart c ++ pairPart c).map (·.name) =
    (ladderSuffixes c).map (c.stem ++ ·) := by
  rw [List.map_append, names_singlePart, names_pairPart, ladderSuffixes, levelNames, pairLevelNames,
    List.map_append]
  congr 1
  · rw [List.map_map]
    exact List.map_congr_left fun k _ => Naming.level_eq ..
  · split
    · rw [List.map_map]
      exact List.map_congr_left fun k _ => Naming.pairLevel_eq ..
    · rfl

theorem names_table : (tablePart c).map (·.name) =
    (tableSuffixes c.effectivePairPolicy.isSome).map (c.stem ++ ·) := by
  unfold tablePart
  cases c.effectivePairPolicy.isSome <;> rfl

theorem names_attach (cached : Bool) (firstId : Nat) : (attachPart c cached firstId).map (·.name) =
    ["ATTACH_" ++ (Naming.cachedMark cached ++ "FUNC"),
      "ATTACH_" ++ (Naming.cachedMark cached ++ "FUNCS")].map (c.stem ++ ·) :=
  congrArg₂ (fun a b => [a, b]) (Naming.attach_eq ..) (Naming.attachMany_eq ..)

theorem names_registration (firstId : Nat) : (registrationPart c firstId).map (·.name) =
    (registrationSuffixes c.effectivePairPolicy).map (c.stem ++ ·) := by
  rw [registrationPart, List.map_append, List.map_append, List.map_append, names_attach, names_attach,
    aliasesPart]
  rcases c.effectivePairPolicy with _ | p
  · rfl
  · have h (b : Bool) (i : Nat) : (aliasPart c p b i).map (·.name) =
        [c.naming.singleAlias b, Registration.aliasManyName c.naming p b] := rfl
    simp only [List.map_append, h, Naming.singleAlias_eq]
    cases p <;> simp only [Registration.aliasManyName, Naming.multiAlias_eq, Naming.aliasPairs_eq] <;> rfl

/-! ## No name twice -/

/-- The suffixes that are used once, but for those of the ladders. -/
def onceSuffixes : List String :=
  tableSuffixes c.effectivePairPolicy.isSome ++ registrationSuffixes c.effectivePairPolicy

/-- The beginnings of the suffixes that belong to ladders. -/
def startsAsLevel (s : String) : Bool := s.toList.take 2 == ['F', 'E']

/-- There are three lists of these suffixes only, one without and two with a ladder over pairs. -/
theorem onceSuffixes_spec : (onceSuffixes c).Nodup ∧ "HEADER_FUNC" ∉ onceSuffixes c ∧
    ∀ s ∈ onceSuffixes c, startsAsLevel s = false ∧ Naming.endsLikeName s = true := by
  unfold onceSuffixes
  rcases c.effectivePairPolicy with _ | p
  · decide
  · cases p <;> decide

theorem startsAsLevel_ladderSuffixes {s : String} (h : s ∈ ladderSuffixes c) : startsAsLevel s = true := by
  have key (t : String) (k : Nat) : startsAsLevel ("FE" ++ t ++ toString k) = true := by
    rw [startsAsLevel, String.toList_append, String.toList_append]; rfl
  rw [ladderSuffixes, List.mem_append] at h
  rcases h with h | h
  · obtain ⟨k, -, rfl⟩ := List.mem_map.1 h
    exact key "_" k
  · split at h
    · obtain ⟨k, -, rfl⟩ := List.mem_map.1 h
      exact key "2_" k
    · cases h

theorem nodup_ladderSuffixes : (ladderSuffixes c).Nodup := by
  have inj (t : String) : Function.Injective fun k : Nat => t ++ toString k := fun a b h =>
    toString_injective ((String.append_right_inj t).1 h)
  rw [ladderSuffixes, List.nodup_append]
  refine ⟨List.nodup_range.map (inj "FE_"), ?_, ?_⟩
  · split
    · exact List.nodup_range.map (inj "FE2_")
    · exact List.nodup_nil
  · intro s hs t ht hst
    subst hst
    obtain ⟨k, -, rfl⟩ := List.mem_map.1 hs
    split at ht
    · obtain ⟨j, -, hj⟩ := List.mem_map.1 ht
      have := congrArg (fun s : String => s.toList.take 3) hj
      simp only [String.toList_append] at this
      exact absurd this (by simp)
    · cases ht

theorem nodup_suffixes : (ladderSuffixes c ++ onceSuffixes c).Nodup := by
  -- only the suffixes of ladders begin as one
  refine List.nodup_append.2 ⟨nodup_ladderSuffixes c, (onceSuffixes_spec c).1, fun s hs t ht hst => ?_⟩
  subst hst
  have h1 := startsAsLevel_ladderSuffixes c hs
  rw [((onceSuffixes_spec c).2.2 s ht).1] at h1
  cases h1

/-- The macros of a header but for `HEADER_FUNC`, which a variant with guards defines twice. -/
def onceMacros : List Macro :=
  Ladder.expandMacro :: (singlePart c ++ pairPart c ++ (tablePart c ++ registrationPart c (registrationId c)))

theorem names_onceMacros : (onceMacros c).map (·.name) =
    expandName :: (ladderSuffixes c ++ onceSuffixes c).map (c.stem ++ ·) := by
  rw [onceMacros, List.map_cons, List.map_append, names_ladders, List.map_append, names_table,
    names_registration, ← List.map_append, onceSuffixes, ← List.map_append]
  rfl

theorem endsLikeName_suffixes : ∀ s ∈ ladderSuffixes c ++ onceSuffixes c, Naming.endsLikeName s = true := by
  intro s hs
  rcases List.mem_append.1 hs with hs | hs
  · rw [ladderSuffixes, List.mem_append] at hs
    rcases hs with hs | hs
    · obtain ⟨k, -, rfl⟩ := List.mem_map.1 hs
      exact Naming.endsLikeName_number k (by decide)
    · split at hs
      · obtain ⟨k, -, rfl⟩ := List.mem_map.1 hs
        exact Naming.endsLikeName_number k (by decide)
      · cases hs
  · exact ((onceSuffixes_spec c).2.2 s hs).2

theorem nodup_names : ((onceMacros c).map (·.name)).Nodup := by
  rw [names_onceMacros, List.nodup_cons]
  refine ⟨fun h => ?_, (nodup_suffixes c).map fun a b h => (String.append_right_inj c.stem).1 h⟩
  obtain ⟨s, hs, he⟩ := List.mem_map.1 h
  exact Naming.append_ne_expandName c.stem (endsLikeName_suffixes c s hs) he

theorem headerFunc_not_mem_names : c.naming.headerFunc ∉ (onceMacros c).map (·.name) := by
  rw [names_onceMacros, List.mem_cons, not_or]
  constructor
  · exact Naming.append_ne_expandName c.stem (t := "HEADER_FUNC") (by decide)
  · intro h
    obtain ⟨s, hs, he⟩ := List.mem_map.1 h
    obtain rfl := (String.append_right_inj c.stem).1 he
    rcases List.mem_append.1 hs with hs | hs
    · exact absurd (startsAsLevel_ladderSuffixes c hs) (by decide)
    · exact (onceSuffixes_spec c).2.1 hs

theorem role_singlePart : ∀ m ∈ singlePart c, m.role ≠ .headerFunc := by
  intro m hm
  obtain ⟨k, -, rfl⟩ := List.mem_map.1 hm
  match k with
  | 0 | 1 | _ + 2 => nofun

theorem role_pairPart : ∀ m ∈ pairPart c, m.role ≠ .headerFunc := by
  unfold pairPart
  rcases c.effectivePairPolicy with _ | p
  · nofun
  · intro m hm
    obtain ⟨k, -, rfl⟩ := List.mem_map.1 hm
    match k with
    | 0 | 1 | 2 | _ + 3 => nofun

theorem role_tablePart : ∀ m ∈ tablePart c, m.role ≠ .headerFunc := by
  intro m hm
  unfold tablePart at hm
  split at hm
  all_goals
    simp only [List.mem_cons, List.not_mem_nil, or_false] at hm
    rcases hm with rfl | rfl | rfl <;> nofun

theorem role_registrationPart (firstId : Nat) : ∀ m ∈ registrationPart c firstId, m.role = .registration := by
  intro m hm
  have family {one : Macro} {many selector : String} {selectorId oneId : Nat} {doc : Option String}
      (h1 : one.role = .registration) (h : m ∈ familyPart one many selector selectorId oneId doc) :
      m.role = .registration := by
    simp only [familyPart, List.mem_cons, List.not_mem_nil, or_false] at h
    rcases h with rfl | rfl
    · exact h1
    · rfl
  rw [registrationPart, List.mem_append, List.mem_append, List.mem_append, List.mem_singleton] at hm
  rcases hm with ((hm | hm) | hm) | rfl
  · exact family rfl hm
  · exact family rfl hm
  · unfold aliasesPart at hm
    split at hm
    · cases hm
    · rcases List.mem_append.1 hm with hm | hm
      · exact family rfl hm
      · exact family rfl hm
  · rfl

theorem role_headerFuncPart : ∀ m ∈ headerFuncPart c, m.role = .headerFunc ∧ m.name = c.naming.headerFunc := by
  intro m hm
  unfold headerFuncPart at hm
  split at hm
  · simp only [List.mem_cons, List.not_mem_nil, or_false] at hm
    rcases hm with rfl | rfl <;> exact ⟨rfl, rfl⟩
  · cases hm

/-- Without the definitions of `HEADER_FUNC` the layout is `onceMacros`. -/
theorem filter_layout : (layout c).filter (fun m => m.role != .headerFunc) = onceMacros c := by
  have keep {ms : List Macro} (h : ∀ m ∈ ms, m.role ≠ .headerFunc) :
      ms.filter (fun m => m.role != .headerFunc) = ms :=
    List.filter_eq_self.2 fun m hm => bne_iff_ne.2 (h m hm)
  have drop : (headerFuncPart c).filter (fun m => m.role != .headerFunc) = [] :=
    List.filter_eq_nil_iff.2 fun m hm => by rw [(role_headerFuncPart c m hm).1]; decide
  rw [layout, onceMacros, List.filter_cons_of_pos (by rfl), List.filter_append, List.filter_append,
    List.filter_append, List.filter_append, keep (role_singlePart c), keep (role_pairPart c),
    keep (role_tablePart c), drop,
    keep fun m hm => by rw [role_registrationPart c _ m hm]; decide]
  simp only [List.append_nil, List.append_assoc]

theorem mem_onceMacros {m : Macro} (hm : m ∈ layout c) (hr : m.role ≠ .headerFunc) : m ∈ onceMacros c := by
  rw [← filter_layout, List.mem_filter]; exact ⟨hm, bne_iff_ne.2 hr⟩

theorem mem_headerFuncPart {m : Macro} (hm : m ∈ layout c) (hr : m.role = .headerFunc) :
    m ∈ headerFuncPart c := by
  have hno : m ∉ onceMacros c := by
    rw [← filter_layout, List.mem_filter, hr]
    exact fun h => absurd h.2 (by decide)
  simp only [onceMacros, layout, List.mem_cons, List.mem_append] at hno hm
  tauto

/-! ## Macros by name -/

/-- Every macro but `HEADER_FUNC` is the one found under its name. -/
theorem lookup_build {id : Nat} {m : Macro} (h : (layout c)[id]? = some m) (hr : m.role ≠ .headerFunc) :
    (build c).sheet.lookup m.name = some id := by
  obtain ⟨first, hle, hf⟩ := (indexed_build c).lookup_le (toList_build c ▸ h)
  rw [hf]
  rw [indexed_build c m.name, toList_build, List.findIdx?_eq_some_iff_getElem] at hf
  obtain ⟨hlt, hn, -⟩ := hf
  have hn := eq_of_beq hn
  rcases Nat.lt_or_eq_of_le hle with hlt' | rfl
  · exfalso
    by_cases hr' : (layout c)[first].role = .headerFunc
    · -- a declaration has a name that no other macro has
      apply headerFunc_not_mem_names c
      rw [← (role_headerFuncPart c _ (mem_headerFuncPart c (List.getElem_mem hlt) hr')).2, hn]
      exact List.mem_map_of_mem (mem_onceMacros c (List.mem_of_getElem? h) hr)
    · have hp := nodup_names c
      rw [List.Nodup, List.pairwise_map, ← filter_layout, List.pairwise_filter] at hp
      obtain ⟨hid, rfl⟩ := List.getElem?_eq_some_iff.1 h
      exact List.pairwise_iff_getElem.1 hp first id hlt hid hlt' (bne_iff_ne.2 hr') (bne_iff_ne.2 hr) hn
  · rfl

theorem isName_layout : ∀ m ∈ layout c, Naming.isName m.name = true := by
  intro m hm
  by_cases hr : m.role = .headerFunc
  · rw [(role_headerFuncPart c m (mem_headerFuncPart c hm hr)).2]
    exact Naming.isName_append c.stem (t := "HEADER_FUNC") (by decide)
  · have hm : m.name ∈ (onceMacros c).map (·.name) := List.mem_map_of_mem (mem_onceMacros c hm hr)
    rw [names_onceMacros, List.mem_cons] at hm
    rcases hm with hm | hm
    · rw [hm]
      rfl
    · obtain ⟨s, hs, hs'⟩ := List.mem_map.1 hm
      rw [← hs']
      exact Naming.isName_append c.stem (endsLikeName_suffixes c s hs)

/-- A name that is neither a level's nor `HEADER_FUNC` is defined when it is one of the others. -/
theorem mem_names_iff {t : String} (he : Naming.endsLikeName t = true) (hl : startsAsLevel t = false)
    (hf : t ≠ "HEADER_FUNC") : (∃ m ∈ layout c, m.name = c.stem ++ t) ↔ t ∈ onceSuffixes c := by
  constructor
  · rintro ⟨m, hm, hn⟩
    by_cases hr : m.role = .headerFunc
    · have := (role_headerFuncPart c m (mem_headerFuncPart c hm hr)).2
      rw [hn] at this
      exact absurd ((String.append_right_inj c.stem).1 this) hf
    · have hm : m.name ∈ (onceMacros c).map (·.name) := List.mem_map_of_mem (mem_onceMacros c hm hr)
      rw [names_onceMacros, hn, List.mem_cons] at hm
      rcases hm with hm | hm
      · exact absurd hm (Naming.append_ne_expandName c.stem he)
      · obtain ⟨s, hs, hs'⟩ := List.mem_map.1 hm
        obtain rfl := (String.append_right_inj c.stem).1 hs'
        rcases List.mem_append.1 hs with hs | hs
        · rw [startsAsLevel_ladderSuffixes c hs] at hl
          cases hl
        · exact hs
  · intro ht
    have : c.stem ++ t ∈ (onceMacros c).map (·.name) := by
      rw [names_onceMacros]
      exact List.mem_cons_of_mem _ (List.mem_map_of_mem (List.mem_append_right _ ht))
    obtain ⟨m, hm, hn⟩ := List.mem_map.1 this
    rw [← filter_layout] at hm
    exact ⟨m, (List.mem_filter.1 hm).1, hn⟩

/-- A word that looks like no name is not defined. -/
theorem lookup_build_eq_none {w : String} (hw : Naming.isName w = false) :
    (build c).sheet.lookup w = none := by
  apply (indexed_build c).lookup_eq_none
  rintro m hm rfl
  rw [toList_build] at hm
  exact absurd (hw.symm.trans (isName_layout c m hm)) (by decide)

end NamedDispatch.Header
