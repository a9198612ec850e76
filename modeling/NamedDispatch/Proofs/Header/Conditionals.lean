/-
Which definitions of a header are left when its conditionals are evaluated, from top to bottom, for the names
that are defined where the header is read. Every conditional is closed and none is closed that is not open,
the definitions left have names of their own, and each of them comes after those it refers to, which are left
as well. The guard around the ladders asks for more than the guard around `ATTACH_FUNC` and the others does,
which is why `RPC_HPP_DOXYGEN_GEN` may not be defined.
-/
import NamedDispatch.Proofs.Header.Reading

namespace NamedDispatch

/-! ## The conditionals of a header -/

namespace Header

open Sheet (Entry)
open Reading (serving calling)

variable (c : Config)

/-- The macros before `HEADER_FUNC`. -/
def front : List Macro := Ladder.expandMacro :: (singlePart c ++ pairPart c ++ tablePart c)

theorem layout_eq_front : layout c = front c ++ (headerFuncPart c ++ registrationPart c (registrationId c)) := by
  simp only [layout, front, List.cons_append, List.append_assoc]

theorem texts_defines (ms : List Macro) : (ms.map Entry.define).filterMap Entry.text? = ms.map Macro.line := by
  rw [List.filterMap_map]
  exact congrFun List.filterMap_eq_map ms

/-- The lines of a header that the preprocessor reads. -/
theorem texts_entries : (entries c).filterMap Entry.text? = "#pragma once" :: if c.wording.guarded then
    Wording.ladderGuard :: ((front c).map Macro.line ++ [Wording.endGuard]) ++
      ([Wording.serverGuard, (Registration.serverFunc c.naming).line, Wording.clientGuard,
        (Registration.clientFunc c.naming).line, Wording.endGuard] ++
      Wording.serverGuard :: ((registrationPart c (registrationId c)).map Macro.line ++ [Wording.endGuard]))
    else (layout c).map Macro.line := by
  have pair : (pairEntries c).filterMap Entry.text? = (pairPart c).map Macro.line := by
    unfold pairEntries pairPart
    split
    · rfl
    · rw [List.filterMap_append, texts_defines]
      exact List.append_nil _
  have registration (firstId : Nat) :
      (registrationEntries c firstId).filterMap Entry.text? = (registrationPart c firstId).map Macro.line := by
    unfold registrationEntries registrationPart aliasesEntries aliasesPart
    rcases c.effectivePairPolicy with _ | p
    all_goals
      simp only [List.filterMap_append, texts_defines, List.map_append]
      rfl
  simp only [entries, List.filterMap_append, texts_defines, pair, registration]
  unfold openingEntries betweenEntries closingEntries front layout headerFuncPart
  split <;> simp [List.filterMap_cons, Entry.text?]

/-- The macros of a header, each with whether it is left for some names that are defined. -/
def left (names : List String) : List (Macro × Bool) :=
  if c.wording.guarded then
    (front c).map (·, serving names) ++
      [(Registration.serverFunc c.naming, serving names),
        (Registration.clientFunc c.naming, !serving names && calling names)] ++
      (registrationPart c (registrationId c)).map (·, serving names)
  else (layout c).map (·, true)

theorem evaluate_build (hs : Text.isStem c.stem = true) {names : List String}
    (hd : "RPC_HPP_DOXYGEN_GEN" ∉ names) :
    Reading.evaluate names (Text.lines (build c).render) = some ((left c names).map fun (m, b) => (m.line, b)) := by
  have readable : ∀ m ∈ layout c, (m.Legible ∧ Text.isIdentifier m.name = true) ∧ Naming.isName m.name = true :=
    fun m hm => ⟨readable_layout hs m hm, isName_layout c m hm⟩
  have start := Reading.outside_start names
  rw [Reading.evaluate, ← Reading.foldlM_filter, directiveLines_build hs, texts_entries, List.foldlM_cons,
    Reading.step_pragma]
  simp only [Option.bind_eq_bind, Option.bind_some]
  unfold left
  split
  · -- the parts one after the other, each from outside of all conditionals
    rw [layout_eq_front] at readable
    simp only [List.forall_mem_append] at readable
    obtain ⟨front, -, registration⟩ := readable
    obtain ⟨s₁, run₁, out₁, defs₁⟩ := start.part (Reading.step_ladderGuard start.active hd) front
    obtain ⟨s₂, run₂, out₂, defs₂⟩ := out₁.functions c.naming
      (Text.isIdentifier_append_of_isStem hs (t := "HEADER_FUNC") (by decide))
    obtain ⟨s₃, run₃, out₃, defs₃⟩ := out₂.part (Reading.step_serverGuard out₂.active) registration
    rw [List.foldlM_append, run₁]
    simp only [Option.bind_eq_bind, Option.bind_some]
    rw [List.foldlM_append, run₂]
    simp only [Option.bind_eq_bind, Option.bind_some]
    rw [run₃, Option.bind_some, out₃.conditionals, List.isEmpty_nil, if_pos rfl, defs₃, defs₂, defs₁, out₂.served]
    simp [Reading.start, Function.comp_def]
  · rw [Reading.foldlM_lines fun m hm => (readable m hm).1]
    simp [Reading.meet, Reading.start, Reading.active]

/-! ## References -/

theorem length_front : (front c).length = counterId c + 2 + if c.effectivePairPolicy.isSome then 1 else 0 := by
  rw [front, List.length_cons, List.length_append, List.length_append, length_tablePart, counterId_eq]
  omega

theorem top_lt_counterId : c.top + 1 < counterId c := by
  unfold counterId
  split <;> omega

theorem refs_singlePart : ∀ m ∈ singlePart c, ∀ r ∈ m.refs, r < counterId c := by
  intro m hm
  have counter := top_lt_counterId c
  obtain ⟨k, hk, rfl⟩ := List.mem_map.1 hm
  have hk := List.mem_range.1 hk
  match k with
  | 0 | 1 => nofun
  | k + 2 =>
    intro r hr
    simp only [Ladder.single, List.mem_cons, List.not_mem_nil, or_false] at hr
    omega

theorem refs_pairPart : ∀ m ∈ pairPart c, ∀ r ∈ m.refs, r < counterId c := by
  unfold pairPart counterId
  rcases c.effectivePairPolicy with _ | p
  · nofun
  · intro m hm
    have step := p.step_bounds
    obtain ⟨k, hk, rfl⟩ := List.mem_map.1 hm
    have hk := List.mem_range.1 hk
    match k with
    | 0 | 1 | 2 => nofun
    | k + 3 =>
      intro r hr
      simp only [Ladder.pair, List.mem_cons, List.not_mem_nil, or_false] at hr
      simp only
      omega

theorem refs_tablePart : ∀ m ∈ tablePart c, ∀ r ∈ m.refs, r ≤ counterId c := by
  have counter := top_lt_counterId c
  have counterRefs : ∀ r ∈ (Selector.counterMacro c.naming c.top).refs, r ≤ counterId c := by
    intro r hr
    cases hr
  have single : ∀ r ∈ (forEachMacro c).refs, r ≤ counterId c := by
    intro r hr
    simp only [forEachMacro, Selector.listing, singleLadder, Ladder.descending, List.mem_cons, List.mem_reverse,
      List.mem_range'_1] at hr
    omega
  unfold tablePart
  split
  · rename_i hp
    have pair : ∀ r ∈ (forEachPairMacro c).refs, r ≤ counterId c := by
      have height : counterId c = c.top + 2 + (c.top + 1) := by
        obtain ⟨p, hp⟩ := Option.isSome_iff_exists.1 hp
        rw [counterId, hp]
      intro r hr
      simp only [forEachPairMacro, Selector.listing, doubleLadder, Ladder.descending, List.mem_cons,
        List.mem_reverse, List.mem_range'_1] at hr
      omega
    simp only [List.forall_mem_cons, List.not_mem_nil, false_implies, implies_true, and_true]
    exact ⟨counterRefs, single, pair⟩
  · simp only [List.forall_mem_cons, List.not_mem_nil, false_implies, implies_true, and_true]
    exact ⟨counterRefs, single⟩

/-- What servers use refers to `EXPAND`, the selectors and macros of its own part. -/
theorem refs_registrationPart (firstId : Nat) :
    ∀ m ∈ registrationPart c firstId, ∀ r ∈ m.refs, r < (front c).length ∨ firstId ≤ r := by
  have length := length_front c
  have family {one : Macro} {many selector : String} {selectorId oneId : Nat} {doc : Option String}
      (h1 : one.refs = []) (hs : selectorId < (front c).length) (ho : firstId ≤ oneId) :
      ∀ m ∈ familyPart one many selector selectorId oneId doc, ∀ r ∈ m.refs, r < (front c).length ∨ firstId ≤ r := by
    intro m hm r hr
    simp only [familyPart, List.mem_cons, List.not_mem_nil, or_false] at hm
    rcases hm with rfl | rfl
    · rw [h1] at hr
      cases hr
    · simp only [Registration.repeating, List.mem_cons, List.not_mem_nil, or_false] at hr
      omega
  intro m hm
  rw [registrationPart, List.mem_append, List.mem_append, List.mem_append, List.mem_singleton] at hm
  rcases hm with ((hm | hm) | hm) | rfl
  · exact family rfl (by omega) (by omega) m hm
  · exact family rfl (by omega) (by omega) m hm
  · unfold aliasesPart at hm
    split at hm
    · cases hm
    · rename_i p hp
      have selector : counterId c + 2 < (front c).length := by
        rw [length, hp]
        exact Nat.lt_succ_self _
      rcases List.mem_append.1 hm with hm | hm
      · exact family rfl selector (by omega) m hm
      · exact family rfl selector (by omega) m hm
  · intro r hr
    simp only [Registration.defaultMacro, List.mem_cons, List.not_mem_nil, or_false] at hr
    omega

/-- No macro refers to `HEADER_FUNC`. -/
theorem refs_layout {m : Macro} (hm : m ∈ layout c) : ∀ r ∈ m.refs, r < (front c).length ∨ registrationId c ≤ r := by
  have length := length_front c
  simp only [layout, List.mem_cons, List.mem_append] at hm
  rcases hm with rfl | (((hm | hm) | hm) | hm) | hm
  · intro r hr
    cases hr
  · exact fun r hr => .inl (by have := refs_singlePart c m hm r hr; omega)
  · exact fun r hr => .inl (by have := refs_pairPart c m hm r hr; omega)
  · exact fun r hr => .inl (by have := refs_tablePart c m hm r hr; omega)
  · unfold headerFuncPart at hm
    split at hm
    · simp only [List.mem_cons, List.not_mem_nil, or_false] at hm
      rcases hm with rfl | rfl <;> intro r hr <;> cases hr
    · cases hm
  · exact refs_registrationPart c _ m hm

/-! ## What is left -/

section

variable (names : List String)

theorem map_left : (left c names).map (·.1) = layout c := by
  unfold left
  split
  · rename_i hg
    rw [layout_eq_front, headerFuncPart, if_pos hg]
    simp [Function.comp_def]
  · simp [Function.comp_def]

variable {c} {names}

theorem onceMacros_eq : onceMacros c = front c ++ registrationPart c (registrationId c) := by
  simp only [onceMacros, front, List.cons_append, List.append_assoc]

theorem layout_of_unguarded (hg : ¬c.wording.guarded = true) : layout c = onceMacros c := by
  rw [layout_eq_front, headerFuncPart, if_neg hg, onceMacros_eq]
  rfl

/-- The macros that are left have names of their own. -/
theorem nodup_left : (((left c names).filter (·.2)).map fun (m, _) => m.name).Nodup := by
  have once := nodup_names c
  have declaration := headerFunc_not_mem_names c
  unfold left
  split
  · rw [onceMacros_eq, List.map_append] at once declaration
    cases hs : serving names with
    | true =>
      -- the declaration for servers is left between the macros that are defined once
      have : (front c ++ [Registration.serverFunc c.naming] ++ registrationPart c (registrationId c)).map (·.name) =
          (front c).map (·.name) ++ c.naming.headerFunc :: (registrationPart c (registrationId c)).map (·.name) := by
        simp [Registration.serverFunc]
      have nodup := List.nodup_middle.2 (List.nodup_cons.2 ⟨declaration, once⟩)
      rw [← this] at nodup
      simpa [List.filter_append, List.filter_map, Function.comp_def, List.filter_cons] using nodup
    | false =>
      cases calling names <;> simp [List.filter_append, List.filter_map, Function.comp_def]
  · rename_i hg
    rw [layout_of_unguarded hg]
    simpa [List.filter_map, Function.comp_def] using once

theorem registrationId_of_guarded (hg : c.wording.guarded = true) : registrationId c = (front c).length + 2 := by
  rw [length_front, registrationId, if_pos hg]

/-- In a variant with guards, what stands before `HEADER_FUNC` is left to servers only. -/
theorem getElem?_left_front (hg : c.wording.guarded = true) {r : Nat} (hr : r < (front c).length) :
    (left c names)[r]? = some ((front c)[r], serving names) := by
  rw [left, if_pos hg, List.append_assoc, List.getElem?_append_left (by rwa [List.length_map]), List.getElem?_map,
    List.getElem?_eq_getElem hr]
  rfl

/-- The same holds of what stands after `HEADER_FUNC`. -/
theorem getElem?_left_registration (hg : c.wording.guarded = true) {k : Nat}
    (hk : k < (registrationPart c (registrationId c)).length) : (left c names)[registrationId c + k]? =
      some ((registrationPart c (registrationId c))[k], serving names) := by
  have before : ((front c).map (·, serving names) ++ [(Registration.serverFunc c.naming, serving names),
      (Registration.clientFunc c.naming, !serving names && calling names)]).length = registrationId c := by
    rw [registrationId_of_guarded hg, List.length_append, List.length_map]
    rfl
  rw [left, if_pos hg, List.getElem?_append_right (by omega), before, Nat.add_sub_cancel_left, List.getElem?_map,
    List.getElem?_eq_getElem hk]
  rfl

/-- What a macro that is left refers to is left. -/
theorem refs_left {id : Nat} {m : Macro} (hm : (left c names)[id]? = some (m, true)) {r : Nat} (hr : r ∈ m.refs)
    (hlt : r < id) : ∃ m', (left c names)[r]? = some (m', true) := by
  have mem : m ∈ layout c := by
    rw [← map_left c names]
    exact List.mem_map.2 ⟨_, List.mem_of_getElem? hm, rfl⟩
  have range : r < (left c names).length := Nat.lt_trans hlt (List.getElem?_eq_some_iff.1 hm).1
  by_cases hg : c.wording.guarded = true
  · cases hs : serving names with
    | true =>
      -- only the declaration for clients is not left, and nothing refers to it
      rcases refs_layout c mem r hr with place | place
      · exact ⟨_, hs ▸ getElem?_left_front hg place⟩
      · obtain ⟨k, rfl⟩ := Nat.exists_eq_add_of_le place
        have length : (left c names).length = registrationId c + (registrationPart c (registrationId c)).length := by
          rw [left, if_pos hg, registrationId_of_guarded hg]
          simp only [List.length_append, List.length_map, List.length_cons, List.length_nil]
        exact ⟨_, hs ▸ getElem?_left_registration hg (by omega)⟩
    | false =>
      rw [left, if_pos hg, hs] at hm
      have := List.mem_of_getElem? hm
      simp only [List.mem_append, List.mem_map, List.mem_cons, Prod.mk.injEq, List.not_mem_nil, or_false] at this
      rcases this with (⟨_, _, _, h⟩ | ⟨_, h⟩ | ⟨rfl, _⟩) | ⟨_, _, _, h⟩
      · cases h
      · cases h
      · cases hr
      · cases h
  · rw [left, if_neg hg, List.length_map] at range
    rw [left, if_neg hg, List.getElem?_map, List.getElem?_eq_getElem range]
    exact ⟨_, rfl⟩

end

/-- With the header read by `Reading.evaluate` for any names that are defined, but not for its documentation,
every conditional is closed and none is closed that is not open. The definitions met are those of the macros in
the order of their numbers; those that are left have names of their own, and whatever one of them refers to
stands on an earlier line and is left too. -/
theorem evaluate_left {c : Config} {h : Header} (hg : generate c = .ok h) (names : List String)
    (hd : "RPC_HPP_DOXYGEN_GEN" ∉ names) : ∃ definitions,
      Reading.evaluate names (Text.lines h.render) = some definitions ∧
      definitions.map (·.1) = h.sheet.defs.toList.map Macro.line ∧
      (Definition.names ((definitions.filter (·.2)).map (·.1))).Nodup ∧
      ∀ (id : Nat) (m : Macro), h.sheet.defs[id]? = some m → definitions[id]? = some (m.line, true) →
        ∀ r ∈ m.refs, r < id ∧ ∃ line, definitions[r]? = some (line, true) := by
  obtain ⟨rfl, hs⟩ := eq_build hg
  refine ⟨_, evaluate_build c hs hd, ?_, ?_, ?_⟩
  · rw [toList_build, ← map_left c names, List.map_map, List.map_map]
    rfl
  · -- the lines that are left are those of macros, and so their names are
    have lines : (((left c names).map fun (m, b) => (m.line, b)).filter (·.2)).map (·.1) =
        (((left c names).filter (·.2)).map (·.1)).map Macro.line := by
      rw [List.filter_map, List.map_map, List.map_map]
      rfl
    have readable : ∀ m ∈ ((left c names).filter (·.2)).map (·.1), m.Legible ∧ Text.isIdentifier m.name = true := by
      intro m hm
      obtain ⟨pair, hp, rfl⟩ := List.mem_map.1 hm
      have hm : pair.1 ∈ layout c := by
        rw [← map_left c names]
        exact List.mem_map_of_mem (List.mem_filter.1 hp).1
      exact ⟨legible_layout hs _ hm, isIdentifier_layout hs _ hm⟩
    rw [lines, Definition.names_lines readable, List.map_map]
    exact nodup_left
  · intro id m hm hleft r hr
    rw [← Array.getElem?_toList] at hm
    have below := ((ordered_build hs).sound id m hm).below r hr
    rw [toList_build, ← map_left c names, List.getElem?_map] at hm
    obtain ⟨⟨m', b⟩, hget, rfl⟩ := Option.map_eq_some_iff.1 hm
    rw [List.getElem?_map, hget] at hleft
    obtain rfl : b = true := (Prod.mk.inj (Option.some.inj hleft)).2
    obtain ⟨m'', hr''⟩ := refs_left hget hr below
    exact ⟨below, m''.line, by rw [List.getElem?_map, hr'']; rfl⟩

theorem evaluate_left_client : ∃ definitions,
    Reading.evaluate ["RPC_HPP_CLIENT_IMPL"] (Text.lines (build ⟨3, .classic, none, "RPC_"⟩).render) =
      some definitions ∧
    definitions.map (·.1) = (build ⟨3, .classic, none, "RPC_"⟩).sheet.defs.toList.map Macro.line ∧
    (Definition.names ((definitions.filter (·.2)).map (·.1))).Nodup := by
  have hg : generate ⟨3, .classic, none, "RPC_"⟩ = .ok (build ⟨3, .classic, none, "RPC_"⟩) := by
    rw [generate_eq]
    rfl
  obtain ⟨definitions, he, hl, hn, -⟩ := evaluate_left hg ["RPC_HPP_CLIENT_IMPL"] (by decide)
  exact ⟨definitions, he, hl, hn⟩

end Header

end NamedDispatch
