/-
The names that a header defines, in order (`definedNames`). They are those of the `#define` lines of its text,
none but `HEADER_FUNC` is there twice, and the sizes of the header count them.
-/
import NamedDispatch.Proofs.Header.Definitions

namespace NamedDispatch.Header

variable (c : Config)

/-! ## The sequence -/

/-- The rest `HEADER_FUNC` once for servers and once for clients, in a variant with guards. -/
def functionSuffixes : List String := if c.wording.guarded then ["HEADER_FUNC", "HEADER_FUNC"] else []

/-- What follows the stem in the names from `GET_MACRO` on. -/
def laterSuffixes : List String :=
  tableSuffixes c.effectivePairPolicy.isSome ++ functionSuffixes c ++ registrationSuffixes c.effectivePairPolicy

/-- The names that a header defines, in the order of its definitions. -/
def definedNames : List String :=
  expandName :: (levelNames c ++ pairLevelNames c ++ (laterSuffixes c).map (c.stem ++ ·))

theorem length_levelNames : (levelNames c).length = c.top + 1 := by simp [levelNames]

theorem length_pairLevelNames :
    (pairLevelNames c).length = if c.effectivePairPolicy.isSome then c.top + 1 else 0 := by
  unfold pairLevelNames; split <;> simp

theorem names_headerFuncPart : (headerFuncPart c).map (·.name) = (functionSuffixes c).map (c.stem ++ ·) := by
  unfold headerFuncPart functionSuffixes
  cases c.wording.guarded <;> rfl

/-- The macros of `layout` have the names of the sequence. -/
theorem names_layout : (layout c).map (·.name) = definedNames c := by
  rw [layout, definedNames, laterSuffixes]
  simp only [List.map_cons, List.map_append, names_singlePart, names_pairPart, names_table, names_headerFuncPart,
    names_registration, List.append_assoc]
  rfl

/-! ## Repetitions -/

theorem name_eq_headerFunc_iff {m : Macro} (hm : m ∈ layout c) :
    m.name = c.naming.headerFunc ↔ m.role = .headerFunc := by
  constructor
  · intro hn
    by_contra hr
    exact headerFunc_not_mem_names c (hn ▸ List.mem_map_of_mem (mem_onceMacros c hm hr))
  · intro hr
    exact (role_headerFuncPart c m (mem_headerFuncPart c hm hr)).2

/-- No name but `HEADER_FUNC` is there twice. -/
theorem nodup_definedNames : ((definedNames c).filter (· != c.naming.headerFunc)).Nodup := by
  have once : (layout c).filter ((· != c.naming.headerFunc) ∘ (·.name)) = onceMacros c := by
    rw [← filter_layout]
    refine List.filter_congr fun m hm => ?_
    simp [bne, name_eq_headerFunc_iff c hm]
  rw [← names_layout, List.filter_map, once]
  exact nodup_names c

theorem count_definedNames :
    (definedNames c).count c.naming.headerFunc = if c.wording.guarded then 2 else 0 := by
  have once := List.count_eq_zero.2 (headerFunc_not_mem_names c)
  have functions : ((headerFuncPart c).map (·.name)).count c.naming.headerFunc =
      if c.wording.guarded then 2 else 0 := by
    rw [← length_headerFuncPart, ← List.length_map (·.name)]
    exact List.count_eq_length.2 fun name hn => by
      obtain ⟨m, hm, rfl⟩ := List.mem_map.1 hn
      exact (role_headerFuncPart c m hm).2.symm
  rw [← names_layout, layout]
  simp only [onceMacros, List.map_cons, List.map_append, List.count_cons, List.count_append] at once ⊢
  omega

/-! ## Generated headers -/

/-- The `#define` lines have the names of the sequence. -/
theorem names_lines_build {c : Config} (hs : Text.isStem c.stem = true) :
    Definition.names (Text.lines (build c).render) = definedNames c := by
  rw [← names_layout, ← Definition.names_lines (readable_layout hs), ← definitionLines_build hs, Definition.names,
    Definition.names, List.filter_filter]
  simp only [Bool.and_self]

/-- A header defines `definedNames`, in this order and nothing else, on the lines of its text as on its sheet.
They are identifiers, and only `HEADER_FUNC` is there twice, in a variant with guards. The sizes in the summary
are the lengths of the sequence and of the ladders in it. -/
theorem names_in_order {c : Config} {h : Header} (hg : generate c = .ok h) :
    h.sheet.defs.toList.map (·.name) = definedNames c ∧
    Definition.names (Text.lines h.render) = definedNames c ∧
    (∀ name ∈ definedNames c, Text.isIdentifier name = true) ∧
    ((definedNames c).filter (· != c.naming.headerFunc)).Nodup ∧
    (definedNames c).count c.naming.headerFunc = (if c.wording.guarded then 2 else 0) ∧
    h.summary.macroCount = (definedNames c).length ∧
    h.summary.ladderLevels = (levelNames c).length ∧
    h.summary.pairLadderLevels = (pairLevelNames c).length := by
  obtain ⟨rfl, hs⟩ := eq_build hg
  have defined : (build c).sheet.defs.toList.map (·.name) = definedNames c := by
    rw [toList_build, names_layout]
  refine ⟨defined, names_lines_build hs, ?_, nodup_definedNames c, count_definedNames c, ?_, ?_, ?_⟩
  · rw [← names_layout]
    intro name hn
    obtain ⟨m, hm, rfl⟩ := List.mem_map.1 hn
    exact isIdentifier_layout hs m hm
  · rw [← defined, List.length_map, Array.length_toList]
    rfl
  · rw [length_levelNames, summary, build_eq]
    exact List.length_range'
  · rw [length_pairLevelNames, summary, pairLadder, build_eq]
    rcases c.effectivePairPolicy with _ | p
    · rfl
    · exact List.length_range'

theorem names_in_order_classic : Definition.names (Text.lines (build ⟨1, .classic, none, "RPC_"⟩).render) =
    ["EXPAND", "RPC_FE_0", "RPC_FE_1", "RPC_FE2_0", "RPC_FE2_1", "RPC_GET_MACRO", "RPC_FOR_EACH", "RPC_FOR_EACH2",
      "RPC_HEADER_FUNC", "RPC_HEADER_FUNC", "RPC_ATTACH_FUNC", "RPC_ATTACH_FUNCS", "RPC_ATTACH_CACHED_FUNC",
      "RPC_ATTACH_CACHED_FUNCS", "RPC_ALIAS_FUNC", "RPC_MULTI_ALIAS_FUNC", "RPC_ALIAS_CACHED_FUNC",
      "RPC_MULTI_ALIAS_CACHED_FUNC", "RPC_DEFAULT_DISPATCH"] := by
  have hg : generate ⟨1, .classic, none, "RPC_"⟩ = .ok (build ⟨1, .classic, none, "RPC_"⟩) := by
    rw [generate_eq]
    rfl
  rw [(names_in_order hg).2.1]
  rfl

end NamedDispatch.Header
