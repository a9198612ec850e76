/-
What a table tells of itself. Its descriptions are those of the names bound, each once and in the order of
their bytes, and what was described once is described so ever after.
-/
import NamedDispatch.Proofs.Table.Later
import NamedDispatch.Proofs.Text.Order

namespace NamedDispatch

variable {σ : Type}

namespace Table

variable {t t' : Table σ} {name : String} {d : Description}

/-! ## Names in order -/

theorem sortedNames_perm (t : Table σ) : t.sortedNames.Perm (t.names.map Prod.fst) := List.mergeSort_perm ..

theorem mem_sortedNames : name ∈ t.sortedNames ↔ t.contains name = true := by
  rw [t.sortedNames_perm.mem_iff, contains_iff]

theorem WellFormed.sortedNames_pairwise (hw : t.WellFormed) : t.sortedNames.Pairwise (· < ·) :=
  Text.pairwise_lt_mergeSort id ((List.map_id _).symm ▸ hw.distinct)

/-! ## Descriptions -/

theorem name_of_describeName (h : t.describeName name = some d) : d.name = name := by
  obtain ⟨b, _, rfl⟩ := Option.map_eq_some_iff.1 h
  rfl

theorem mem_describe : d ∈ t.describe ↔ t.describeName d.name = some d := by
  rw [describe, List.mem_filterMap]
  constructor
  · rintro ⟨name, _, hd⟩
    rwa [name_of_describeName hd]
  · intro hd
    obtain ⟨b, hf, _⟩ := Option.map_eq_some_iff.1 hd
    obtain ⟨i, hn, _⟩ := find?_eq_some_iff.1 hf
    exact ⟨d.name, mem_sortedNames.2 (contains_of_lookup hn), hd⟩

/-- Every name bound has a description, so that none is left out. -/
theorem WellFormed.describe_names (hw : t.WellFormed) : t.describe.map Description.name = t.sortedNames := by
  have each : ∀ name ∈ t.sortedNames, (t.describeName name).map Description.name = some name := by
    intro name hm
    obtain ⟨b, hb⟩ := Option.isSome_iff_exists.1 (hw.contains_iff_find?.1 (mem_sortedNames.1 hm))
    rw [describeName, hb]
    rfl
  rw [describe, List.map_filterMap, List.filterMap_congr each, List.filterMap_some]

theorem WellFormed.size_eq (hw : t.WellFormed) : t.size = t.describe.length := by
  rw [← List.length_map Description.name, hw.describe_names, t.sortedNames_perm.length_eq, List.length_map, size]

/-- What is described stays described as it is. -/
theorem Continues.describe_subset (h : t.Continues t') : t.describe ⊆ t'.describe :=
  fun _ hd => mem_describe.2 (h.describeName (mem_describe.1 hd))

theorem WellFormed.exists_visible (hw : t.WellFormed) (hc : t.contains name = true) :
    ∃ c ∈ name.toList, Text.isBlank c = false := by
  obtain ⟨p, hp, rfl⟩ := List.mem_map.1 (contains_iff.1 hc)
  exact Text.isBlankText_eq_false_iff.1 (hw.visible p hp)

/-! ## Every run -/

/-- In a table in use `describe` lists each name bound once, in the strict order of the names' bytes, and
nothing else; `size` is their number, and each has a character that is not blank. Whatever is asked of the table
afterwards, these descriptions stay, and a name stays bound to the same function. -/
theorem describe_run (s : σ) (ops later : List (Operation σ)) :
    let t := ((empty : Table σ).run s ops).2.1
    let t' := ((empty : Table σ).run s (ops ++ later)).2.1
    (t.describe.map Description.name).Pairwise (fun a b => a.toUTF8.data.toList < b.toUTF8.data.toList) ∧
      (∀ name, name ∈ t.describe.map Description.name ↔ t.contains name = true) ∧
      t.size = t.describe.length ∧
      (∀ name, t.contains name = true → ∃ c ∈ name.toList, Text.isBlank c = false) ∧
      t.describe ⊆ t'.describe ∧
      ∀ name i b, t.names.lookup name = some i → t.bindings[i]? = some b →
        t'.names.lookup name = some i ∧ ∃ b', t'.bindings[i]? = some b' ∧ b.Continues b' := by
  intro t t'
  have hw : t.WellFormed := run_wellFormed s ops
  have hc : t.Continues t' := continues_run_append empty s ops later
  refine ⟨?_, fun name => ?_, hw.size_eq, fun name => hw.exists_visible, hc.describe_subset,
    fun name i b hn hb => ⟨hc.lookup hn, hc.bindings i b hb⟩⟩
  · rw [hw.describe_names]
    refine hw.sortedNames_pairwise.imp fun {a b} hlt => ?_
    rw [Text.toUTF8_eq, Text.toUTF8_eq]
    exact Text.utf8_lt_utf8 (String.lt_iff.1 hlt)
  · rw [hw.describe_names, mem_sortedNames]

end Table

end NamedDispatch
