/-
Configurations are read back from their texts, whatever number, policy and stem they hold. The members that may
be left out can be, one or both: what was left out gets its default, and the rest stays as it was.
-/
import NamedDispatch.Header.ConfigText
import NamedDispatch.Header.Generate
import NamedDispatch.Proofs.Json.Typed

namespace NamedDispatch

open Json.Reader

/-- An object without the members of some names. -/
def Json.without (names : List String) : Json → Json
  | .obj members => .obj (members.filter fun m => !names.contains m.1)
  | j => j

namespace Config

variable {room : Nat} {f : Fields}

/-! ## Fields -/

theorem lookup_variant (v : Variant) : Variant.all.lookup v.name = some v := by cases v <;> rfl

theorem lookup_policy (p : PairPolicy) : PairPolicy.all.lookup p.name = some p := by cases p <;> rfl

theorem readPolicy_reads (policy : Option PairPolicy) :
    Reads (readPolicy room) (PairPolicy.optionJson policy).write policy := by
  cases policy with
  | none => exact nullable_null
  | some p => exact nullable_string (bareVariant_reads (lookup_policy p))

/-- A field that was not met before is read from what stands after the colon. -/
theorem field_reads {α : Type} {r : Json.Reader α} {text : List Char} {a : α} {met : Option α} (name : String)
    (put : Option α → Fields) (h : met = none) (ha : Reads r text a) :
    Reads (do return put (← field name met r)) (':' :: text) (put (some a)) := by
  subst h
  exact Reads.map put (colon_reads some ha)

theorem maxArity_reads (n : UInt64) (h : f.maxArity = none) :
    Reads (readField room f "max_arity") (':' :: (Json.ofUInt64 n).write) { f with maxArity := some n } :=
  field_reads "max_arity" (fun a => { f with maxArity := a }) h (natural_reads "usize" n)

theorem variant_reads (v : Variant) (h : f.variant = none) :
    Reads (readField room f "variant") (':' :: (Json.str v.name).write) { f with variant := some v } :=
  field_reads "variant" (fun a => { f with variant := a }) h (bareVariant_reads (lookup_variant v))

theorem pairPolicy_reads (policy : Option PairPolicy) (h : f.pairPolicy = none) :
    Reads (readField room f "pair_policy") (':' :: (PairPolicy.optionJson policy).write)
      { f with pairPolicy := some policy } :=
  field_reads "pair_policy" (fun a => { f with pairPolicy := a }) h (readPolicy_reads policy)

theorem stem_reads (stem : String) (h : f.stem = none) :
    Reads (readField room f "prefix") (':' :: (Json.str stem).write) { f with stem := some stem } :=
  field_reads "prefix" (fun a => { f with stem := a }) h (text_reads "a string" stem)

/-! ## Records -/

/-- The members of a configuration, `pair_policy` and `prefix` if they are given. -/
def members (n : UInt64) (v : Variant) (policy : Option (Option PairPolicy)) (stem : Option String) :
    List (String × Json) :=
  ("max_arity", .ofUInt64 n) :: ("variant", .str v.name) ::
    ((policy.map fun p => ("pair_policy", PairPolicy.optionJson p)).toList ++
      (stem.map fun s => ("prefix", Json.str s)).toList)

variable {c : Config} {names : List String}

theorem folds_members (n : UInt64) (v : Variant) (policy : Option (Option PairPolicy)) (stem : Option String) :
    Folds (readField room) ⟨none, none, none, none⟩ ((members n v policy stem).map fun m => (m.1, m.2.write))
      ⟨some n, some v, policy, stem⟩ := by
  refine .cons (maxArity_reads n rfl) (.cons (variant_reads v rfl) ?_)
  cases policy with
  | none =>
    cases stem with
    | none => exact .nil _
    | some s => exact .cons (stem_reads s rfl) (.nil _)
  | some p =>
    refine .cons (pairPolicy_reads p rfl) ?_
    cases stem with
    | none => exact .nil _
    | some s => exact .cons (stem_reads s rfl) (.nil _)

/-- A configuration is read from its members, with the defaults for those that are not given. -/
theorem readBack_members (n : UInt64) (v : Variant) (policy : Option (Option PairPolicy)) (stem : Option String) :
    ofBytes (Json.obj (members n v policy stem)).render.toUTF8.data.toList =
      .ok ⟨n, v, policy.getD none, stem.getD defaultStem⟩ := by
  refine run_render ?_
  rw [write_obj]
  exact record_reads wanted fun rest p => (bind_ok (objectMembers_ok (folds_members n v policy stem) rest p)).trans rfl

/-- What is left of the members without some of those that have defaults. -/
theorem without_toJson (hn : ∀ name ∈ names, name = "pair_policy" ∨ name = "prefix") :
    c.toJson.without names = .obj (members c.maxArity c.variant
      (if "pair_policy" ∈ names then none else some c.pairPolicy)
      (if "prefix" ∈ names then none else some c.stem)) := by
  have hm : "max_arity" ∉ names := fun h => by simpa using hn _ h
  have hv : "variant" ∉ names := fun h => by simpa using hn _ h
  by_cases hp : "pair_policy" ∈ names <;> by_cases hs : "prefix" ∈ names <;>
    simp [toJson, Json.without, members, hm, hv, hp, hs]

/-- A configuration without some of the members that have defaults is read with the defaults in their place. -/
theorem readBack_without (hn : ∀ name ∈ names, name = "pair_policy" ∨ name = "prefix") :
    ofBytes (c.toJson.without names).render.toUTF8.data.toList = .ok { c with
      pairPolicy := if "pair_policy" ∈ names then none else c.pairPolicy
      stem := if "prefix" ∈ names then defaultStem else c.stem } := by
  rw [without_toJson hn, readBack_members]
  split <;> split <;> rfl

theorem without_nil (j : Json) : j.without [] = j := by
  cases j with
  | obj members => simp [Json.without]
  | _ => rfl

/-- Every configuration is read back from its text. Without `pair_policy` and `prefix` the same configuration
is read but for the defaults of these, so that the same header is generated as for its variant with its
number of arguments. -/
theorem readBack_config (c : Config) :
    let c' : Config := { c with pairPolicy := none, stem := "RPC_" }
    ofBytes c.toText.toUTF8.data.toList = .ok c ∧
    ofBytes (c.toJson.without ["pair_policy", "prefix"]).render.toUTF8.data.toList = .ok c' ∧
    Header.generate c' = Header.generate ((forVariant c.variant).withMaxArity c.maxArity) := by
  intro c'
  refine ⟨?_, readBack_without (by simp), rfl⟩
  rw [toText, ← without_nil c.toJson]
  exact readBack_without (List.forall_mem_nil _)

end Config

end NamedDispatch
