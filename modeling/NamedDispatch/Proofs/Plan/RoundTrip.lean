/-
Plans are read back from their texts. The macro that an invocation names is its tag, which selects how the
members after it are taken, and from them the same invocation is made again: a list of names element by
element, a list of pairs pair by pair. A plan is the list of its invocations.
-/
import NamedDispatch.Plan.Text
import NamedDispatch.Proofs.Json.Typed

namespace NamedDispatch

open Json.Reader

/-! ## Invocations -/

namespace Group

/-- The members after the name of the macro. -/
def members (g : Group) : List (String × Json) := formMembers g.form ++ [("cached", .bool g.cached)]

theorem lookup_name (k : Form.Kind) : Form.Kind.all.lookup k.name = some k := by cases k <;> rfl

theorem members_ne_macro (g : Group) : ∀ m ∈ g.members, m.1 ≠ "macro" := by
  obtain ⟨form, cached⟩ := g
  cases form <;> simp [members, formMembers]

theorem asList_listJson (ss : List String) : asList (listJson ss) = .ok ss :=
  Json.Shape.list_ok .str (fun _ => rfl) ss

theorem asPairs_pairs (ps : List (String × String)) : asPairs (.arr (ps.map pairJson)) = .ok ps :=
  Json.Shape.list_ok pairJson (fun _ => rfl) ps

/-- An invocation is made again from the members after its tag. -/
theorem ofContent_members (g : Group) : ofContent g.form.kind (.obj g.members) = .ok g := by
  obtain ⟨form, cached⟩ := g
  have hcached : Json.Shape.flag (.bool cached) = .ok cached := rfl
  cases form with
  | attach func => rfl
  | singleAlias func name => rfl
  | attachMany funcs =>
    show (Json.Shape.twoFields "funcs" "cached" asList Json.Shape.flag
      [("funcs", listJson funcs), ("cached", .bool cached)] >>= fun x =>
        pure (Group.mk (.attachMany x.1) x.2)) = _
    rw [Json.Shape.twoFields_ok (asList_listJson funcs) hcached (by decide)]
    rfl
  | multiAlias func names =>
    show (Json.Shape.threeFields "func" "aliases" "cached" asText asList Json.Shape.flag
      [("func", .str func), ("aliases", listJson names), ("cached", .bool cached)] >>= fun x =>
        pure (Group.mk (.multiAlias x.1 x.2.1) x.2.2)) = _
    have hfunc : asText (.str func) = .ok func := rfl
    rw [Json.Shape.threeFields_ok hfunc (asList_listJson names) hcached (by decide) (by decide) (by decide)]
    rfl
  | aliasPairs pairs =>
    show (Json.Shape.twoFields "pairs" "cached" asPairs Json.Shape.flag
      [("pairs", .arr (pairs.map pairJson)), ("cached", .bool cached)] >>= fun x =>
        pure (Group.mk (.aliasPairs x.1) x.2)) = _
    rw [Json.Shape.twoFields_ok (asPairs_pairs pairs) hcached (by decide)]
    rfl

/-! ### The text of an invocation -/

/-- The list that an invocation takes, if it takes one, holds texts or pairs of them. -/
theorem isFloatFree_members (g : Group) : Json.isFloatFreeMembers g.members = true := by
  have htexts (ss : List String) : Json.isFloatFreeItems (ss.map .str) = true :=
    Json.isFloatFreeItems_iff.2 (List.forall_mem_map.2 fun _ _ => rfl)
  have hpairs (ps : List (String × String)) : Json.isFloatFreeItems (ps.map pairJson) = true :=
    Json.isFloatFreeItems_iff.2 (List.forall_mem_map.2 fun _ _ => rfl)
  obtain ⟨form, cached⟩ := g
  cases form <;> simp [members, formMembers, listJson, Json.isFloatFreeMembers, Json.isFloatFree, htexts, hpairs]

theorem depth_members (g : Group) : Json.depthMembers g.members ≤ 2 := by
  have htexts (ss : List String) : Json.depthItems (ss.map .str) ≤ 1 :=
    Json.depthItems_le_iff.2 (List.forall_mem_map.2 fun _ _ => Nat.zero_le 1)
  have hpairs (ps : List (String × String)) : Json.depthItems (ps.map pairJson) ≤ 1 :=
    Json.depthItems_le_iff.2 (List.forall_mem_map.2 fun _ _ => Nat.le_refl 1)
  obtain ⟨form, cached⟩ := g
  cases form <;> simp [members, formMembers, listJson, Json.depthMembers, Json.depth, htexts, hpairs]

theorem opens_toJson (g : Group) : Opens g.toJson.write :=
  opens_write (j := g.toJson) g.isFloatFree_members

theorem reader_reads (g : Group) {room : Nat} (hr : 2 ≤ room) : Reads (reader (room + 1)) g.toJson.write g := by
  have hw : g.toJson.write = objectText (("macro", Json.writeString g.form.kind.name) ::
      g.members.map fun m => (m.1, m.2.write)) := by
    rw [toJson, write_obj, List.cons_append, List.map_cons, Json.write]
    rfl
  intro rest p he
  have ht := tagged_reads "internally tagged enum Group" (variantName_reads (lookup_name g.form.kind))
    g.members_ne_macro g.isFloatFree_members (Nat.le_trans g.depth_members hr) rest p he
  rw [hw, reader, bind_ok ht]
  show ofExcept (ofContent g.form.kind (.obj g.members)) _ = _
  rw [ofContent_members]
  rfl

end Group

/-! ## Plans -/

namespace Plan

/-- The field `groups` of a plan is read as its invocations. -/
theorem folds_fields (p : Plan) {room : Nat} (hr : 2 ≤ room) : Folds (readField (room + 2)) none
    [("groups", (Json.arr (p.groups.map Group.toJson)).write)] (some p.groups) := by
  have hgroups : Reads (list Group.reader (room + 2)) (Json.arr (p.groups.map Group.toJson)).write p.groups := by
    rw [Json.write, writeItems_eq, List.map_map]
    exact list_reads (List.forall₂_map_left_iff.2 (List.forall₂_same.2 fun g _ =>
      ⟨g.opens_toJson, g.reader_reads hr⟩))
  exact .cons (colon_reads some hgroups) (.nil _)

theorem reader_reads (p : Plan) {room : Nat} (hr : 2 ≤ room) : Reads (reader (room + 3)) p.toJson.write p := by
  rw [toJson, write_obj]
  exact record_reads wanted fun rest place => (bind_ok (objectMembers_ok (p.folds_fields hr) rest place)).trans rfl

/-- Every plan is read back from its text. -/
theorem readBack_plan (p : Plan) : ofBytes p.toText.toUTF8.data.toList = .ok p := by
  rw [ofBytes, toText]
  exact run_render (p.reader_reads (by decide))

end Plan

end NamedDispatch
