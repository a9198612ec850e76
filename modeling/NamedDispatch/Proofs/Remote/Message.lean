/-
Requests and responses are read back from their texts. The kind of a response is its tag, and from the
members after it the response of this kind is made again: a result as a value, a fault from its kind and its
wording.
-/
import NamedDispatch.Proofs.Json.Typed
import NamedDispatch.Remote.Message

namespace NamedDispatch

open Json.Reader

/-! ## Requests -/

namespace Request

/-- The fields of a request are read in the order in which they are written. -/
theorem folds_fields {r : Request} {room : Nat} (hf : Json.isFloatFreeItems r.args = true)
    (hd : Json.depthItems r.args ≤ room) : Folds (readField (room + 1)) (none, none)
      [("func_name", Json.writeString r.func), ("args", (Json.arr r.args).write)]
      (some r.func, some (r.args.map Json.value)) := by
  have hargs : Reads (readArgs (room + 1)) (Json.arr r.args).write (r.args.map Json.value) := by
    rw [Json.write, writeItems_eq]
    refine list_reads (List.forall₂_map_left_iff.2 (List.forall₂_map_right_iff.2 (List.forall₂_same.2 fun j hj => ?_)))
    have hp := reads_items r.args hf hd j hj
    exact ⟨hp.opens, hp.reads.map Json.value⟩
  exact .cons ((colon_reads some (text_reads _ r.func)).map fun f => (f, none))
    (.cons ((colon_reads some hargs).map fun a => (some r.func, a)) (.nil _))

theorem reader_reads {r : Request} {room : Nat} (hf : Json.isFloatFreeItems r.args = true)
    (hd : Json.depthItems r.args ≤ room) :
    Reads (reader (room + 2)) r.toJson.write ⟨r.func, r.args.map Json.value⟩ := by
  have hw : r.toJson.write =
      objectText [("func_name", Json.writeString r.func), ("args", (Json.arr r.args).write)] := by
    rw [toJson, write_obj, List.map_cons, Json.write]
    rfl
  rw [hw]
  exact record_reads wanted fun rest p => (bind_ok (objectMembers_ok (folds_fields hf hd) rest p)).trans rfl

/-- A request without floating point numbers, nested within the limit, is read back from its text, its
arguments as values. -/
theorem ofBytes_toText {r : Request} (hf : Json.isFloatFreeItems r.args = true)
    (hd : Json.depthItems r.args + 2 ≤ nestingLimit) :
    ofBytes r.toText.toUTF8.data.toList = .ok ⟨r.func, r.args.map Json.value⟩ := by
  rw [ofBytes, toText]
  exact run_render (reader_reads hf (Nat.le_sub_of_add_le hd))

end Request

/-! ## Responses -/

namespace Response

/-- The response with its result as a value. -/
def value : Response → Response
  | .result func value => .result func value.value
  | r => r

/-! ### Parts of a response -/

/-- The name that a response says was called. -/
def func : Response → String
  | .result func _ => func
  | .fault func _ => func

/-- The kind of a response, which its tag names. -/
def kind : Response → Kind
  | .result _ _ => .result
  | .fault _ _ => .fault

/-- The tag that a response is written with. -/
def tag : Response → String
  | .result _ _ => "func_result"
  | .fault _ _ => "func_error"

/-- The members after the tag. -/
def members : Response → List (String × Json)
  | .result func value => [("func_name", .str func), ("result", value)]
  | .fault func cause =>
    [("func_name", .str func), ("kind", .str cause.kind.name), ("message", .str cause.message)]

theorem toJson_eq (r : Response) : r.toJson = .obj (("type", .str r.tag) :: r.members) := by
  cases r <;> rfl

theorem lookup_tag (r : Response) : Kind.all.lookup r.tag = some r.kind := by
  cases r <;> rfl

theorem members_ne_type (r : Response) : ∀ m ∈ r.members, m.1 ≠ "type" := by
  cases r <;> simp [members]

/-- A fault survives as its kind and its wording. -/
theorem ofContent_members (r : Response) : ofContent r.kind (.obj r.members) = .ok r.value := by
  cases r with
  | result func value => rfl
  | fault func cause =>
    obtain ⟨kind, message⟩ := cause
    cases kind <;> rfl

/-! ### Whole responses -/

theorem write_toJson (r : Response) : r.toJson.write =
    objectText (("type", Json.writeString r.tag) :: r.members.map fun m => (m.1, m.2.write)) := by
  rw [toJson_eq, write_obj, List.map_cons, Json.write]

theorem reader_reads {r : Response} {room : Nat} (hf : r.toJson.isFloatFree = true) (hd : r.toJson.depth ≤ room) :
    Reads (reader room) r.toJson.write r.value := by
  rw [toJson_eq, Json.isFloatFree, Json.isFloatFreeMembers, Bool.and_eq_true] at hf
  rw [toJson_eq, Json.depth, Json.depthMembers] at hd
  obtain ⟨room, rfl⟩ := Nat.exists_eq_add_one_of_ne_zero (Nat.ne_of_gt (Nat.lt_of_lt_of_le (Nat.succ_pos _) hd))
  intro rest p he
  have ht := tagged_reads "internally tagged enum Response" (variantName_reads r.lookup_tag) r.members_ne_type hf.2
    (Nat.le_trans (Nat.le_max_right ..) (Nat.le_of_succ_le_succ hd)) rest p he
  rw [write_toJson, reader, bind_ok ht]
  show ofExcept (ofContent r.kind (.obj r.members)) _ = _
  rw [ofContent_members]
  rfl

/-- A response without floating point numbers, nested within the limit, is read back from its text. -/
theorem ofBytes_toText {r : Response} (hf : r.toJson.isFloatFree = true) (hd : r.toJson.depth ≤ nestingLimit) :
    ofBytes r.toText.toUTF8.data.toList = .ok r.value := by
  rw [ofBytes, toText]
  exact run_render (reader_reads hf hd)

/-! ### Outcomes -/

variable {f : String} {o : Except DispatchFault Json}

theorem func_ofOutcome (f : String) (o : Except DispatchFault Json) : (ofOutcome f o).func = f := by
  cases o <;> rfl

theorem outcome_ofOutcome (f : String) (o : Except DispatchFault Json) : (ofOutcome f o).outcome = o := by
  cases o <;> rfl

theorem value_ofOutcome (h : ∀ v, o = .ok v → v.value = v) : (ofOutcome f o).value = ofOutcome f o := by
  cases o with
  | ok v => exact congrArg (result f) (h v rfl)
  | error e => rfl

theorem isFloatFree_ofOutcome (h : ∀ v, o = .ok v → v.isFloatFree = true) :
    (ofOutcome f o).toJson.isFloatFree = true := by
  cases o with
  | ok v =>
    have hm : (ofOutcome f (.ok v)).toJson.isFloatFree = (v.isFloatFree && true) := rfl
    rw [hm, h v rfl, Bool.and_true]
  | error e => rfl

end Response

end NamedDispatch
