/-
Laws of sheets: what each step of writing does to the list of macros, and that a sheet made by
writing finds under a name the first macro emitted with it.
-/
import Mathlib.Data.List.Basic
import NamedDispatch.Header.Sheet
import Std.Data.HashMap.Lemmas

namespace NamedDispatch.Sheet

/-! ## The list of macros -/

@[simp] theorem toList_empty : empty.defs.toList = [] := rfl

@[simp] theorem toList_emit (s : Sheet) (m : Macro) : (s.emit m).defs.toList = s.defs.toList ++ [m] :=
  Array.toList_push ..

@[simp] theorem toList_emitAll (s : Sheet) (ms : List Macro) :
    (s.emitAll ms).defs.toList = s.defs.toList ++ ms := by
  unfold emitAll
  induction ms generalizing s with
  | nil => simp
  | cons m ms ih => rw [List.foldl_cons, ih, toList_emit, List.append_assoc, List.singleton_append]

@[simp] theorem defs_blank (s : Sheet) : s.blank.defs = s.defs := by
  unfold blank; split <;> rfl

theorem size_eq (s : Sheet) : s.size = s.defs.toList.length := Array.length_toList.symm

@[simp] theorem size_emit (s : Sheet) (m : Macro) : (s.emit m).size = s.size + 1 := by
  rw [size_eq, toList_emit, List.length_append, size_eq]; rfl

/-! ## Macros by number -/

section

variable {s : Sheet} {id : Nat} {m : Macro}

theorem nameOf_eq (h : s.defs.toList[id]? = some m) : s.nameOf id = m.name := by
  rw [Array.getElem?_toList] at h; rw [nameOf, h]; rfl

theorem roleOf_eq (h : s.defs.toList[id]? = some m) : s.roleOf id = some m.role := by
  rw [Array.getElem?_toList] at h; rw [roleOf, h]; rfl

/-- The sheet has a macro of that name under the number. -/
def Named (s : Sheet) (id : Nat) (name : String) : Prop := ∃ m, s.defs.toList[id]? = some m ∧ m.name = name

theorem Named.nameOf {name : String} (h : s.Named id name) : s.nameOf id = name := by
  obtain ⟨m, hm, rfl⟩ := h; exact nameOf_eq hm

/-- What a sheet has it keeps when more is written after it. -/
theorem Named.mono {s' : Sheet} {name : String} (h : s.Named id name) (hp : s.defs.toList <+: s'.defs.toList) :
    s'.Named id name := by
  obtain ⟨m, hm, hn⟩ := h
  obtain ⟨ms, hms⟩ := hp
  exact ⟨m, by rw [← hms, List.getElem?_append_left (List.getElem?_eq_some_iff.1 hm).1, hm], hn⟩

theorem Named.emit {name : String} (h : s.Named id name) (m : Macro) : (s.emit m).Named id name :=
  h.mono (by rw [toList_emit]; exact List.prefix_append _ _)

theorem named_emit (s : Sheet) (m : Macro) : (s.emit m).Named s.size m.name :=
  ⟨m, by rw [toList_emit, size_eq, List.getElem?_concat_length], rfl⟩

end

/-! ## Writing in one go -/

/-- A step of writing a sheet: a macro, a line of its own, or a blank line. -/
inductive Entry where
  | define (m : Macro)
  | directive (text : String)
  | blank

namespace Entry

/-- The macro that a step defines. -/
def macro? : Entry → Option Macro
  | define m => some m
  | _ => none

end Entry

/-- Takes one step: `define` emits the macro, the others add their line. -/
def write (s : Sheet) : Entry → Sheet
  | .define m => s.emit m
  | .directive text => s.directive text
  | .blank => s.blank

/-- Takes the steps one after the other. -/
def writeAll (s : Sheet) (es : List Entry) : Sheet := es.foldl write s

theorem writeAll_append (s : Sheet) (es fs : List Entry) :
    s.writeAll (es ++ fs) = (s.writeAll es).writeAll fs := List.foldl_append

theorem writeAll_defines (s : Sheet) (ms : List Macro) : s.writeAll (ms.map .define) = s.emitAll ms :=
  List.foldl_map

@[simp] theorem toList_writeAll (s : Sheet) (es : List Entry) :
    (s.writeAll es).defs.toList = s.defs.toList ++ es.filterMap Entry.macro? := by
  unfold writeAll
  induction es generalizing s with
  | nil => simp
  | cons e es ih =>
    rw [List.foldl_cons, ih]
    cases e with
    | define m => simp [write, Entry.macro?]
    | directive text => rfl
    | blank => rw [write, defs_blank]; rfl

/-! ## Looking up names -/

/-- A name is found at the first macro that was emitted with it. -/
def Indexed (s : Sheet) : Prop :=
  ∀ name, s.lookup name = s.defs.toList.findIdx? fun m => m.name == name

theorem lookup_emit (s : Sheet) (m : Macro) (name : String) :
    (s.emit m).lookup name = (s.lookup name).or (if m.name == name then some s.size else none) := by
  unfold lookup emit
  rw [Std.HashMap.getElem?_insertIfNew]
  -- a name that is in the index already keeps its number
  cases h : s.index[name]? with
  | none =>
    rw [Option.none_or]
    split
    · rename_i hc; rw [if_pos hc.1]
    · rename_i hc
      rw [if_neg fun e => hc ⟨e, fun hm => ?_⟩]
      rw [eq_of_beq e, ← Std.HashMap.isSome_getElem?_iff_mem, h] at hm
      cases hm
  | some id =>
    rw [Option.some_or, if_neg]
    rintro ⟨e, hm⟩
    rw [eq_of_beq e, ← Std.HashMap.isSome_getElem?_iff_mem, h] at hm
    exact hm rfl

theorem indexed_empty : empty.Indexed := fun _ => Std.HashMap.getElem?_empty

theorem Indexed.write {s : Sheet} (h : s.Indexed) (e : Entry) : (s.write e).Indexed := by
  intro name
  cases e with
  | define m =>
    rw [Sheet.write, lookup_emit, toList_emit, List.findIdx?_append, h name, List.findIdx?_singleton, size_eq]
    congr 1
    split <;> simp
  | directive text => exact h name
  | blank =>
    rw [Sheet.write, defs_blank, ← h name]
    unfold Sheet.blank
    split <;> rfl

theorem Indexed.writeAll {s : Sheet} (h : s.Indexed) (es : List Entry) : (s.writeAll es).Indexed := by
  unfold Sheet.writeAll
  induction es generalizing s with
  | nil => exact h
  | cons e es ih => exact ih (h.write e)

theorem Indexed.lookup_eq_none {s : Sheet} (h : s.Indexed) {name : String}
    (hn : ∀ m ∈ s.defs.toList, m.name ≠ name) : s.lookup name = none := by
  rw [h name, List.findIdx?_eq_none_iff]
  intro m hm
  exact beq_eq_false_iff_ne.2 (hn m hm)

theorem Indexed.getElem?_lookup {s : Sheet} (h : s.Indexed) {name : String} {id : Nat}
    (hid : s.lookup name = some id) : ∃ hlt : id < s.defs.toList.length, s.defs.toList[id].name = name := by
  rw [h name, List.findIdx?_eq_some_iff_getElem] at hid
  obtain ⟨hlt, hn, -⟩ := hid
  exact ⟨hlt, eq_of_beq hn⟩

/-- The macro found under a name comes no later than any other of the name. -/
theorem Indexed.lookup_le {s : Sheet} (h : s.Indexed) {id : Nat} {m : Macro}
    (hm : s.defs.toList[id]? = some m) : ∃ first ≤ id, s.lookup m.name = some first := by
  rw [h m.name]
  obtain ⟨hlt, rfl⟩ := List.getElem?_eq_some_iff.1 hm
  rcases hf : s.defs.toList.findIdx? (fun m' => m'.name == s.defs.toList[id].name) with _ | first
  · rw [List.findIdx?_eq_none_iff] at hf
    have := hf _ (List.getElem_mem hlt)
    simp at this
  · refine ⟨first, ?_, hf⟩
    obtain ⟨h1, -, h2⟩ := List.findIdx?_eq_some_iff_getElem.1 hf
    by_contra hlt'
    have := h2 id (by omega)
    simp at this

end NamedDispatch.Sheet
