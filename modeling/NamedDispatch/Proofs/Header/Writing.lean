/-
What a sheet holds after macros, directives and blank lines were written on it in any order. The macros are
numbered in the order they were emitted, and their lines stand in that order, so that a macro with a smaller
number is defined on an earlier line; a name is found at the first macro emitted with it; and blank lines
separate the others, never two at a place and none at the front.
-/
import Mathlib.Data.List.Chain
import NamedDispatch.Proofs.Header.Sheet

namespace NamedDispatch

/-! ## Lines -/

/-- The number of the macro whose definition is on a line. -/
def Line.id? : Line → Option Nat
  | .define id => some id
  | .directive _ => none
  | .blank => none

namespace Sheet

/-- The lines of what is written but for the blank ones, the macros numbered from `n` on. -/
def linesFrom : Nat → List Entry → List Line
  | _, [] => []
  | n, .define _ :: es => .define n :: linesFrom (n + 1) es
  | n, .directive text :: es => .directive text :: linesFrom n es
  | n, .blank :: es => linesFrom n es

/-- No blank line comes first, and none comes right after another. -/
structure Spaced (lines : List Line) : Prop where
  first : lines.head? ≠ some .blank
  apart : lines.IsChain fun a b => a ≠ .blank ∨ b ≠ .blank

variable {s : Sheet} {es : List Entry} {lines : List Line} {l : Line}

theorem linesFrom_append (n : Nat) (es fs : List Entry) :
    linesFrom n (es ++ fs) = linesFrom n es ++ linesFrom (n + (es.filterMap Entry.macro?).length) fs := by
  induction es generalizing n with
  | nil => rfl
  | cons e es ih =>
    cases e with
    | define m =>
      rw [List.cons_append, linesFrom, linesFrom, ih, List.cons_append]
      simp [Entry.macro?, Nat.add_assoc, Nat.add_comm 1]
    | directive text => simp [linesFrom, ih, List.filterMap_cons, Entry.macro?]
    | blank => simp [linesFrom, ih, List.filterMap_cons, Entry.macro?]

/-- The macros are numbered without a gap. -/
theorem filterMap_linesFrom (n : Nat) (es : List Entry) :
    (linesFrom n es).filterMap Line.id? = List.range' n (es.filterMap Entry.macro?).length := by
  induction es generalizing n with
  | nil => rfl
  | cons e es ih => cases e <;> simp [linesFrom, ih, List.filterMap_cons, Line.id?, Entry.macro?, List.range'_succ]

theorem spaced_nil : Spaced [] := ⟨by simp, .nil⟩

/-- A line may come next unless it is blank and would be the first or follow a blank one. -/
theorem Spaced.concat (h : Spaced lines) (hl : l = .blank → ∃ last, lines.getLast? = some last ∧ last ≠ .blank) :
    Spaced (lines ++ [l]) := by
  constructor
  · rcases lines with _ | ⟨first, lines⟩
    · intro hf
      obtain ⟨last, hlast, -⟩ := hl (Option.some.inj hf)
      cases hlast
    · exact h.first
  · rw [List.isChain_append]
    refine ⟨h.apart, .singleton l, ?_⟩
    rintro last hlast _ ⟨⟩
    by_cases hb : l = .blank
    · obtain ⟨last', hlast', hne⟩ := hl hb
      rw [Option.mem_def, hlast'] at hlast
      exact .inl (Option.some.inj hlast ▸ hne)
    · exact .inr hb

/-- A blank line is added after one that is not blank, and nowhere else. -/
theorem blank_spec (s : Sheet) : s.blank = s ∨ ∃ last, s.lines.toList.getLast? = some last ∧ last ≠ .blank ∧
    s.blank = { s with lines := s.lines.push .blank } := by
  unfold blank
  rw [← Array.getLast?_toList]
  split
  · exact .inl rfl
  · exact .inl rfl
  · rename_i last hne hlast
    exact .inr ⟨last, hlast, hne, rfl⟩

/-! ## One step and many -/

/-- The sheet `s` holds what was written on it by `es`: the macros in order, the place of each name, and the lines. -/
structure Records (s : Sheet) (es : List Entry) : Prop where
  macros : s.defs.toList = es.filterMap Entry.macro?
  names : s.Indexed
  lines : s.lines.toList.filter (· != .blank) = linesFrom 0 es
  spaced : Spaced s.lines.toList

theorem records_empty : empty.Records [] := ⟨rfl, indexed_empty, rfl, spaced_nil⟩

theorem Records.write (h : s.Records es) (e : Entry) : (s.write e).Records (es ++ [e]) := by
  have hm : (s.write e).defs.toList = (es ++ [e]).filterMap Entry.macro? := by
    have := toList_writeAll s [e]
    rw [List.filterMap_append, ← h.macros]
    exact this
  -- the next macro gets the number of macros there are
  have hs : linesFrom 0 (es ++ [e]) = linesFrom 0 es ++ linesFrom s.size [e] := by
    rw [linesFrom_append, size_eq, h.macros, Nat.zero_add]
  refine ⟨hm, h.names.write e, ?_, ?_⟩
  · rw [hs, ← h.lines]
    cases e with
    | define m => simp [Sheet.write, emit, linesFrom]
    | directive text => simp [Sheet.write, directive, linesFrom]
    | blank =>
      rw [Sheet.write]
      rcases s.blank_spec with hb | ⟨last, -, -, hb⟩ <;> simp [hb, linesFrom]
  · cases e with
    | define m =>
      rw [Sheet.write, emit, Array.toList_push]
      exact h.spaced.concat fun hb => by cases hb
    | directive text =>
      rw [Sheet.write, directive, Array.toList_push]
      exact h.spaced.concat fun hb => by cases hb
    | blank =>
      rw [Sheet.write]
      rcases s.blank_spec with hb | ⟨last, hlast, hne, hb⟩ <;> rw [hb]
      · exact h.spaced
      · rw [Array.toList_push]
        exact h.spaced.concat fun _ => ⟨last, hlast, hne⟩

theorem Records.writeAll {before : List Entry} (h : s.Records before) (es : List Entry) :
    (s.writeAll es).Records (before ++ es) := by
  induction es generalizing s before with
  | nil => rwa [List.append_nil]
  | cons e es ih =>
    have := ih (h.write e)
    rwa [List.append_assoc] at this

/-! ## Names -/

/-- A name is found at the smallest number of a macro of that name. -/
theorem Indexed.lookup_eq_some_iff (h : s.Indexed) {name : String} {id : Nat} : s.lookup name = some id ↔
    (∃ m, s.defs.toList[id]? = some m ∧ m.name = name) ∧
      ∀ (id' : Nat) m, s.defs.toList[id']? = some m → m.name = name → id ≤ id' := by
  rw [h name, List.findIdx?_eq_some_iff_getElem]
  constructor
  · rintro ⟨hlt, hn, hbefore⟩
    refine ⟨⟨_, List.getElem?_eq_getElem hlt, by simpa using hn⟩, fun id' m hm hname => ?_⟩
    obtain ⟨hlt', rfl⟩ := List.getElem?_eq_some_iff.1 hm
    by_contra hid
    exact hbefore id' (by omega) (by simpa using hname)
  · rintro ⟨⟨m, hm, hname⟩, hleast⟩
    obtain ⟨hlt, rfl⟩ := List.getElem?_eq_some_iff.1 hm
    refine ⟨hlt, by simpa using hname, fun id' hid hn => ?_⟩
    have := hleast id' _ (List.getElem?_eq_getElem (by omega)) (by simpa using hn)
    omega

theorem Indexed.lookup_eq_none_iff (h : s.Indexed) {name : String} :
    s.lookup name = none ↔ ∀ m ∈ s.defs.toList, m.name ≠ name := by
  rw [h name, List.findIdx?_eq_none_iff]
  simp

/-- After any writing on an empty sheet, the lines define the macros in the order of their numbers, each number
below `size` once, and under each number is the macro that was emitted so; `lookup` finds a name at the smallest
number of a macro emitted with it, and does not find it if there is none; no blank line comes first or right
after another, and without them the lines are the macros and the directives as they were written. -/
theorem writeAll_records (es : List Entry) :
    let s := empty.writeAll es
    let ms := es.filterMap Entry.macro?
    s.lines.toList.filterMap Line.id? = List.range ms.length ∧
    (∀ id : Nat, s.defs[id]? = ms[id]?) ∧
    (∀ name id, s.lookup name = some id ↔ (∃ m, ms[id]? = some m ∧ m.name = name) ∧
      ∀ (id' : Nat) m, ms[id']? = some m → m.name = name → id ≤ id') ∧
    (∀ name, s.lookup name = none ↔ ∀ m ∈ ms, m.name ≠ name) ∧
    Spaced s.lines.toList ∧
    s.lines.toList.filter (· != .blank) = linesFrom 0 es := by
  intro s ms
  have h : s.Records es := records_empty.writeAll es
  refine ⟨?_, fun id => ?_, fun name id => ?_, fun name => ?_, h.spaced, h.lines⟩
  · have skipped : s.lines.toList.filterMap Line.id? = (s.lines.toList.filter (· != .blank)).filterMap Line.id? := by
      rw [List.filterMap_filter]
      refine List.filterMap_congr fun l _ => ?_
      cases l <;> rfl
    rw [skipped, h.lines, filterMap_linesFrom, List.range_eq_range']
  · rw [← Array.getElem?_toList, h.macros]
  · rw [h.names.lookup_eq_some_iff, h.macros]
  · rw [h.names.lookup_eq_none_iff, h.macros]

example : (empty.writeAll [.blank, .directive "#if A", .blank, .blank, .directive "#endif"]).lines =
    #[.directive "#if A", .blank, .directive "#endif"] := rfl

end Sheet

end NamedDispatch
