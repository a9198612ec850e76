/-
Objects and whole documents are read back. What a reader makes of the members of an object is said step
by step: each member takes what was made of those before it further. A document without floating point
numbers is read back from its text as soon as it may be nested as deep as it is.
-/
import NamedDispatch.Proofs.Json.Scalars

namespace NamedDispatch.Json

open Text (utf8 utf8_append_append)

namespace Reader

variable {α : Type} {member : α → String → Reader α} {a a' : α} {ms : List (String × List Char)}
  {rest : List UInt8} {p : Place} {steps : Steps}

/-! ## Members -/

/-- A member of an object: its name, and what stands after the colon. -/
def memberText (m : String × List Char) : List Char := writeString m.1 ++ ':' :: m.2

/-- Each member takes a result further, by a reader that goes on from its name. -/
inductive Folds (member : α → String → Reader α) : α → List (String × List Char) → α → Prop where
  | nil (a : α) : Folds member a [] a
  | cons {a a' a'' : α} {name : String} {text : List Char} {ms : List (String × List Char)}
    (first : Reads (member a name) (':' :: text) a') (others : Folds member a' ms a'') :
      Folds member a ((name, text) :: ms) a''

theorem colon_ok (cs : List Char) (rest : List UInt8) (p : Place) :
    colon ⟨utf8 (':' :: cs) ++ rest, p⟩ = .ok () ⟨utf8 cs ++ rest, p.past [':']⟩ := by
  rw [colon, bind_ok (peekPart_cons solid_colon cs rest p)]
  exact skip_cons solid_colon.ascii cs rest p

theorem memberFollows_end (first : Bool) (rest : List UInt8) (p : Place) :
    memberFollows first ⟨utf8 ['\x7d'] ++ rest, p⟩ = .ok false ⟨utf8 ['\x7d'] ++ rest, p⟩ := by
  rw [memberFollows, bind_ok (peekPart_cons solid_closeBrace [] rest p)]
  rfl

theorem memberText_append (m : String × List Char) (cs : List Char) : ∃ tail, memberText m ++ cs = '"' :: tail :=
  ⟨_, rfl⟩

theorem memberFollows_first (m : String × List Char) (cs : List Char) (rest : List UInt8) (p : Place) :
    memberFollows true ⟨utf8 (memberText m ++ cs) ++ rest, p⟩ = .ok true ⟨utf8 (memberText m ++ cs) ++ rest, p⟩ := by
  obtain ⟨tail, ht⟩ := memberText_append m cs
  rw [ht, memberFollows, bind_ok (peekPart_cons solid_quote tail rest p)]
  rfl

theorem memberFollows_comma (m : String × List Char) (cs : List Char) (rest : List UInt8) (p : Place) :
    memberFollows false ⟨utf8 (',' :: (memberText m ++ cs)) ++ rest, p⟩ =
      .ok true ⟨utf8 (memberText m ++ cs) ++ rest, p.past [',']⟩ := by
  obtain ⟨tail, ht⟩ := memberText_append m cs
  rw [ht, memberFollows, bind_ok (peekPart_cons solid_comma ('"' :: tail) rest p)]
  simp only [Char.reduceEq, imp_self, Bool.false_eq_true, if_false, if_true]
  rw [bind_ok (skip_cons solid_comma.ascii _ rest p), bind_ok (peekPart_cons solid_quote tail rest _)]
  rfl

/-- A name is read once it is clear that a member follows. -/
theorem name?_ok {first : Bool} {c : Cursor} {name : String} {cs : List Char}
    (hf : memberFollows first c = .ok true ⟨utf8 (writeString name ++ cs) ++ rest, p⟩) :
    name? first c = .ok (some name) ⟨utf8 cs ++ rest, p.past (writeString name)⟩ := by
  have hw : writeString name ++ cs = '"' :: ((name.toList.flatMap escapedChar ++ ['"']) ++ cs) := rfl
  rw [hw] at hf
  rw [name?, bind_ok hf, if_pos rfl, bind_ok (skip_cons solid_quote.ascii _ rest p), utf8_append_append,
    bind_ok (string_ok name _ _), ← Place.past_cons]
  rfl

theorem foldMembers_end (member : α → String → Reader α) (steps : Steps) (first : Bool) (a : α)
    (rest : List UInt8) (p : Place) :
    foldMembers member steps first a ⟨utf8 ['\x7d'] ++ rest, p⟩ = .ok a ⟨utf8 ['\x7d'] ++ rest, p⟩ := by
  cases steps with
  | nil => rfl
  | cons _ steps =>
    have hn : name? first ⟨utf8 ['\x7d'] ++ rest, p⟩ = .ok none ⟨utf8 ['\x7d'] ++ rest, p⟩ := by
      rw [name?, bind_ok (memberFollows_end first rest p)]
      rfl
    rw [foldMembers, bind_ok hn]
    rfl

theorem foldMembers_step {first : Bool} {c : Cursor} {b : UInt8} {name : String} {text : List Char} {more : List UInt8}
    (hf : memberFollows first c = .ok true ⟨utf8 (memberText (name, text)) ++ more, p⟩)
    (hr : Reads (member a name) (':' :: text) a') (hm : Ends more) :
    foldMembers member (b :: steps) first a c =
      foldMembers member steps false a' ⟨more, p.past (memberText (name, text))⟩ := by
  rw [foldMembers, bind_ok (name?_ok hf)]
  simp only
  rw [bind_ok (hr more _ hm), ← Place.past_append]
  rfl

theorem foldMembers_further (h : Folds member a ms a') (hs : ms.length ≤ steps.length) (rest : List UInt8) (p : Place) :
    foldMembers member steps false a ⟨utf8 (further (ms.map memberText) ++ ['\x7d']) ++ rest, p⟩ =
      .ok a' ⟨utf8 ['\x7d'] ++ rest, p.past (further (ms.map memberText))⟩ := by
  induction h generalizing steps p with
  | nil a => exact foldMembers_end member steps false a rest p
  | @cons a a' a'' name text ms hr _ ih =>
    cases steps with
    | nil => cases hs
    | cons b steps =>
      have hf := memberFollows_comma (name, text) (further (ms.map memberText) ++ ['\x7d']) rest p
      rw [← further_append, utf8_append_append (memberText _)] at hf
      rw [List.map_cons, foldMembers_step hf hr (ends_further _ (ends_brace [] rest)), ih (Nat.le_of_succ_le_succ hs),
        past_further]

/-- The members of an object are read up to the brace that closes it. -/
theorem foldMembers_joined (h : Folds member a ms a') (hs : ms.length ≤ steps.length) (rest : List UInt8) (p : Place) :
    foldMembers member steps true a ⟨utf8 (joined (ms.map memberText) ++ ['\x7d']) ++ rest, p⟩ =
      .ok a' ⟨utf8 ['\x7d'] ++ rest, p.past (joined (ms.map memberText))⟩ := by
  cases h with
  | nil => exact foldMembers_end member steps true a rest p
  | @cons _ a' _ name text ms hr hms =>
    cases steps with
    | nil => cases hs
    | cons b steps =>
      have hf := memberFollows_first (name, text) (further (ms.map memberText) ++ ['\x7d']) rest p
      rw [utf8_append_append] at hf
      rw [List.map_cons, joined, List.append_assoc, Place.past_append, utf8_append_append,
        foldMembers_step hf hr (ends_further _ (ends_brace [] rest))]
      exact foldMembers_further hms (Nat.le_of_succ_le_succ hs) rest _

theorem endObject_ok (rest : List UInt8) (p : Place) :
    endObject ⟨utf8 ['\x7d'] ++ rest, p⟩ = .ok () ⟨rest, p.past ['\x7d']⟩ := by
  rw [endObject, bind_ok (peekPart_cons solid_closeBrace [] rest p)]
  exact skip_cons solid_closeBrace.ascii [] rest p

theorem objectMembers_ok (h : Folds member a ms a') (rest : List UInt8) (p : Place) :
    objectMembers a member ⟨utf8 (joined (ms.map memberText) ++ ['\x7d']) ++ rest, p⟩ =
      .ok a' ⟨utf8 ['\x7d'] ++ rest, p.past (joined (ms.map memberText))⟩ := by
  have hs := length_le_steps (ms.map memberText) '\x7d' rest
  rw [List.length_map] at hs
  exact (bind_ok (stepsLeft_ok _)).trans (foldMembers_joined h hs rest p)

/-- The text of an object with the members given. -/
def objectText (ms : List (String × List Char)) : List Char := '\x7b' :: (joined (ms.map memberText) ++ ['\x7d'])

end Reader

/-! ## Documents -/

mutual

/-- How many brackets stand open at once in the text of a document. -/
def depth : Json → Nat
  | .arr items => depthItems items + 1
  | .obj members => depthMembers members + 1
  | _ => 0

/-- The most brackets open at once in the items of a list. -/
def depthItems : List Json → Nat
  | [] => 0
  | j :: js => max j.depth (depthItems js)

/-- The most brackets open at once in the members of an object. -/
def depthMembers : List (String × Json) → Nat
  | [] => 0
  | (_, j) :: ms => max j.depth (depthMembers ms)

end

mutual

/-- Whether no floating point number stands in a document. -/
def isFloatFree : Json → Bool
  | .float _ => false
  | .arr items => isFloatFreeItems items
  | .obj members => isFloatFreeMembers members
  | _ => true

/-- Whether no floating point number stands in the items of a list. -/
def isFloatFreeItems : List Json → Bool
  | [] => true
  | j :: js => j.isFloatFree && isFloatFreeItems js

/-- Whether no floating point number stands in the members of an object. -/
def isFloatFreeMembers : List (String × Json) → Bool
  | [] => true
  | (_, j) :: ms => j.isFloatFree && isFloatFreeMembers ms

end

theorem isFloatFreeItems_iff {js : List Json} : isFloatFreeItems js = true ↔ ∀ j ∈ js, j.isFloatFree = true := by
  induction js with
  | nil => exact ⟨fun _ => List.forall_mem_nil _, fun _ => rfl⟩
  | cons j js ih => rw [isFloatFreeItems, Bool.and_eq_true, ih, List.forall_mem_cons]

theorem depthItems_le_iff {js : List Json} {n : Nat} : depthItems js ≤ n ↔ ∀ j ∈ js, j.depth ≤ n := by
  induction js with
  | nil => exact ⟨fun _ => List.forall_mem_nil _, fun _ => Nat.zero_le n⟩
  | cons j js ih => rw [depthItems, Nat.max_le, ih, List.forall_mem_cons]

namespace Reader

variable {part : Option (Reader Json)} {r : Reader Json}

theorem writeItems_eq : ∀ items : List Json, writeItems items = joined (items.map write)
  | [] => rfl
  | [j] => by rw [writeItems, List.map_singleton, joined, further, List.flatMap_nil, List.append_nil]
  | j :: j' :: js => congrArg (fun text => j.write ++ ',' :: text) (writeItems_eq (j' :: js))

theorem writeMembers_eq : ∀ members : List (String × Json),
    writeMembers members = joined ((members.map fun m => (m.1, m.2.write)).map memberText)
  | [] => rfl
  | [(name, j)] => by
    rw [writeMembers, List.map_singleton, List.map_singleton, joined, further, List.flatMap_nil, List.append_nil]
    rfl
  | (name, j) :: m :: ms =>
    congrArg (fun text => writeString name ++ ':' :: j.write ++ ',' :: text) (writeMembers_eq (m :: ms))

theorem write_obj (members : List (String × Json)) :
    (Json.obj members).write = objectText (members.map fun m => (m.1, m.2.write)) := by
  rw [write, writeMembers_eq]
  rfl

/-! ### Scalars -/

theorem documentOf_null : Reads (documentOf part) ['n', 'u', 'l', 'l'] .null := by
  intro rest p he
  rw [documentOf, bind_ok (peekPart_cons ⟨by decide, by decide⟩ _ rest p)]
  exact word_reads (by decide) rfl Json.null rest p he

theorem documentOf_bool (b : Bool) : Reads (documentOf part) (write (.bool b)) (.bool b) := by
  intro rest p he
  cases b with
  | true =>
    rw [write, documentOf, bind_ok (peekPart_cons ⟨by decide, by decide⟩ _ rest p)]
    exact word_reads (by decide) rfl (Json.bool true) rest p he
  | false =>
    rw [write, documentOf, bind_ok (peekPart_cons ⟨by decide, by decide⟩ _ rest p)]
    exact word_reads (by decide) rfl (Json.bool false) rest p he

theorem documentOf_natural {w : Whole} {n : Nat} (hw : w.val = .ofNat n) :
    Reads (documentOf part) (Nat.toDigits 10 n) (.int w) := by
  intro rest p he
  have hsize : n < UInt64.size := by
    have := w.most
    rw [hw] at this
    exact Int.ofNat_lt.1 this
  obtain ⟨d, ds, hd, hdigit⟩ := toDigits_first n
  have apart {x : Char} (hx : x.isDigit = false) : d ≠ x := by
    rintro rfl
    rw [hdigit] at hx
    cases hx
  have hn : d ≠ 'n' := apart rfl
  have ht : d ≠ 't' := apart rfl
  have hf : d ≠ 'f' := apart rfl
  have hm : d ≠ '-' := apart rfl
  have hq : d ≠ '"' := apart rfl
  have hl : d ≠ '[' := apart rfl
  have ho : d ≠ '\x7b' := apart rfl
  rw [documentOf, hd, bind_ok (peekPart_cons (solid_digit hdigit) ds rest p)]
  simp only
  rw [if_pos hdigit, ← hd, number_ok false hsize he, integer_natural hw]

theorem documentOf_int (w : Whole) : Reads (documentOf part) (Text.intChars w.val) (.int w) := by
  cases hv : w.val with
  | ofNat n => exact documentOf_natural hv
  | negSucc n =>
    intro rest p he
    have hd : Solid '-' := ⟨by decide, by decide⟩
    have hsize : n + 1 < UInt64.size := by
      have := w.least
      rw [hv] at this
      exact Nat.lt_of_le_of_lt (by omega : n + 1 ≤ 9223372036854775808) (by decide)
    rw [Text.intChars, documentOf, bind_ok (peekPart_cons hd _ rest p)]
    simp only
    rw [bind_ok (skip_cons hd.ascii _ rest p), number_ok true hsize he, integer_negative hv, ← Place.past_cons]

theorem documentOf_str (s : String) : Reads (documentOf part) (writeString s) (.str s) := by
  intro rest p _
  rw [writeString, List.cons_append, documentOf, bind_ok (peekPart_cons solid_quote _ rest p)]
  simp only
  rw [bind_ok (skip_cons solid_quote.ascii _ rest p), bind_ok (string_ok s rest _), ← Place.past_cons]
  rfl

/-! ### Lists and objects -/

theorem documentOf_arr {texts : List (List Char)} {items : List Json} (h : List.Forall₂ (ReadsPart r) texts items) :
    Reads (documentOf (some r)) ('[' :: joined texts ++ [']']) (.arr items) := by
  intro rest p _
  rw [List.cons_append, documentOf, bind_ok (peekPart_cons solid_openBracket _ rest p)]
  simp only [enclosed]
  rw [bind_ok (skip_cons solid_openBracket.ascii _ rest p),
    bind_ok (closing_ok (listItems_ok h rest _) (endList_ok rest _)), ← Place.past_append, ← Place.past_cons]
  rfl

/-- What stands after a colon is read, and something is made of it. -/
theorem colon_reads {β γ : Type} {r : Reader β} {text : List Char} {b : β} (f : β → γ) (h : Reads r text b) :
    Reads (do colon; return f (← r)) (':' :: text) (f b) := by
  intro rest p he
  rw [bind_ok (colon_ok text rest p), h.map f rest _ he, ← Place.past_cons]

/-- Members that are each read are read one after the other. -/
theorem folds_of_reads {β : Type} {member : β → String → Reader β} (step : β → String × Json → β) :
    ∀ {members : List (String × Json)} (b : β),
      (∀ m ∈ members, ∀ b, Reads (member b m.1) (':' :: m.2.write) (step b m)) →
        Folds member b (members.map fun m => (m.1, m.2.write)) (members.foldl step b)
  | [], b, _ => .nil b
  | m :: _, b, h =>
    .cons (h m (List.mem_cons_self ..) b) (folds_of_reads step _ fun m' hm => h m' (List.mem_cons_of_mem m hm))

theorem documentOf_obj {members : List (String × Json)} (h : ∀ m ∈ members, Reads r m.2.write m.2) :
    Reads (documentOf (some r)) (objectText (members.map fun m => (m.1, m.2.write))) (.obj members) := by
  intro rest p _
  rw [objectText, documentOf, bind_ok (peekPart_cons solid_openBrace _ rest p)]
  simp only [enclosed]
  rw [bind_ok (skip_cons solid_openBrace.ascii _ rest p)]
  have hm : Folds (fun before name => do colon; return (name, ← r) :: before) []
      (members.map fun m => (m.1, m.2.write)) (members.foldl (fun before m => m :: before) []) :=
    folds_of_reads (fun before m => m :: before) [] fun m hm before =>
      colon_reads (fun j => (m.1, j) :: before) (h m hm)
  refine (bind_ok (closing_ok (objectMembers_ok hm rest _) (endObject_ok rest _))).trans ?_
  rw [List.foldl_flip_cons_eq_append', List.append_nil, List.reverse_reverse, ← Place.past_append, ← Place.past_cons]
  rfl

/-! ### All documents -/

theorem document_eq (room : Nat) : ∃ part, document room = documentOf part := by
  cases room with
  | zero => exact ⟨none, rfl⟩
  | succ room => exact ⟨some (document room), rfl⟩

theorem opens_write : ∀ {j : Json}, j.isFloatFree = true → Opens j.write
  | .null, _ => ⟨'n', _, rfl, ⟨by decide, by decide⟩, by decide⟩
  | .bool true, _ => ⟨'t', _, rfl, ⟨by decide, by decide⟩, by decide⟩
  | .bool false, _ => ⟨'f', _, rfl, ⟨by decide, by decide⟩, by decide⟩
  | .int ⟨.ofNat n, _, _⟩, _ => by
    obtain ⟨d, ds, hd, hdigit⟩ := toDigits_first n
    exact ⟨d, ds, hd, solid_digit hdigit, by rintro rfl; cases hdigit⟩
  | .int ⟨.negSucc n, _, _⟩, _ => ⟨'-', _, rfl, ⟨by decide, by decide⟩, by decide⟩
  | .str s, _ => ⟨'"', _, rfl, solid_quote, by decide⟩
  | .arr items, _ => ⟨'[', _, by rw [write]; rfl, solid_openBracket, by decide⟩
  | .obj members, _ => ⟨'\x7b', _, by rw [write]; rfl, solid_openBrace, by decide⟩

mutual

/-- A document without floating point numbers is read back from its text. -/
theorem reads_write : ∀ (j : Json) {room : Nat}, j.isFloatFree = true → j.depth ≤ room →
    Reads (document room) j.write j
  | .null, room, _, _ => by
    obtain ⟨part, hp⟩ := document_eq room
    rw [hp]
    exact documentOf_null
  | .bool b, room, _, _ => by
    obtain ⟨part, hp⟩ := document_eq room
    rw [hp]
    exact documentOf_bool b
  | .int n, room, _, _ => by
    obtain ⟨part, hp⟩ := document_eq room
    rw [hp, write]
    exact documentOf_int n
  | .str s, room, _, _ => by
    obtain ⟨part, hp⟩ := document_eq room
    rw [hp, write]
    exact documentOf_str s
  | .arr items, 0, _, hd => by cases hd
  | .arr items, room + 1, hf, hd => by
    rw [isFloatFree] at hf
    rw [depth] at hd
    rw [write, writeItems_eq]
    exact documentOf_arr (List.forall₂_map_left_iff.2 (List.forall₂_same.2
      (reads_items items hf (Nat.le_of_succ_le_succ hd))))
  | .obj members, 0, _, hd => by cases hd
  | .obj members, room + 1, hf, hd => by
    rw [isFloatFree] at hf
    rw [depth] at hd
    rw [write_obj]
    exact documentOf_obj (reads_members members hf (Nat.le_of_succ_le_succ hd))

theorem reads_items : ∀ (js : List Json) {room : Nat}, isFloatFreeItems js = true → depthItems js ≤ room →
    ∀ j ∈ js, ReadsPart (document room) j.write j
  | [], _, _, _ => nofun
  | j :: js, room, hf, hd => by
    rw [isFloatFreeItems, Bool.and_eq_true] at hf
    rw [depthItems, Nat.max_le] at hd
    exact List.forall_mem_cons.2 ⟨⟨opens_write hf.1, reads_write j hf.1 hd.1⟩, reads_items js hf.2 hd.2⟩

theorem reads_members : ∀ (ms : List (String × Json)) {room : Nat}, isFloatFreeMembers ms = true →
    depthMembers ms ≤ room → ∀ m ∈ ms, Reads (document room) m.2.write m.2
  | [], _, _, _ => nofun
  | (name, j) :: ms, room, hf, hd => by
    rw [isFloatFreeMembers, Bool.and_eq_true] at hf
    rw [depthMembers, Nat.max_le] at hd
    exact List.forall_mem_cons.2 ⟨reads_write j hf.1 hd.1, reads_members ms hf.2 hd.2⟩

end

end Reader

end NamedDispatch.Json
