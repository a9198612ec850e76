/-
Reading a text byte by byte. A reader leaves the cursor where it stopped even when it fails, since
the place of some faults is that of a later stop.
-/
import NamedDispatch.Json.Fault

namespace NamedDispatch.Json

/-- The bytes not read yet, and their place. -/
structure Cursor where
  rest : List UInt8
  place : Place

/-- The cursor before the first byte of a text. -/
def Cursor.start (bytes : List UInt8) : Cursor := ⟨bytes, .start⟩

/-- The cursor after the next byte; at the end it stays. -/
def Cursor.advance (c : Cursor) : Cursor :=
  match c.rest with
  | [] => c
  | b :: bs => ⟨bs, c.place.after b⟩

/-- A reader of some result: a fault or the result, and the cursor after either. -/
abbrev Reader := EStateM Fault Cursor

namespace Reader

/-! ## Failing -/

/-- Fails with a fault whose place is not known yet. -/
def fail {α : Type} (cause : Cause) : Reader α := fun c => .error ⟨cause, none⟩ c

/-- Fails at the place where the cursor stands. -/
def failHere {α : Type} (cause : Cause) : Reader α := fun c => .error ⟨cause, some c.place⟩ c

/-- Fails at the place after the next byte, which is the one that does not fit. -/
def failAhead {α : Type} (cause : Cause) : Reader α :=
  fun c => .error ⟨cause, some c.advance.place⟩ c

/-- Gives a fault that has no place yet the place where the reader stopped. -/
def located {α : Type} (r : Reader α) : Reader α := fun c =>
  match r c with
  | .ok a c => .ok a c
  | .error f c => .error (f.atPlace c.place) c

/-- Runs a reader, then another one even when the first failed; the first fault counts. -/
def closing {α : Type} (r : Reader α) (close : Reader Unit) : Reader α := fun c =>
  match r c with
  | .ok a c =>
    match close c with
    | .ok _ c => .ok a c
    | .error f c => .error f c
  | .error f c =>
    match close c with
    | .ok _ c => .error f c
    | .error _ c => .error f c

/-- The result of a check that knows no place. -/
def ofExcept {α : Type} : Except Cause α → Reader α
  | .ok a => pure a
  | .error cause => fail cause

/-! ## Single bytes -/

/-- The next byte as the character of that code, without reading it. -/
def peek : Reader (Option Char) := fun c =>
  .ok (c.rest.head?.map fun b => Char.ofNat b.toNat) c

/-- Goes past the next byte. -/
def skip : Reader Unit := fun c => .ok () c.advance

/-- Reads the next byte as the character of that code. -/
def next : Reader (Option Char) := fun c =>
  .ok (c.rest.head?.map fun b => Char.ofNat b.toNat) c.advance

/-- Goes past so many bytes, or to the end. -/
def skipMany : Nat → Reader Unit
  | 0 => pure ()
  | n + 1 => do skip; skipMany n

/-- A bound on the steps of a loop that goes past a byte in each: the length of the list. -/
abbrev Steps := List UInt8

/-- A step for each byte that is left, and one more to notice the end. -/
def stepsLeft : Reader Steps := fun c => .ok (0 :: c.rest) c

/-! ## Blanks and words -/

/-- A blank between the parts of a document: a space, a line end, a tab or a carriage return. -/
def isGap (b : UInt8) : Bool := b == 0x20 || b == 0x0A || b == 0x09 || b == 0x0D

/-- The cursor at the first byte that is no blank. -/
def dropGaps : List UInt8 → Place → Cursor
  | [], p => ⟨[], p⟩
  | b :: bs, p => if isGap b then dropGaps bs (p.after b) else ⟨b :: bs, p⟩

/-- Goes past blanks and shows the byte after them. -/
def peekPart : Reader (Option Char) := fun c =>
  peek (dropGaps c.rest c.place)

/-- Reads the rest of a word whose first letter has been read. -/
def word : List Char → Reader Unit
  | [] => pure ()
  | expected :: cs => do
    match ← next with
    | none => failHere .eofValue
    | some met => if met = expected then word cs else failHere .expectedWord

end Reader

end NamedDispatch.Json
