/-
Reading a text straight into a type. A part of another type is refused where it stands: after a
scalar, before a bracket.
-/
import NamedDispatch.Json.Read
import NamedDispatch.Json.Skip

namespace NamedDispatch.Json

/-- What a document is, when something else was wanted. -/
def found : Json → Found
  | .null => .null
  | .bool b => .bool b
  | .int n => .integer n.val
  | .float x => .float x
  | .str s => .text s
  | .arr _ => .sequence
  | .obj _ => .map

namespace Reader

/-! ## Other types -/

/-- Refuses whatever stands next, since something else was wanted. -/
def refuse {α : Type} (wanted : String) : Reader α := located do
  match ← peekPart with
  | some '[' => fail (.wrongType .sequence wanted)
  | some '\x7b' => fail (.wrongType .map wanted)
  | some c =>
    if c.isDigit ∨ ['n', 't', 'f', '-', '"'].contains c then do
      let j ← documentOf none
      fail (.wrongType j.found wanted)
    else failAhead .expectedValue
  | none => failAhead .expectedValue

/-! ## Scalars -/

/-- Reads a natural number of 64 bits. -/
def natural (wanted : String) : Reader UInt64 := located do
  match ← peekPart with
  | none => failAhead .eofValue
  | some c =>
    if c.isDigit ∨ c = '-' then do
      match ← documentOf none with
      | .int n =>
        if 0 ≤ n.val then return UInt64.ofNat n.val.toNat
        else fail (.wrongValue (.integer n.val) wanted)
      | j => fail (.wrongType j.found wanted)
    else refuse wanted

/-- Reads a string. -/
def text (wanted : String) : Reader String := located do
  match ← peekPart with
  | none => failAhead .eofValue
  | some '"' => do skip; string
  | some _ => refuse wanted

/-- Reads `true` or `false`. -/
def flag : Reader Bool := located do
  match ← peekPart with
  | none => failAhead .eofValue
  | some 't' => do skip; word ['r', 'u', 'e']; return true
  | some 'f' => do skip; word ['a', 'l', 's', 'e']; return false
  | some _ => refuse "a boolean"

/-- Reads `null`, or else what `r` reads. -/
def nullable {α : Type} (r : Reader α) : Reader (Option α) := do
  match ← peekPart with
  | some 'n' => do skip; word ['u', 'l', 'l']; return none
  | _ => return some (← r)

/-! ## Names of variants -/

/-- The variant of a name, among all variants with their names. -/
def variantOf {α : Type} (all : List (String × α)) (name : String) : Except Cause α :=
  match all.lookup name with
  | some a => .ok a
  | none => .error (.unknownVariant name (all.map (·.1)))

/-- Reads the name of a variant, a string. -/
def variantName {α : Type} (all : List (String × α)) : Reader α := located do
  ofExcept (variantOf all (← text "variant identifier"))

/-- Reads `null` as the content of a variant that has none. -/
def nothing : Reader Unit := located do
  match ← peekPart with
  | none => failAhead .eofValue
  | some 'n' => do skip; word ['u', 'l', 'l']
  | some _ => refuse "unit"

/-- Reads the variant that the first member of an object names. -/
def variantMember {α : Type} (all : List (String × α)) : Reader α := located do
  match ← name? true with
  | none => failAhead .expectedValue
  | some name => ofExcept (variantOf all name)

/-- Reads a variant without content: its name, or an object from its name to `null`. -/
def bareVariant {α : Type} (all : List (String × α)) (room : Nat) : Reader α := do
  match ← peekPart with
  | none => failAhead .eofValue
  | some '"' => variantName all
  | some '\x7b' => do
    let a ← opened (fun _ => do
      let a ← variantMember all
      colon
      nothing
      return a) room
    match ← peekPart with
    | none => failHere .eofObject
    | some '\x7d' => do skip; return a
    | some _ => failHere .expectedValue
  | some _ => failAhead .expectedValue

/-! ## Lists and records -/

/-- Reads a list whose elements `part` reads. -/
def list {α : Type} (part : Nat → Reader α) (room : Nat) : Reader (List α) := located do
  match ← peekPart with
  | none => failAhead .eofValue
  | some '[' => bracketed (fun room => listItems (part room)) room
  | some _ => refuse "a sequence"

/-- Reads a record from an object of its fields, or from a list of them in their order. -/
def record {α : Type} (wanted : String) (inOrder byName : Nat → Reader α) (room : Nat) :
    Reader α := located do
  match ← peekPart with
  | none => failAhead .eofValue
  | some '[' => bracketed inOrder room
  | some '\x7b' => braced byName room
  | some _ => refuse wanted

/-- Reads the value of a field, which may be met once: `before` is what was met of it. -/
def field {α : Type} (name : String) (before : Option α) (r : Reader α) : Reader (Option α) := do
  match before with
  | some _ => fail (.duplicateField name)
  | none => do
    colon
    return some (← r)

/-- Goes past the value of a field that nobody asked for. -/
def otherField : Reader Unit := do colon; skipDocument

/-- A field that must have been met. -/
def required {α : Type} (name : String) : Option α → Reader α
  | some a => return a
  | none => fail (.missingField name)

/-- The next field of a record written as a list, of which so many have been read. -/
def nextField {α : Type} (wanted : String) (before : Nat) (r : Reader α) : Reader α := do
  match ← element? (before = 0) r with
  | some a => return a
  | none => fail (.wrongLength before wanted)

/-! ## Tagged documents -/

/-- Reads a document that carries a tag: the tag by its reader, and the rest as written. In a list
the tag stands first. -/
def tagged {τ : Type} (name wanted : String) (tag : Reader τ) (room : Nat) : Reader (τ × Json) :=
  record wanted
    (fun room => do
      match ← element? true tag with
      | none => fail (.missingField name)
      | some t => return (t, .arr (← elements (document room) (← stepsLeft) false)))
    (fun room => do
      let member (read : Option τ × List (String × Json)) (key : String) :
          Reader (Option τ × List (String × Json)) := do
        if key = name then return (← field name read.1 tag, read.2)
        else do
          colon
          return (read.1, (key, ← document room) :: read.2)
      let (t, rest) ← objectMembers (none, []) member
      return (← required name t, .obj rest.reverse))
    room

end Reader

end NamedDispatch.Json
