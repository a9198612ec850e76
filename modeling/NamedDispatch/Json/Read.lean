/-
Reading lists, objects and whole documents. How many more brackets may be opened is bounded, and
every reader of a bracketed part is given the bound that holds inside it.
-/
import NamedDispatch.Json.Scalar

namespace NamedDispatch.Json.Reader

/-! ## Lists -/

/-- Whether another element follows; the first one needs no comma before it. -/
def elementFollows (first : Bool) : Reader Bool := do
  match ← peekPart with
  | none => failAhead .eofList
  | some ']' => return false
  | some c =>
    if first then return true
    else if c = ',' then do
      skip
      match ← peekPart with
      | none => failAhead .eofValue
      | some ']' => failAhead .trailingComma
      | some _ => return true
    else failAhead .expectedListEnd

/-- Reads the next element of a list, if another follows. -/
def element? {α : Type} (first : Bool) (r : Reader α) : Reader (Option α) := do
  if ← elementFollows first then return some (← r) else return none

/-- Reads the elements that follow, up to the closing bracket. -/
def elements {α : Type} (r : Reader α) : Steps → Bool → Reader (List α)
  | [], _ => return []
  | _ :: steps, first => do
    match ← element? first r with
    | none => return []
    | some a => return a :: (← elements r steps false)

/-- Reads every element of a list after its opening bracket; each takes a byte at least. -/
def listItems {α : Type} (r : Reader α) : Reader (List α) := do
  elements r (← stepsLeft) true

/-- Reads the closing bracket of a list; an element in its place is surplus. -/
def endList : Reader Unit := do
  match ← peekPart with
  | none => failAhead .eofList
  | some ']' => skip
  | some ',' => do
    skip
    match ← peekPart with
    | some ']' => failAhead .trailingComma
    | _ => failAhead .trailingCharacters
  | some _ => failAhead .trailingCharacters

/-! ## Objects -/

/-- Whether another member follows; the first one needs no comma before it. -/
def memberFollows (first : Bool) : Reader Bool := do
  match ← peekPart with
  | none => failAhead .eofObject
  | some '\x7d' => return false
  | some c =>
    if first then
      if c = '"' then return true else failAhead .keyNotText
    else if c = ',' then do
      skip
      match ← peekPart with
      | none => failAhead .eofValue
      | some '"' => return true
      | some '\x7d' => failAhead .trailingComma
      | some _ => failAhead .keyNotText
    else failAhead .expectedObjectEnd

/-- Reads the name of the next member of an object, if another follows. -/
def name? (first : Bool) : Reader (Option String) := do
  if ← memberFollows first then do
    skip
    return some (← string)
  else return none

/-- Reads the colon between a name and its value. -/
def colon : Reader Unit := do
  match ← peekPart with
  | none => failAhead .eofObject
  | some ':' => skip
  | some _ => failAhead .expectedColon

/-- Reads members up to the closing brace, handing each name to a reader that goes on from it. -/
def foldMembers {α : Type} (member : α → String → Reader α) : Steps → Bool → α → Reader α
  | [], _, a => return a
  | _ :: steps, first, a => do
    match ← name? first with
    | none => return a
    | some name => foldMembers member steps false (← member a name)

/-- Reads every member of an object after its opening brace. -/
def objectMembers {α : Type} (init : α) (member : α → String → Reader α) : Reader α := do
  foldMembers member (← stepsLeft) true init

/-- Reads the closing brace of an object; a member in its place is surplus. -/
def endObject : Reader Unit := do
  match ← peekPart with
  | none => failAhead .eofObject
  | some '\x7d' => skip
  | some ',' => failAhead .trailingComma
  | some _ => failAhead .trailingCharacters

/-! ## Nesting -/

/-- How many brackets may stand open at once. -/
def nestingLimit : Nat := 127

/-- Reads an opening bracket and what it encloses, if one more may be opened. -/
def opened {α : Type} (r : Nat → Reader α) : Nat → Reader α
  | 0 => failAhead .nesting
  | room + 1 => do skip; r room

/-- Reads a list: its opening bracket, what `items` reads, and its end even after a fault. -/
def bracketed {α : Type} (items : Nat → Reader α) (room : Nat) : Reader α :=
  closing (opened items room) endList

/-- Reads an object: its opening brace, what `members` reads, and its end even after a fault. -/
def braced {α : Type} (members : Nat → Reader α) (room : Nat) : Reader α :=
  closing (opened members room) endObject

/-! ## Documents -/

/-- Reads a list or an object whose parts the given reader reads, if one may be opened. -/
def enclosed (part : Option (Reader Json)) (r : Reader Json → Reader Json) : Reader Json :=
  match part with
  | none => failAhead .nesting
  | some part => do skip; r part

/-- Reads a document as written, its parts by the given reader. -/
def documentOf (part : Option (Reader Json)) : Reader Json := do
  match ← peekPart with
  | none => failAhead .eofValue
  | some 'n' => do skip; word ['u', 'l', 'l']; return .null
  | some 't' => do skip; word ['r', 'u', 'e']; return .bool true
  | some 'f' => do skip; word ['a', 'l', 's', 'e']; return .bool false
  | some '-' => do skip; number true
  | some '"' => do skip; return .str (← string)
  | some '[' =>
    enclosed part fun part => do
      return .arr (← closing (listItems part) endList)
  | some '\x7b' =>
    enclosed part fun part => do
      let member (ms : List (String × Json)) (name : String) : Reader (List (String × Json)) := do
        colon
        return (name, ← part) :: ms
      return .obj (← closing (objectMembers [] member) endObject).reverse
  | some c => if c.isDigit then number false else failAhead .expectedValue

/-- Reads a document as written, with at most the given number of brackets open at once. -/
def document : Nat → Reader Json
  | 0 => documentOf none
  | room + 1 => documentOf (some (document room))

/-- Reads a document, and gives its value. -/
def value (room : Nat) : Reader Json := do return (← document room).value

/-! ## Whole texts -/

/-- Refuses anything but blanks after the part that was read. -/
def endOfText : Reader Unit := do
  match ← peekPart with
  | none => return ()
  | some _ => failAhead .trailingCharacters

/-- Reads a text as a whole; nothing may follow what `r` reads. -/
def wholeText {α : Type} (r : Nat → Reader α) : Reader α := do
  let a ← r nestingLimit
  endOfText
  return a

/-- The result of reading the bytes of a text as a whole. -/
def run {α : Type} (r : Nat → Reader α) (bytes : List UInt8) : Except Fault α :=
  match wholeText r (.start bytes) with
  | .ok a _ => .ok a
  | .error f _ => .error f

end NamedDispatch.Json.Reader
