/-
Going past a member nobody asked for. Its text must have the form of a document, but it may nest to
any depth and its strings need not be UTF-8.
-/
import NamedDispatch.Json.Read

namespace NamedDispatch.Json.Reader

/-! ## Scalars -/

/-- Goes past an escape after its backslash; a code may be any four hexadecimal digits. -/
def skipEscape : Reader Unit := do
  match ← next with
  | none => failHere .eofString
  | some 'u' => do
    let _ ← hexCode
    return ()
  | some c =>
    if ['"', '\\', '/', 'b', 'f', 'n', 'r', 't'].contains c then return ()
    else failHere .invalidEscape

/-- Goes past a string after its opening quote. -/
def skipString : Steps → Reader Unit
  | [] => failHere .eofString
  | _ :: steps => do
    match ← peek with
    | none => failHere .eofString
    | some '"' => skip
    | some '\\' => do skip; skipEscape; skipString steps
    | some c => if c.toNat < 0x20 then failHere .controlCharacter else do skip; skipString steps

/-- Goes past an exponent from its letter on. -/
def skipExponent : Reader Unit := do
  skip
  match ← peek with
  | some '+' | some '-' => skip
  | _ => pure ()
  match ← next with
  | none => failHere .invalidNumber
  | some c =>
    if c.isDigit then do
      let _ ← countDigits (← stepsLeft) 0
      return ()
    else failHere .invalidNumber

/-- Goes past what may follow the digits of a number. -/
def skipExponent? : Reader Unit := do
  match ← peek with
  | some 'e' | some 'E' => skipExponent
  | _ => return ()

/-- Goes past a number after its sign. -/
def skipNumber : Reader Unit := do
  match ← next with
  | none => failHere .invalidNumber
  | some c =>
    if !c.isDigit then failHere .invalidNumber
    else do
      if c = '0' then
        match ← peekDigit with
        | some _ => failAhead .invalidNumber
        | none => pure ()
      else do
        let _ ← countDigits (← stepsLeft) 0
      match ← peek with
      | some '.' => do
        skip
        if (← countDigits (← stepsLeft) 0) = 0 then failAhead .invalidNumber
        skipExponent?
      | _ => skipExponent?

/-! ## Documents -/

/-- What an open bracket encloses. -/
inductive Enclosure where
  | list
  | object
deriving DecidableEq

/-- What may come next while going past a document. -/
inductive Expecting where
  | value
  | name
  | next

/-- Whether the bracket that was opened last is closed at once. -/
def closesAtOnce (bracket : Char) (atEnd : Cause) : Reader Bool := do
  match ← peekPart with
  | none => failAhead atEnd
  | some c => return c == bracket

/-- Goes past the rest of a document, inside the brackets that are open. -/
def skipRest : Steps → Expecting → List Enclosure → Reader Unit
  | [], _, _ => return ()
  | _ :: steps, .value, open_ => do
    match ← peekPart with
    | none => failAhead .eofValue
    | some 'n' => do skip; word ['u', 'l', 'l']; skipRest steps .next open_
    | some 't' => do skip; word ['r', 'u', 'e']; skipRest steps .next open_
    | some 'f' => do skip; word ['a', 'l', 's', 'e']; skipRest steps .next open_
    | some '-' => do skip; skipNumber; skipRest steps .next open_
    | some '"' => do skip; skipString (← stepsLeft); skipRest steps .next open_
    | some '[' => do
      skip
      if ← closesAtOnce ']' .eofList then do skip; skipRest steps .next open_
      else skipRest steps .value (.list :: open_)
    | some '\x7b' => do
      skip
      if ← closesAtOnce '\x7d' .eofObject then do skip; skipRest steps .next open_
      else skipRest steps .name (.object :: open_)
    | some c =>
      if c.isDigit then do skipNumber; skipRest steps .next open_ else failAhead .expectedValue
  | _ :: steps, .name, open_ => do
    match ← peekPart with
    | none => failAhead .eofObject
    | some '"' => do
      skip
      skipString (← stepsLeft)
      colon
      skipRest steps .value open_
    | some _ => failAhead .keyNotText
  | _ :: _, .next, [] => return ()
  | _ :: steps, .next, .list :: open_ => do
    match ← peekPart with
    | none => failAhead .eofList
    | some ',' => do skip; skipRest steps .value (.list :: open_)
    | some ']' => do skip; skipRest steps .next open_
    | some _ => failAhead .expectedListEnd
  | _ :: steps, .next, .object :: open_ => do
    match ← peekPart with
    | none => failAhead .eofObject
    | some ',' => do skip; skipRest steps .name (.object :: open_)
    | some '\x7d' => do skip; skipRest steps .next open_
    | some _ => failAhead .expectedObjectEnd

/-- Goes past a document, whatever it nests. -/
def skipDocument : Reader Unit := do skipRest (← stepsLeft) .value []

end NamedDispatch.Json.Reader
