/-
Taking a document that has been read apart by the type it should have. Documents come from two
places, which differ in how they report surplus elements and in what they take for nothing.
-/
import NamedDispatch.Json.Typed

namespace NamedDispatch.Json

/-- How a document that has been read reports what does not fit its type. -/
structure Origin where
  surplus : (length taken : Nat) → Cause
  emptyIsNothing : Bool

/-- A document that came as an argument of a call. -/
def Origin.argument : Origin := ⟨fun n _ => .wrongLength n "fewer elements in array", false⟩

/-- The part of a text that was kept while its tag was looked for. -/
def Origin.kept : Origin :=
  ⟨fun n taken => .wrongLength n
    (toString taken ++ (if taken = 1 then " element" else " elements") ++ " in sequence"), true⟩

namespace Shape

/-- Refuses a document since something else was wanted. -/
def refuse {α : Type} (wanted : String) (j : Json) : Except Cause α :=
  .error (.wrongType j.found wanted)

/-! ## Scalars -/

/-- A string. -/
def text (wanted : String) : Json → Except Cause String
  | .str s => .ok s
  | j => refuse wanted j

/-- A boolean. -/
def flag : Json → Except Cause Bool
  | .bool b => .ok b
  | j => refuse "a boolean" j

/-- An integer from `least` to `most`; a number with a point is none. -/
def integer (wanted : String) (least most : Int) : Json → Except Cause Int
  | .int n =>
    if least ≤ n.val ∧ n.val ≤ most then .ok n.val else .error (.wrongValue (.integer n.val) wanted)
  | j => refuse wanted j

/-- A number of the format nearest to the one given, be it an integer or not. -/
def float (wanted : String) (f : Format) : Json → Except Cause Double
  | .int n => .ok (.ofInt f n.val)
  | .float x => .ok (x.fit f)
  | j => refuse wanted j

/-- A string of one character. -/
def character : Json → Except Cause Char
  | .str s =>
    match s.toList with
    | [c] => .ok c
    | _ => .error (.wrongValue (.text s) "a character")
  | j => refuse "a character" j

/-- The document `null`, and the empty object where that stands for nothing. -/
def nothing (o : Origin) : Json → Except Cause Unit
  | .null => .ok ()
  | .obj ms => if o.emptyIsNothing && ms.isEmpty then .ok () else refuse "unit" (.obj ms)
  | j => refuse "unit" j

/-- The document `null`, or else what fits the shape. -/
def nullable {α : Type} (shape : Json → Except Cause α) : Json → Except Cause (Option α)
  | .null => .ok none
  | j => some <$> shape j

/-! ## Lists -/

/-- A list whose elements fit the shape. -/
def list {α : Type} (shape : Json → Except Cause α) : Json → Except Cause (List α)
  | .arr items => items.mapM shape
  | j => refuse "a sequence" j

/-- Takes the elements in their order by the shapes given; too few or too many do not fit. -/
def inOrder {α : Type} (o : Origin) (wanted : String) (length : Nat) :
    Nat → List (Json → Except Cause α) → List Json → Except Cause (List α)
  | _, [], [] => .ok []
  | taken, [], _ :: _ => .error (o.surplus length taken)
  | taken, _ :: _, [] => .error (.wrongLength taken wanted)
  | taken, shape :: shapes, j :: js => do
    let a ← shape j
    return a :: (← inOrder o wanted length (taken + 1) shapes js)

/-- A list of exactly `n` elements that fit the shape. -/
def array {α : Type} (o : Origin) (n : Nat) (shape : Json → Except Cause α) :
    Json → Except Cause (List α)
  | .arr items =>
    inOrder o ("an array of length " ++ toString n) items.length 0 (List.replicate n shape) items
  | j => refuse ("an array of length " ++ toString n) j

/-- A list of exactly two elements, the first of which is looked at even if the second is
missing. -/
def two {α β : Type} (o : Origin) (wanted : String) (first : Json → Except Cause α)
    (second : Json → Except Cause β) : List Json → Except Cause (α × β)
  | [] => .error (.wrongLength 0 wanted)
  | [a] => do
    let _ ← first a
    .error (.wrongLength 1 wanted)
  | a :: b :: rest => do
    let a ← first a
    let b ← second b
    if rest.isEmpty then return (a, b) else .error (o.surplus (rest.length + 2) 2)

/-- A list of exactly three elements, taken from left to right as far as they go. -/
def three {α β γ : Type} (o : Origin) (wanted : String) (first : Json → Except Cause α)
    (second : Json → Except Cause β) (third : Json → Except Cause γ) :
    List Json → Except Cause (α × β × γ)
  | [] => .error (.wrongLength 0 wanted)
  | [a] => do
    let _ ← first a
    .error (.wrongLength 1 wanted)
  | [a, b] => do
    let _ ← first a
    let _ ← second b
    .error (.wrongLength 2 wanted)
  | a :: b :: c :: rest => do
    let a ← first a
    let b ← second b
    let c ← third c
    if rest.isEmpty then return (a, b, c) else .error (o.surplus (rest.length + 3) 3)

/-- A list of two elements, as a pair. -/
def pair {α β : Type} (o : Origin) (first : Json → Except Cause α)
    (second : Json → Except Cause β) : Json → Except Cause (α × β)
  | .arr items => two o "a tuple of size 2" first second items
  | j => refuse "a tuple of size 2" j

/-! ## Objects -/

/-- An object of any members, each with a value that fits the shape. -/
def mapping {α : Type} (shape : Json → Except Cause α) : Json → Except Cause (List (String × α))
  | .obj ms => ms.mapM fun m => do return (m.1, ← shape m.2)
  | j => refuse "a map" j

/-- The value of a field, which may be met once: `before` is what was met of it. -/
def field {α : Type} (name : String) (before : Option α) (shape : Json → Except Cause α)
    (j : Json) : Except Cause (Option α) :=
  match before with
  | some _ => .error (.duplicateField name)
  | none => some <$> shape j

/-- A field that must have been met. -/
def required {α : Type} (name : String) : Option α → Except Cause α
  | some a => .ok a
  | none => .error (.missingField name)

/-- Two fields by their names; other members are ignored. -/
def twoFields {α β : Type} (name₁ name₂ : String) (first : Json → Except Cause α)
    (second : Json → Except Cause β) (members : List (String × Json)) : Except Cause (α × β) := do
  let step (met : Option α × Option β) (m : String × Json) : Except Cause (Option α × Option β) := do
    if m.1 = name₁ then return (← field name₁ met.1 first m.2, met.2)
    else if m.1 = name₂ then return (met.1, ← field name₂ met.2 second m.2)
    else return met
  let met ← members.foldlM step (none, none)
  return (← required name₁ met.1, ← required name₂ met.2)

/-- Three fields by their names; other members are ignored. -/
def threeFields {α β γ : Type} (name₁ name₂ name₃ : String) (first : Json → Except Cause α)
    (second : Json → Except Cause β) (third : Json → Except Cause γ)
    (members : List (String × Json)) : Except Cause (α × β × γ) := do
  let step (met : Option α × Option β × Option γ) (m : String × Json) :
      Except Cause (Option α × Option β × Option γ) := do
    if m.1 = name₁ then return (← field name₁ met.1 first m.2, met.2.1, met.2.2)
    else if m.1 = name₂ then return (met.1, ← field name₂ met.2.1 second m.2, met.2.2)
    else if m.1 = name₃ then return (met.1, met.2.1, ← field name₃ met.2.2 third m.2)
    else return met
  let met ← members.foldlM step (none, none, none)
  return (← required name₁ met.1, ← required name₂ met.2.1, ← required name₃ met.2.2)

/-- A record of two fields, written as an object or as a list. -/
def recordOfTwo {α β : Type} (o : Origin) (wanted name₁ name₂ : String)
    (first : Json → Except Cause α) (second : Json → Except Cause β) : Json → Except Cause (α × β)
  | .arr items => two o (wanted ++ " with 2 elements") first second items
  | .obj members => twoFields name₁ name₂ first second members
  | j => refuse wanted j

/-- A record of three fields, written as an object or as a list. -/
def recordOfThree {α β γ : Type} (o : Origin) (wanted name₁ name₂ name₃ : String)
    (first : Json → Except Cause α) (second : Json → Except Cause β)
    (third : Json → Except Cause γ) : Json → Except Cause (α × β × γ)
  | .arr items => three o (wanted ++ " with 3 elements") first second third items
  | .obj members => threeFields name₁ name₂ name₃ first second third members
  | j => refuse wanted j

/-! ## Variants -/

/-- A variant by its name, with the document that stands for its content, if any. -/
def variant {α : Type} (all : List (String × α)) : Json → Except Cause (α × Option Json)
  | .str s => do return (← Reader.variantOf all s, none)
  | .obj [(name, j)] => do return (← Reader.variantOf all name, some j)
  | .obj _ => .error (.wrongValue .map "map with a single key")
  | j => refuse "string or map" j

/-- A variant without content: its name, or an object from its name to nothing. -/
def bareVariant {α : Type} (o : Origin) (all : List (String × α)) (j : Json) : Except Cause α := do
  let (a, content) ← variant all j
  match content with
  | none => return a
  | some c => do
    nothing o c
    return a

end Shape

end NamedDispatch.Json
