/-
Plans as JSON texts. An invocation is an object that names its macro; in a list of values the macro
stands first.
-/
import NamedDispatch.Json.Shape
import NamedDispatch.Json.Write
import NamedDispatch.Plan.Basic

namespace NamedDispatch

open Json (Reader Cause Fault)

/-! ## Kinds of invocations -/

/-- Which macro an invocation names. -/
inductive Form.Kind where
  | attach
  | attachMany
  | singleAlias
  | multiAlias
  | aliasPairs
deriving DecidableEq, Repr

namespace Form

namespace Kind

/-- The kinds with the names that documents give them. -/
def all : List (String × Kind) :=
  [("attach", .attach), ("attach_many", .attachMany), ("alias", .singleAlias),
   ("multi_alias", .multiAlias), ("alias_pairs", .aliasPairs)]

/-- The name of a kind, under `macro` in an invocation. -/
def name : Kind → String
  | .attach => "attach"
  | .attachMany => "attach_many"
  | .singleAlias => "alias"
  | .multiAlias => "multi_alias"
  | .aliasPairs => "alias_pairs"

end Kind

/-- Which macro the invocation names. -/
def kind : Form → Kind
  | .attach _ => .attach
  | .attachMany _ => .attachMany
  | .singleAlias _ _ => .singleAlias
  | .multiAlias _ _ => .multiAlias
  | .aliasPairs _ => .aliasPairs

end Form

namespace Group

/-! ## Writing -/

/-- The document of a list of names. -/
def listJson (ss : List String) : Json := .arr (ss.map .str)

/-- The document of a function and the name it goes under. -/
def pairJson (p : String × String) : Json := .arr [.str p.1, .str p.2]

/-- The members of an invocation that its kind has. -/
def formMembers : Form → List (String × Json)
  | .attach func => [("func", .str func)]
  | .attachMany funcs => [("funcs", listJson funcs)]
  | .singleAlias func name => [("func", .str func), ("alias", .str name)]
  | .multiAlias func names => [("func", .str func), ("aliases", listJson names)]
  | .aliasPairs pairs => [("pairs", .arr (pairs.map pairJson))]

/-- The document of an invocation: its kind, what that has, and whether results are kept. -/
def toJson (g : Group) : Json :=
  .obj (("macro", .str g.form.kind.name) :: formMembers g.form ++ [("cached", .bool g.cached)])

/-! ## Reading -/

/-- What is wanted where the content of an invocation stands. -/
def wanted : Form.Kind → String
  | .attach => "struct variant Group::Attach"
  | .attachMany => "struct variant Group::AttachMany"
  | .singleAlias => "struct variant Group::Alias"
  | .multiAlias => "struct variant Group::MultiAlias"
  | .aliasPairs => "struct variant Group::AliasPairs"

/-- A name. -/
def asText : Json → Except Cause String := Json.Shape.text "a string"

/-- A list of names. -/
def asList : Json → Except Cause (List String) := Json.Shape.list asText

/-- A list of functions, each with the name it goes under. -/
def asPairs : Json → Except Cause (List (String × String)) :=
  Json.Shape.list (Json.Shape.pair .kept asText asText)

/-- The invocation of a kind, from what was kept of its text. -/
def ofContent (k : Form.Kind) (content : Json) : Except Cause Group :=
  match k with
  | .attach => do
    let (func, cached) ← Json.Shape.recordOfTwo .kept (wanted k) "func" "cached" asText
      Json.Shape.flag content
    return ⟨.attach func, cached⟩
  | .attachMany => do
    let (funcs, cached) ← Json.Shape.recordOfTwo .kept (wanted k) "funcs" "cached" asList
      Json.Shape.flag content
    return ⟨.attachMany funcs, cached⟩
  | .singleAlias => do
    let (func, name, cached) ← Json.Shape.recordOfThree .kept (wanted k) "func" "alias" "cached"
      asText asText Json.Shape.flag content
    return ⟨.singleAlias func name, cached⟩
  | .multiAlias => do
    let (func, names, cached) ← Json.Shape.recordOfThree .kept (wanted k) "func" "aliases" "cached"
      asText asList Json.Shape.flag content
    return ⟨.multiAlias func names, cached⟩
  | .aliasPairs => do
    let (pairs, cached) ← Json.Shape.recordOfTwo .kept (wanted k) "pairs" "cached" asPairs
      Json.Shape.flag content
    return ⟨.aliasPairs pairs, cached⟩

/-- Reads an invocation by the kind it names. -/
def reader (room : Nat) : Reader Group := do
  let (k, content) ←
    Reader.tagged "macro" "internally tagged enum Group" (Reader.variantName Form.Kind.all) room
  Reader.ofExcept (ofContent k content)

end Group

namespace Plan

/-! ## Plans -/

/-- The document of a plan. -/
def toJson (p : Plan) : Json := .obj [("groups", .arr (p.groups.map Group.toJson))]

/-- The text of a plan. -/
def toText (p : Plan) : String := p.toJson.render

/-- What is wanted where a plan stands. -/
def wanted : String := "struct DispatchPlan"

/-- What is wanted where a list has too few elements. -/
def wantedInOrder : String := wanted ++ " with 1 element"

/-- Reads the field of a plan as a list of one element. -/
def readInOrder (room : Nat) : Reader Plan := do
  return ⟨← Reader.nextField wantedInOrder 0 (Reader.list Group.reader room)⟩

/-- Reads the field of a name, or goes past one that a plan does not have. -/
def readField (room : Nat) (groups : Option (List Group)) (name : String) :
    Reader (Option (List Group)) := do
  if name = "groups" then Reader.field name groups (Reader.list Group.reader room)
  else
    Reader.otherField
    return groups

/-- Reads the fields of a plan by their names. -/
def readByName (room : Nat) : Reader Plan := do
  return ⟨← Reader.required "groups" (← Reader.objectMembers none (readField room))⟩

/-- Reads a plan, as an object or as a list. -/
def reader (room : Nat) : Reader Plan := Reader.record wanted readInOrder readByName room

/-- The plan that the bytes of a text stand for. -/
def ofBytes (bytes : List UInt8) : Except Fault Plan := Reader.run reader bytes

end Plan

end NamedDispatch
