/-
What clients and servers send each other as JSON texts: requests, responses, and descriptions of
bound functions.
-/
import NamedDispatch.Json.Shape
import NamedDispatch.Json.Write
import NamedDispatch.Remote.Fault

namespace NamedDispatch

open Json (Reader Cause Fault)

/-! ## Requests -/

/-- A call of a function by name. -/
structure Request where
  func : String
  args : List Json

namespace Request

/-- The document of a request, `func_name` before `args`. -/
def toJson (r : Request) : Json := .obj [("func_name", .str r.func), ("args", .arr r.args)]

/-- The text of a request. -/
def toText (r : Request) : String := r.toJson.render

/-- What is wanted where a request stands. -/
def wanted : String := "struct Request"

/-- What is wanted where a list has too few elements. -/
def wantedInOrder : String := wanted ++ " with 2 elements"

/-- Reads `func_name`, any text. -/
def readFunc : Reader String := Reader.text "a string"

/-- Reads `args`, a list of documents. -/
def readArgs (room : Nat) : Reader (List Json) := Reader.list Reader.value room

/-- Reads the fields as a list; the arguments may be left out. -/
def readInOrder (room : Nat) : Reader Request := do
  let func ← Reader.nextField wantedInOrder 0 readFunc
  let args ← Reader.element? false (readArgs room)
  return ⟨func, args.getD []⟩

/-- Reads the field of a name, or goes past one that a request does not have. -/
def readField (room : Nat) (f : Option String × Option (List Json)) (name : String) :
    Reader (Option String × Option (List Json)) := do
  match name with
  | "func_name" => return (← Reader.field name f.1 readFunc, f.2)
  | "args" => return (f.1, ← Reader.field name f.2 (readArgs room))
  | _ =>
    Reader.otherField
    return f

/-- Reads the fields by their names; the arguments may be left out. -/
def readByName (room : Nat) : Reader Request := do
  let f ← Reader.objectMembers (none, none) (readField room)
  return ⟨← Reader.required "func_name" f.1, f.2.getD []⟩

/-- Reads a request, as an object or as a list. -/
def reader (room : Nat) : Reader Request := Reader.record wanted readInOrder readByName room

/-- The request that the bytes of a text stand for. -/
def ofBytes (bytes : List UInt8) : Except Fault Request := Reader.run reader bytes

end Request

/-! ## Responses -/

/-- The answer to a request. -/
inductive Response where
  | result (func : String) (value : Json)
  | fault (func : String) (cause : DispatchFault)

namespace Response

/-- What a response tells: a result or a fault. -/
def outcome : Response → Except DispatchFault Json
  | .result _ value => .ok value
  | .fault _ cause => .error cause

/-- The response that tells what came of a call. -/
def ofOutcome (func : String) : Except DispatchFault Json → Response
  | .ok value => .result func value
  | .error cause => .fault func cause

/-- The document of a response, with its kind under `type`. -/
def toJson : Response → Json
  | .result func value =>
    .obj [("type", .str "func_result"), ("func_name", .str func), ("result", value)]
  | .fault func cause =>
    .obj [("type", .str "func_error"), ("func_name", .str func), ("kind", .str cause.kind.name),
      ("message", .str cause.message)]

/-- The text of a response. -/
def toText (r : Response) : String := r.toJson.render

/-- The two kinds of responses. -/
inductive Kind where
  | result
  | fault
deriving DecidableEq, Repr

/-- The kinds with the names that documents give them. -/
def Kind.all : List (String × Kind) := [("func_result", .result), ("func_error", .fault)]

/-- A text. -/
def asText : Json → Except Cause String := Json.Shape.text "a string"

/-- Any document, as a value. -/
def asValue (j : Json) : Except Cause Json := .ok j.value

/-- A kind of fault, by its name. -/
def asFaultKind : Json → Except Cause FaultKind := Json.Shape.bareVariant .kept FaultKind.all

/-- The response of a kind, from what was kept of its text. -/
def ofContent (k : Kind) (content : Json) : Except Cause Response :=
  match k with
  | .result => do
    let (func, value) ← Json.Shape.recordOfTwo .kept "struct variant Response::FuncResult"
      "func_name" "result" asText asValue content
    return .result func value
  | .fault => do
    let (func, kind, message) ← Json.Shape.recordOfThree .kept
      "struct variant Response::FuncError" "func_name" "kind" "message" asText asFaultKind asText
      content
    return .fault func ⟨kind, message⟩

/-- Reads a response by the kind it names. -/
def reader (room : Nat) : Reader Response := do
  let (k, content) ←
    Reader.tagged "type" "internally tagged enum Response" (Reader.variantName Kind.all) room
  Reader.ofExcept (ofContent k content)

/-- The response that the bytes of a text stand for. -/
def ofBytes (bytes : List UInt8) : Except Fault Response := Reader.run reader bytes

end Response

/-! ## Descriptions -/

/-- What clients may know of a bound name: the function behind it, how many arguments that takes,
and whether its results are kept. -/
structure Description where
  name : String
  target : String
  arity : UInt64
  cached : Bool
deriving DecidableEq, Repr

namespace Description

/-- The document of a description, its fields in order. -/
def toJson (d : Description) : Json :=
  .obj [("name", .str d.name), ("target", .str d.target), ("arity", .ofUInt64 d.arity),
    ("cached", .bool d.cached)]

/-- The text of a description. -/
def toText (d : Description) : String := d.toJson.render

/-- The fields read so far. -/
structure Fields where
  name : Option String
  target : Option String
  arity : Option UInt64
  cached : Option Bool

/-- What is wanted where a description stands. -/
def wanted : String := "struct FunctionDescriptor"

/-- What is wanted where a list has too few elements. -/
def wantedInOrder : String := wanted ++ " with 4 elements"

/-- Reads `name` or `target`, any text. -/
def readName : Reader String := Reader.text "a string"

/-- Reads `arity`, a natural number of 64 bits. -/
def readArity : Reader UInt64 := Reader.natural "usize"

/-- Reads the fields as a list; none may be left out. -/
def readInOrder (_ : Nat) : Reader Description := do
  let name ← Reader.nextField wantedInOrder 0 readName
  let target ← Reader.nextField wantedInOrder 1 readName
  let arity ← Reader.nextField wantedInOrder 2 readArity
  let cached ← Reader.nextField wantedInOrder 3 Reader.flag
  return ⟨name, target, arity, cached⟩

/-- Reads the field of a name, or goes past one that a description does not have. -/
def readField (f : Fields) (key : String) : Reader Fields := do
  match key with
  | "name" => return { f with name := ← Reader.field key f.name readName }
  | "target" => return { f with target := ← Reader.field key f.target readName }
  | "arity" => return { f with arity := ← Reader.field key f.arity readArity }
  | "cached" => return { f with cached := ← Reader.field key f.cached Reader.flag }
  | _ =>
    Reader.otherField
    return f

/-- Reads the fields by their names; none may be left out. -/
def readByName (_ : Nat) : Reader Description := do
  let f ← Reader.objectMembers ⟨none, none, none, none⟩ readField
  return ⟨← Reader.required "name" f.name, ← Reader.required "target" f.target,
    ← Reader.required "arity" f.arity, ← Reader.required "cached" f.cached⟩

/-- Reads a description, as an object or as a list. -/
def reader (room : Nat) : Reader Description := Reader.record wanted readInOrder readByName room

/-- The description that the bytes of a text stand for. -/
def ofBytes (bytes : List UInt8) : Except Fault Description := Reader.run reader bytes

end Description

end NamedDispatch
