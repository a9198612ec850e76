/-
Configurations as JSON texts. The pair policy and the stem may be left out.
-/
import NamedDispatch.Header.Config
import NamedDispatch.Json.Typed
import NamedDispatch.Json.Write

namespace NamedDispatch

open Json (Reader Cause Fault)

/-- The document of a policy that may not be asked for: its name, or `null`. -/
def PairPolicy.optionJson : Option PairPolicy → Json
  | none => .null
  | some p => .str p.name

namespace Config

/-! ## Writing -/

/-- The document of a configuration: its fields in their order, the stem as `prefix`. -/
def toJson (c : Config) : Json :=
  .obj [("max_arity", .ofUInt64 c.maxArity), ("variant", .str c.variant.name),
    ("pair_policy", PairPolicy.optionJson c.pairPolicy), ("prefix", .str c.stem)]

/-- The text of a configuration. -/
def toText (c : Config) : String := c.toJson.render

/-! ## Reading -/

/-- The fields read so far; `pairPolicy` is nothing until it is met, and then it may still be
`null`. -/
structure Fields where
  maxArity : Option UInt64
  variant : Option Variant
  pairPolicy : Option (Option PairPolicy)
  stem : Option String

/-- What is wanted where a configuration stands. -/
def wanted : String := "struct GeneratorConfig"

/-- What is wanted where a list has too few elements. -/
def wantedInOrder : String := wanted ++ " with 4 elements"

/-- Reads `max_arity`, a natural number of 64 bits. -/
def readArity : Reader UInt64 := Reader.natural "usize"

/-- Reads `pair_policy`, the name of a policy or `null`. -/
def readPolicy (room : Nat) : Reader (Option PairPolicy) :=
  Reader.nullable (Reader.bareVariant PairPolicy.all room)

/-- Reads `prefix`, any text. -/
def readStem : Reader String := Reader.text "a string"

/-- Reads the fields as a list; the policy and the stem may be left out at its end. -/
def readInOrder (room : Nat) : Reader Config := do
  let maxArity ← Reader.nextField wantedInOrder 0 readArity
  let variant ← Reader.nextField wantedInOrder 1 (Reader.bareVariant Variant.all room)
  let policy ← Reader.element? false (readPolicy room)
  let stem ← Reader.element? false readStem
  return ⟨maxArity, variant, policy.getD none, stem.getD defaultStem⟩

/-- Reads the field of a name, or goes past one that a configuration does not have. -/
def readField (room : Nat) (f : Fields) (name : String) : Reader Fields := do
  match name with
  | "max_arity" => return { f with maxArity := ← Reader.field name f.maxArity readArity }
  | "variant" =>
    return { f with variant := ← Reader.field name f.variant (Reader.bareVariant Variant.all room) }
  | "pair_policy" =>
    return { f with pairPolicy := ← Reader.field name f.pairPolicy (readPolicy room) }
  | "prefix" => return { f with stem := ← Reader.field name f.stem readStem }
  | _ =>
    Reader.otherField
    return f

/-- Reads the fields by their names; `pair_policy` and `prefix` may be left out. -/
def readByName (room : Nat) : Reader Config := do
  let f ← Reader.objectMembers ⟨none, none, none, none⟩ (readField room)
  let maxArity ← Reader.required "max_arity" f.maxArity
  let variant ← Reader.required "variant" f.variant
  return ⟨maxArity, variant, f.pairPolicy.getD none, f.stem.getD defaultStem⟩

/-- Reads a configuration, as an object or as a list. -/
def reader (room : Nat) : Reader Config := Reader.record wanted readInOrder readByName room

/-- The configuration that the bytes of a text stand for. -/
def ofBytes (bytes : List UInt8) : Except Fault Config := Reader.run reader bytes

end Config

end NamedDispatch
