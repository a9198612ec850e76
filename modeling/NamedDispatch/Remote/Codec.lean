/-
Types that travel as documents: how a value is decoded from an argument and how a result is
encoded.
-/
import NamedDispatch.Json.Shape
import NamedDispatch.Json.Write
import NamedDispatch.Remote.Function

namespace NamedDispatch

open Json (Cause)

/-- Both ways between a type and documents. -/
structure Codec (α : Type) where
  decode : Json → Except Cause α
  encode : α → Except Cause Json

namespace Codec

/-- A parameter of the type. -/
def parameter {α : Type} (c : Codec α) : Parameter := ⟨α, c.decode⟩

/-! ## Integers -/

/-- The natural numbers of so many bits; others are refused. -/
def unsigned {α : Type} (wanted : String) (bits : Nat) (ofNat : Nat → α) (word : α → UInt64) :
    Codec α where
  decode j := (fun i => ofNat i.toNat) <$> Json.Shape.integer wanted 0 (1 <<< bits - 1) j
  encode a := .ok (.ofUInt64 (word a))

/-- The integers of so many bits; others are refused. -/
def signed {α : Type} (wanted : String) (bits : Nat) (ofInt : Int → α) (word : α → Int64) :
    Codec α where
  decode j := ofInt <$> Json.Shape.integer wanted (-(1 <<< (bits - 1))) (1 <<< (bits - 1) - 1) j
  encode a := .ok (.ofInt64 (word a))

/-- Natural numbers of 8 bits. -/
def uint8 : Codec UInt8 := unsigned "u8" 8 UInt8.ofNat UInt8.toUInt64

/-- Natural numbers of 16 bits. -/
def uint16 : Codec UInt16 := unsigned "u16" 16 UInt16.ofNat UInt16.toUInt64

/-- Natural numbers of 32 bits. -/
def uint32 : Codec UInt32 := unsigned "u32" 32 UInt32.ofNat UInt32.toUInt64

/-- Natural numbers of 64 bits. -/
def uint64 : Codec UInt64 := unsigned "u64" 64 UInt64.ofNat id

/-- Integers of 8 bits. -/
def int8 : Codec Int8 := signed "i8" 8 Int8.ofInt Int8.toInt64

/-- Integers of 16 bits. -/
def int16 : Codec Int16 := signed "i16" 16 Int16.ofInt Int16.toInt64

/-- Integers of 32 bits. -/
def int32 : Codec Int32 := signed "i32" 32 Int32.ofInt Int32.toInt64

/-- Integers of 64 bits. -/
def int64 : Codec Int64 := signed "i64" 64 Int64.ofInt id

/-! ## Other scalars -/

/-- The document of a number; an infinity has none and becomes `null`. -/
def floatJson : Double → Json
  | .infinite _ => .null
  | x => .float x

/-- The 64-bit floating point numbers. -/
def double : Codec Double where
  decode := Json.Shape.float "f64" .double
  encode x := .ok (floatJson x)

/-- The 32-bit floating point numbers; they are encoded as 64-bit numbers of the same value. -/
def single : Codec Double where
  decode := Json.Shape.float "f32" .single
  encode x := .ok (floatJson (x.fit .double))

/-- Truth values. -/
def bool : Codec Bool := ⟨Json.Shape.flag, fun b => .ok (.bool b)⟩

/-- Characters, as strings of one. -/
def char : Codec Char := ⟨Json.Shape.character, fun c => .ok (.str (String.singleton c))⟩

/-- Texts. -/
def string : Codec String := ⟨Json.Shape.text "a string", fun s => .ok (.str s)⟩

/-- Nothing, as `null`. -/
def unit : Codec Unit := ⟨Json.Shape.nothing .argument, fun _ => .ok .null⟩

/-- Documents as they are. -/
def value : Codec Json := ⟨.ok, .ok⟩

/-- Kinds of faults, by their names. -/
def faultKind : Codec FaultKind :=
  ⟨Json.Shape.bareVariant .argument FaultKind.all, fun k => .ok (.str k.name)⟩

/-! ## Compounds -/

/-- What `c` encodes, or `null`. -/
def optional {α : Type} (c : Codec α) : Codec (Option α) where
  decode := Json.Shape.nullable c.decode
  encode
    | none => .ok .null
    | some a => c.encode a

/-- Lists of any length. -/
def list {α : Type} (c : Codec α) : Codec (List α) where
  decode := Json.Shape.list c.decode
  encode as := .arr <$> as.mapM c.encode

/-- Lists of exactly `n` elements. -/
def array {α : Type} (n : Nat) (c : Codec α) : Codec (List α) where
  decode := Json.Shape.array .argument n c.decode
  encode as := .arr <$> as.mapM c.encode

/-- Pairs, as lists of two elements. -/
def pair {α β : Type} (c : Codec α) (d : Codec β) : Codec (α × β) where
  decode := Json.Shape.pair .argument c.decode d.decode
  encode p := do return .arr [← c.encode p.1, ← d.encode p.2]

/-- Maps from names, as objects. -/
def mapping {α : Type} (c : Codec α) : Codec (List (String × α)) where
  decode := Json.Shape.mapping c.decode
  encode ms := Json.ofMembers <$> ms.mapM fun m => do return (m.1, ← c.encode m.2)

/-! ## Maps from other types -/

/-- The name that a document makes as a key: strings and integers make one, lists do not. -/
def keyName : Json → Except Cause String
  | .str s => .ok s
  | .int n => .ok (String.ofList (Text.intChars n.val))
  | _ => .error .keyNotText

/-- The encoding of a map from any type whose values make keys; of several values of one key the
last counts. -/
def encodeMap {κ α : Type} (k : Codec κ) (c : Codec α) (ms : List (κ × α)) : Except Cause Json :=
  Json.ofMembers <$> ms.mapM fun m => do
    return (← keyName (← k.encode m.1), ← c.encode m.2)

end Codec

end NamedDispatch
