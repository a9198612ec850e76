/-
What can be wrong with a JSON text or with a document that should have a given shape: the causes,
the place of a cause in a text, and the wording of both.
-/
import NamedDispatch.Double.Text
import NamedDispatch.Text.Numeral
import NamedDispatch.Text.Printable

namespace NamedDispatch.Json

/-! ## What was met -/

/-- What stands where something else was wanted. -/
inductive Found where
  | null
  | bool (b : Bool)
  | integer (i : Int)
  | float (x : Double)
  | text (s : String)
  | sequence
  | map
  | bareVariant
deriving DecidableEq, Repr

/-- How what was met is worded; scalars are shown, lists and objects are not. -/
def Found.message : Found → String
  | .null => "null"
  | .bool b => "boolean `" ++ (if b then "true" else "false") ++ "`"
  | .integer i => "integer `" ++ String.ofList (Text.intChars i) ++ "`"
  | .float x => "floating point `" ++ String.ofList (x.text?.getD []) ++ "`"
  | .text s => "string " ++ Text.quoted s
  | .sequence => "sequence"
  | .map => "map"
  | .bareVariant => "unit variant"

/-! ## Causes -/

/-- Why a text or a document is refused. -/
inductive Cause where
  | eofValue
  | eofList
  | eofObject
  | eofString
  | expectedValue
  | expectedWord
  | expectedColon
  | expectedListEnd
  | expectedObjectEnd
  | trailingComma
  | trailingCharacters
  | keyNotText
  | invalidNumber
  | numberOutOfRange
  | invalidEscape
  | endOfHexEscape
  | loneSurrogate
  | invalidUnicode
  | controlCharacter
  | nesting
  | wrongType (found : Found) (wanted : String)
  | wrongValue (found : Found) (wanted : String)
  | wrongLength (length : Nat) (wanted : String)
  | missingField (name : String)
  | duplicateField (name : String)
  | unknownVariant (name : String) (known : List String)
deriving DecidableEq, Repr

/-- The names one of which was wanted: a single one, two of them, or a list. -/
def choice : List String → String
  | [a] => "`" ++ a ++ "`"
  | [a, b] => "`" ++ a ++ "` or `" ++ b ++ "`"
  | names => "one of " ++ ", ".intercalate (names.map fun a => "`" ++ a ++ "`")

/-- How a cause is worded. -/
def Cause.message : Cause → String
  | .eofValue => "EOF while parsing a value"
  | .eofList => "EOF while parsing a list"
  | .eofObject => "EOF while parsing an object"
  | .eofString => "EOF while parsing a string"
  | .expectedValue => "expected value"
  | .expectedWord => "expected ident"
  | .expectedColon => "expected `:`"
  | .expectedListEnd => "expected `,` or `]`"
  | .expectedObjectEnd => "expected `,` or `\x7d`"
  | .trailingComma => "trailing comma"
  | .trailingCharacters => "trailing characters"
  | .keyNotText => "key must be a string"
  | .invalidNumber => "invalid number"
  | .numberOutOfRange => "number out of range"
  | .invalidEscape => "invalid escape"
  | .endOfHexEscape => "unexpected end of hex escape"
  | .loneSurrogate => "lone leading surrogate in hex escape"
  | .invalidUnicode => "invalid unicode code point"
  | .controlCharacter => "control character (\\u0000-\\u001F) found while parsing a string"
  | .nesting => "recursion limit exceeded"
  | .wrongType found wanted => "invalid type: " ++ found.message ++ ", expected " ++ wanted
  | .wrongValue found wanted => "invalid value: " ++ found.message ++ ", expected " ++ wanted
  | .wrongLength n wanted => "invalid length " ++ toString n ++ ", expected " ++ wanted
  | .missingField name => "missing field `" ++ name ++ "`"
  | .duplicateField name => "duplicate field `" ++ name ++ "`"
  | .unknownVariant name known => "unknown variant `" ++ name ++ "`, expected " ++ choice known

/-! ## Faults in a text -/

/-- A place in a text: the line, and how many bytes of it lie before. -/
structure Place where
  line : Nat
  column : Nat
deriving DecidableEq, Repr

/-- The place before the first byte: line 1, column 0. -/
def Place.start : Place := ⟨1, 0⟩

/-- The place after one more byte. -/
def Place.after (p : Place) (b : UInt8) : Place :=
  if b = 10 then ⟨p.line + 1, 0⟩ else ⟨p.line, p.column + 1⟩

/-- A cause, with its place once that is known. -/
structure Fault where
  cause : Cause
  place : Option Place
deriving DecidableEq, Repr

/-- Gives a fault a place, unless it has one. -/
def Fault.atPlace (f : Fault) (p : Place) : Fault := ⟨f.cause, some (f.place.getD p)⟩

/-- How a fault is worded, its place at the end if that is known. -/
def Fault.message (f : Fault) : String :=
  match f.place with
  | none => f.cause.message
  | some p => f.cause.message ++ " at line " ++ toString p.line ++ " column " ++ toString p.column

end NamedDispatch.Json
