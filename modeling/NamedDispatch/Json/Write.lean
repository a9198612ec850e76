/-
The compact text of a document: no blanks, members in the order they stand, escapes only where the
grammar asks for them.
-/
import NamedDispatch.Json.Basic
import NamedDispatch.Double.Text
import NamedDispatch.Text.Numeral

namespace NamedDispatch.Json

/-- The last hexadecimal digit of `n`, in lower case. -/
def hexDigit (n : Nat) : Char := Nat.digitChar (n % 16)

/-- How a character stands in a string: quotes, backslashes and controls are escaped. -/
def escapedChar (c : Char) : List Char :=
  match c with
  | '"' => ['\\', '"']
  | '\\' => ['\\', '\\']
  | '\x08' => ['\\', 'b']
  | '\x0c' => ['\\', 'f']
  | '\n' => ['\\', 'n']
  | '\r' => ['\\', 'r']
  | '\t' => ['\\', 't']
  | c =>
    if c.toNat < 0x20 then ['\\', 'u', '0', '0', hexDigit (c.toNat / 16), hexDigit c.toNat] else [c]

/-- A string between quotes. -/
def writeString (s : String) : List Char := '"' :: s.toList.flatMap escapedChar ++ ['"']

/-- A number without a finite value is written as `null`. -/
def writeFloat (x : Double) : List Char := x.text?.getD ['n', 'u', 'l', 'l']

mutual

/-- The compact text of a document. -/
def write : Json → List Char
  | .null => ['n', 'u', 'l', 'l']
  | .bool true => ['t', 'r', 'u', 'e']
  | .bool false => ['f', 'a', 'l', 's', 'e']
  | .int n => Text.intChars n.val
  | .float x => writeFloat x
  | .str s => writeString s
  | .arr items => '[' :: writeItems items ++ [']']
  | .obj members => '\x7b' :: writeMembers members ++ ['\x7d']

/-- The texts of the elements of a list, a comma between them. -/
def writeItems : List Json → List Char
  | [] => []
  | [j] => j.write
  | j :: js => j.write ++ ',' :: writeItems js

/-- The texts of the members of an object, a comma between them. -/
def writeMembers : List (String × Json) → List Char
  | [] => []
  | [(name, j)] => writeString name ++ ':' :: j.write
  | (name, j) :: ms => writeString name ++ ':' :: j.write ++ ',' :: writeMembers ms

end

/-- The compact text of a document, as a string. -/
def render (j : Json) : String := String.ofList j.write

end NamedDispatch.Json
