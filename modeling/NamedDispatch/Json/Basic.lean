/-
JSON documents. A document as written keeps the members of an object in the order of the text; a
value has them sorted by name, each name once, the last one written winning.
-/
import NamedDispatch.Double.Basic

namespace NamedDispatch

/-- An integer that fits a signed or an unsigned 64-bit word. -/
structure Whole where
  val : Int
  least : -9223372036854775808 ≤ val
  most : val < 18446744073709551616
deriving DecidableEq, Repr

namespace Whole

/-- The integer, if it fits. -/
def ofInt? (i : Int) : Option Whole :=
  if h : -9223372036854775808 ≤ i ∧ i < 18446744073709551616 then some ⟨i, h.1, h.2⟩ else none

/-- An unsigned word as an integer. -/
def ofUInt64 (n : UInt64) : Whole :=
  ⟨n.toNat, by omega, by have := n.toNat_lt; omega⟩

/-- A signed word as an integer. -/
def ofInt64 (n : Int64) : Whole :=
  ⟨n.toInt, n.le_toInt, by have := n.toInt_lt; omega⟩

end Whole

/-- A JSON document. -/
inductive Json where
  | null
  | bool (b : Bool)
  | int (n : Whole)
  | float (x : Double)
  | str (s : String)
  | arr (items : List Json)
  | obj (members : List (String × Json))
deriving BEq, Repr, Inhabited

namespace Json

/-- The document of an unsigned word. -/
def ofUInt64 (n : UInt64) : Json := .int (.ofUInt64 n)

/-- The document of a signed word. -/
def ofInt64 (n : Int64) : Json := .int (.ofInt64 n)

/-! ## Sorted members -/

/-- Adds a member to sorted ones; a member of that name, which stands later in the text, stays. -/
def insertMember (name : String) (value : Json) : List (String × Json) → List (String × Json)
  | [] => [(name, value)]
  | m :: ms =>
    if name < m.1 then (name, value) :: m :: ms
    else if name = m.1 then m :: ms
    else m :: insertMember name value ms

/-- An object of the members, sorted by name; of several members of one name the last counts. -/
def ofMembers (members : List (String × Json)) : Json :=
  .obj (members.foldr (fun m sorted => insertMember m.1 m.2 sorted) [])

mutual

/-- The value of a document: every object in it has its members sorted. -/
def value : Json → Json
  | .null => .null
  | .bool b => .bool b
  | .int n => .int n
  | .float x => .float x
  | .str s => .str s
  | .arr items => .arr (valueItems items)
  | .obj members => .obj (valueMembers members)

/-- The values of the documents of a list. -/
def valueItems : List Json → List Json
  | [] => []
  | j :: js => j.value :: valueItems js

/-- The values of members, sorted; of several members of one name the last counts. -/
def valueMembers : List (String × Json) → List (String × Json)
  | [] => []
  | (name, j) :: ms => insertMember name j.value (valueMembers ms)

end

end Json

end NamedDispatch
