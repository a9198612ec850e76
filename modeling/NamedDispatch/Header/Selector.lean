/-
Choosing a level by counting. The counter `GET_MACRO` stands for the argument that follows its
numbered parameters. A selector, `FOR_EACH` or `FOR_EACH2`, hands it the caller's arguments and then
its levels from the top down, so that the argument met is the level for as many arguments as the
caller gave.
-/
import NamedDispatch.Header.Ladder

namespace NamedDispatch

/-- A macro such as `FOR_EACH`, which chooses a level of a ladder, and the levels in the order it
lists them. -/
structure Selector where
  id : Nat
  candidates : List Nat
deriving DecidableEq, Repr

/-- The counter `GET_MACRO` and the selectors that share it, `FOR_EACH` and `FOR_EACH2`. -/
structure Tables where
  counter : Nat
  single : Selector
  pair : Option Selector
deriving DecidableEq, Repr

namespace Selector

/-- The parameters of `GET_MACRO`: one for the selector's own `_0`, one for each argument counted,
and `NAME`, which stands for the result. -/
def counterParams (maxArity : Nat) : List String :=
  (List.range (maxArity + 1)).map (fun slot => "_" ++ toString slot) ++ ["NAME", Macro.ellipsis]

/-- The macro `GET_MACRO`, whose body is its parameter `NAME`. -/
def counterMacro (n : Naming) (maxArity : Nat) : Macro :=
  ⟨n.counter, counterParams maxArity, "NAME", [], .counter, none⟩

/-- The body of a selector that lists the given names after `_0` and its arguments. -/
def body (counter : String) (listed : List String) : String :=
  Ladder.expanded (counter ++ "(_0, __VA_ARGS__, " ++ Macro.commaList listed ++
    ")(ACTION, __VA_ARGS__)")

/-- The macro that chooses among the levels of a ladder and calls the one met with `ACTION` and its
arguments. -/
def selectorMacro (s : Sheet) (name : String) (counter expand : Nat) (l : Ladder) : Macro where
  name := name
  params := ["ACTION", Macro.ellipsis]
  body := body (s.nameOf counter) (l.descending.map s.nameOf)
  refs := expand :: counter :: l.descending
  role := .selector
  doc := none

end Selector

/-! ## Emitting -/

namespace Sheet

/-- Adds `GET_MACRO`, and gives its number. -/
def emitCounter (s : Sheet) (n : Naming) (maxArity : Nat) : Nat × Sheet :=
  (s.size, s.emit (Selector.counterMacro n maxArity))

/-- Adds a selector for a ladder. -/
def emitSelector (s : Sheet) (name : String) (counter expand : Nat) (l : Ladder) :
    Selector × Sheet :=
  (⟨s.size, l.descending⟩, s.emit (Selector.selectorMacro s name counter expand l))

/-- Adds `GET_MACRO`, then `FOR_EACH` and, if there are levels `FE2_k`, `FOR_EACH2`. -/
def emitTables (s : Sheet) (n : Naming) (expand maxArity : Nat) (l : Ladder)
    (pair : Option Ladder) : Tables × Sheet :=
  let (counter, s) := s.emitCounter n maxArity
  let (single, s) := s.emitSelector n.forEach counter expand l
  match pair with
  | none => (⟨counter, single, none⟩, s)
  | some l =>
    let (pair, s) := s.emitSelector n.forEachPair counter expand l
    (⟨counter, single, some pair⟩, s)

end Sheet

end NamedDispatch
