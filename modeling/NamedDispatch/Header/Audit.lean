/-
Checks on a complete header: macros are defined before they are used, names are not repeated, every
level of a ladder goes on at the right one, and `GET_MACRO` and the selectors fit the ladders. The
first violation found is reported.
-/
import Std.Data.HashSet
import NamedDispatch.Header.Document
import NamedDispatch.Header.Fault
import NamedDispatch.Text.Identifier

namespace NamedDispatch

/-- Fails when something was found, with the violation that it is. -/
def refuteAny {α : Type} (found : Option α) (violation : α → Violation) : Except Violation Unit :=
  match found with
  | none => .ok ()
  | some a => .error (violation a)

/-! ## Definition before use -/

/-- The identifiers in the body of a macro that are not its parameters. -/
def Macro.used (m : Macro) : List String :=
  (Text.identifiers m.body).filter fun name => !m.params.contains name

namespace Sheet

/-- Every macro that a macro refers to, by number or by name, comes before it, and every number
recorded stands for a name in the body. -/
def checkMacro (s : Sheet) (id : Nat) (m : Macro) : Except Violation Unit := do
  refuteAny (m.refs.find? fun r => decide (id ≤ r))
    fun r => .forwardReference m.name (s.nameOf r)
  let used := m.used
  refuteAny (used.find? fun name => (s.lookup name).any fun r => decide (id ≤ r))
    fun name => .forwardUse m.name name
  let usedSet := Std.HashSet.ofList used
  refuteAny (m.refs.find? fun r => !usedSet.contains (s.nameOf r))
    fun r => .unusedReference m.name (s.nameOf r)

/-- Checks macros that are numbered from `id` on. -/
def checkMacros (s : Sheet) : Nat → List Macro → Except Violation Unit
  | _, [] => .ok ()
  | id, m :: ms => do
    s.checkMacro id m
    s.checkMacros (id + 1) ms

/-! ## Names -/

/-- The first name that was seen before, in the set or in the list itself. -/
def firstRepeated (seen : Std.HashSet String) : List String → Option String
  | [] => none
  | name :: names =>
    if seen.contains name then some name else firstRepeated (seen.insert name) names

/-- The names that may be defined once only: all but `HEADER_FUNC`. -/
def singleNames (s : Sheet) : List String :=
  (s.defs.toList.filter fun m => m.role != .headerFunc).map (·.name)

/-- No macro but `HEADER_FUNC` is defined twice. -/
def checkNames (s : Sheet) : Except Violation Unit :=
  refuteAny (firstRepeated ∅ s.singleNames) .repeatedName

/-! ## Ladders -/

/-- The level that the macro numbered `id` is, on either ladder. -/
def levelOf (s : Sheet) (id : Nat) : Option Nat := (s.roleOf id).bind Role.level?

/-- The numbers in a list that are levels. -/
def levelRefs (s : Sheet) (refs : List Nat) : List Nat := refs.filter fun r => (s.levelOf r).isSome

/-- The level that level `k` goes on at: `step` below it, from level `first` on. -/
def nextLevel (l : Ladder) (step first k : Nat) : List Nat :=
  if first ≤ k then (l.level? (k - step)).toList else []

/-- Each macro, from level `k` on, is the level of its position and refers to the level it goes on
at and to no other. -/
def checkLevels (s : Sheet) (l : Ladder) (step first : Nat) : Nat → List Nat → Except Violation Unit
  | _, [] => .ok ()
  | k, id :: ids => do
    if s.levelOf id ≠ some k then .error (.notLevel (s.nameOf id) k)
    else if s.levelRefs ((s.defs[id]?.map (·.refs)).getD []) ≠ nextLevel l step first k then
      .error (.wrongDescent (s.nameOf id) (k - step))
    else s.checkLevels l step first (k + 1) ids

/-- A ladder has a level for each number of arguments, and each goes on where it should. -/
def checkLadder (s : Sheet) (l : Ladder) (maxArity step first : Nat) : Except Violation Unit :=
  if l.levels.length ≠ maxArity + 1 then .error (.ladderHeight l.levels.length (maxArity + 1))
  else s.checkLevels l step first 0 l.levels

/-! ## Counter and selectors -/

/-- The counter `GET_MACRO` has a parameter for each argument, one for the selector's `_0` and one
for the name met, and takes any number of others. -/
def checkCounter (s : Sheet) (counter maxArity : Nat) : Except Violation Unit :=
  match s.defs[counter]? with
  | none => .ok ()
  | some m =>
    let slots := m.namedParams.length
    if m.role = .counter ∧ m.isVariadic ∧ slots = maxArity + 2 then .ok ()
    else .error (.counterSlots m.name slots (maxArity + 2))

/-- Each number is one more than the next. -/
def isDescending : List Nat → Bool
  | a :: b :: ns => decide (a = b + 1) && isDescending (b :: ns)
  | _ => true

/-- The levels of a ladder among the macros that a selector refers to. -/
def listedLevels (s : Sheet) (refs : List Nat) (l : Ladder) : List Nat :=
  refs.filterMap fun r => if l.levels.contains r then s.levelOf r else none

/-- A selector refers to every level of its ladder from the top down, and its body lists them. -/
def checkSelector (s : Sheet) (selector : Nat) (l : Ladder) : Except Violation Unit :=
  match s.defs[selector]? with
  | none => .ok ()
  | some m =>
    let levels := s.listedLevels m.refs l
    if levels.length = l.levels.length ∧ isDescending levels ∧ levels.getLast? = some 0 then
      let listed := Macro.commaList (l.descending.map s.nameOf)
      if Text.contains m.body listed then .ok () else .error (.unlisted m.name listed)
    else .error (.levelOrder m.name l.top levels)

end Sheet

/-! ## Headers -/

namespace Header

/-- The first level `FE_k` that goes on at a lower one, and how far below that one is. -/
def singleDescent : Nat × Nat := (2, 1)

/-- The same for the levels `FE2_k`. -/
def pairDescent (p : PairPolicy) : Nat × Nat := (3, p.step)

/-- Checks the levels `FE2_k`, in a header that has them. -/
def checkPair (h : Header) : Except Violation Unit :=
  match h.pair with
  | none => .ok ()
  | some (p, l) =>
    h.sheet.checkLadder l h.config.maxArity.toNat (pairDescent p).2 (pairDescent p).1

/-- Checks `FOR_EACH2`, which exists exactly when the levels `FE2_k` do. -/
def checkPairSelector (h : Header) : Except Violation Unit :=
  match h.tables.pair, h.pairLadder with
  | some selector, some l => h.sheet.checkSelector selector.id l
  | none, none => .ok ()
  | _, _ => .error .pairDisagreement

/-- Checks a header from its definitions to its selectors. -/
def audit (h : Header) : Except Violation Unit := do
  let maxArity := h.config.maxArity.toNat
  h.sheet.checkMacros 0 h.sheet.defs.toList
  h.sheet.checkNames
  h.sheet.checkLadder h.ladder maxArity singleDescent.2 singleDescent.1
  h.checkPair
  h.sheet.checkCounter h.tables.counter maxArity
  h.sheet.checkSelector h.tables.single.id h.ladder
  h.checkPairSelector

end Header

end NamedDispatch
