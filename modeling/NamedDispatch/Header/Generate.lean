/-
Generating a header from a configuration: the ladders first, then what chooses among their levels,
then the macros that servers use. Each part is built on macros that come before it. A header that
passes its checks may be written to a file.
-/
import NamedDispatch.Header.Audit

namespace NamedDispatch.Header

/-! ## Parts -/

/-- Opens the header, and the part with the ladders where the variant guards it. -/
def opening (w : Wording) : Sheet :=
  let s := (Sheet.empty.directive "#pragma once").blank
  if w.guarded then s.directive Wording.ladderGuard else s

/-- Adds the levels `FE2_k`, if there is a policy for them, and a blank line. -/
def emitPair (s : Sheet) (n : Naming) (expand top : Nat) :
    Option PairPolicy → Option (PairPolicy × Ladder) × Sheet
  | none => (none, s)
  | some p =>
    let (l, s) := s.emitPairLadder n p expand top
    (some (p, l), s.blank)

/-- Ends the part with the ladders, adds `HEADER_FUNC` and begins the part with the macros that
servers use, where the variant guards them. -/
def betweenParts (s : Sheet) (n : Naming) (w : Wording) : Sheet :=
  if w.guarded then
    let s := ((s.directive Wording.endGuard).blank.emitHeaderFunc n).blank
    s.directive Wording.serverGuard
  else s

/-- Ends the part with the macros that servers use, where the variant guards it. -/
def closing (s : Sheet) (w : Wording) : Sheet :=
  if w.guarded then s.directive Wording.endGuard else s

/-- The header of a configuration, unchecked. -/
def build (c : Config) : Header :=
  let n : Naming := ⟨c.stem⟩
  let w := Wording.of c.variant
  let policy := c.effectivePairPolicy
  let top := c.maxArity.toNat
  let (expand, s) := (opening w).emitExpand
  let (ladder, s) := s.blank.emitLadder n expand top
  let (pair, s) := emitPair s.blank n expand top policy
  let (tables, s) := s.emitTables n expand top ladder (pair.map (·.2))
  let s := betweenParts s.blank n w
  let (registration, s) := s.emitRegistration n w expand tables policy
  ⟨c, closing s w, ladder, pair, tables, registration⟩

/-! ## Generating -/

/-- A header for the configuration, checked. A number of arguments above the limit is refused before
an illegal stem. -/
def generate (c : Config) : Except HeaderFault Header := do
  c.validate
  if Text.isStem c.stem then
    let h := build c
    match h.audit with
    | .ok () => return h
    | .error violation => .error (.malformed violation)
  else .error (.invalidStem c.stem)

/-! ## Writing -/

/-- Writes the text of a header to a path, creating the directories on the way to it. -/
def write (h : Header) (path : String) (t : FileTree) : Except HeaderFault Unit × FileTree :=
  let (outcome, t) := t.writeWithParents path h.render
  (outcome.mapError (.unwritable path), t)

/-- Generates a header and writes it. Nothing is touched when it is not generated. -/
def generateTo (c : Config) (path : String) (t : FileTree) :
    Except HeaderFault Summary × FileTree :=
  match generate c with
  | .error fault => (.error fault, t)
  | .ok h =>
    let (outcome, t) := h.write path t
    (outcome.map fun () => h.summary, t)

end NamedDispatch.Header
