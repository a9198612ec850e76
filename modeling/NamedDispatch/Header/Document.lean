/-
A complete header: its sheet together with the parts of the sheet that belong together, the text it
is laid out as, and its sizes.
-/
import NamedDispatch.Header.Registration

namespace NamedDispatch

/-- A header: its configuration and its sheet, with the levels `FE_k` and `FE2_k`, `GET_MACRO` and
the selectors, and the macros that attach functions. -/
structure Header where
  config : Config
  sheet : Sheet
  ladder : Ladder
  pair : Option (PairPolicy × Ladder)
  tables : Tables
  registration : Registration

namespace Header

/-- The levels `FE2_k`, in a header that has them. -/
def pairLadder (h : Header) : Option Ladder := h.pair.map (·.2)

/-- The policy that the levels `FE2_k` were made for. -/
def pairPolicy (h : Header) : Option PairPolicy := h.pair.map (·.1)

/-! ## Text -/

/-- The lines above everything else; they tell the variant and the greatest number of arguments. -/
def banner (c : Config) : List String :=
  ["///@file rpc_dispatch_helper.hpp",
   "///@brief Helper macros for server dispatching of remote function calls",
   "///",
   "///@note Generated by dispatch_gen (" ++ c.variant.name ++ " variant, max arity " ++
     toString c.maxArity.toNat ++ "). Do not edit;",
   "///      regenerate with a larger arity when more functions must be attached at once.",
   "///",
   "/// SPDX-License-Identifier: MIT OR Apache-2.0",
   ""]

/-- A macro as lines: its note, if it has one, and its definition. -/
def macroText (m : Macro) : List String :=
  match m.doc with
  | none => [m.line]
  | some note => ["///@brief " ++ note, m.line]

/-- A line of a sheet as lines of text. -/
def lineText (s : Sheet) : Line → List String
  | .define id => (s.defs[id]?.map macroText).getD []
  | .directive text => [text]
  | .blank => [""]

/-- The banner and the lines of the sheet. -/
def textLines (h : Header) : List String :=
  banner h.config ++ h.sheet.lines.toList.flatMap (lineText h.sheet)

/-- The characters of the lines, a line end after each. -/
def joinLines (lines : List String) : List Char := lines.flatMap fun line => line.toList ++ ['\n']

/-- The characters with exactly one line end after the last line that is not empty. -/
def closeText (cs : List Char) : List Char := (cs.reverse.dropWhile (· == '\n')).reverse ++ ['\n']

/-- The text of a header. -/
def render (h : Header) : String := String.ofList (closeText (joinLines h.textLines))

/-! ## Sizes -/

/-- What a header amounts to; `bytes` is the length of its text in UTF-8. -/
structure Summary where
  variant : Variant
  maxArity : UInt64
  pairPolicy : Option PairPolicy
  macroCount : Nat
  ladderLevels : Nat
  pairLadderLevels : Nat
  bytes : Nat
deriving DecidableEq, Repr

/-- The sizes of a header. -/
def summary (h : Header) : Summary where
  variant := h.config.variant
  maxArity := h.config.maxArity
  pairPolicy := h.pairPolicy
  macroCount := h.sheet.size
  ladderLevels := h.ladder.levels.length
  pairLadderLevels := (h.pairLadder.map fun l => l.levels.length).getD 0
  bytes := h.render.utf8ByteSize

end Header

end NamedDispatch
