/-
Ladders of macros, one for each number of arguments: `FE_k` over single arguments and `FE2_k` over
pairs. A level applies its first parameter `WHAT` to the arguments it names and hands the others to
a lower level.
-/
import NamedDispatch.Header.Naming
import NamedDispatch.Header.Sheet

namespace NamedDispatch

/-- The levels of a ladder from 0 up, as numbers of macros. -/
structure Ladder where
  levels : List Nat
deriving DecidableEq, Repr

namespace Ladder

/-- The number of the macro that is level `k`. -/
def level? (l : Ladder) (k : Nat) : Option Nat := l.levels[k]?

/-- The highest level. -/
def top (l : Ladder) : Nat := l.levels.length - 1

/-- The levels from the top down. -/
def descending (l : Ladder) : List Nat := l.levels.reverse

/-! ## Expansion -/

/-- The text as the argument of `EXPAND`, so that the preprocessor expands it once more. -/
def expanded (text : String) : String := expandName ++ "(" ++ text ++ ")"

/-- The macro `EXPAND(x)`, which stands for its argument. -/
def expandMacro : Macro := ⟨expandName, ["x"], "x", [], .expand, none⟩

/-! ## Levels -/

/-- Level `FE_k`, on a ladder whose level 0 has the number `base`: it applies `WHAT` to the first
argument `X` and hands the rest to the level below. -/
def single (n : Naming) (expand base : Nat) : Nat → Macro
  | 0 => ⟨n.level 0, ["WHAT"], "", [], .ladder 0, none⟩
  | 1 => ⟨n.level 1, ["WHAT", "X"], "WHAT(X)", [], .ladder 1, none⟩
  | k + 2 =>
    { name := n.level (k + 2)
      params := ["WHAT", "X", Macro.ellipsis]
      body := expanded ("WHAT(X)" ++ n.level (k + 1) ++ "(WHAT, __VA_ARGS__)")
      refs := [expand, base + (k + 1)]
      role := .ladder (k + 2)
      doc := none }

/-- The arguments that a level `FE2_k` hands on: the held `X` stays in front of the rest. -/
def forwarded : PairPolicy → String
  | .holdFirst => "WHAT, X, __VA_ARGS__"
  | .advanceBoth => "WHAT, __VA_ARGS__"

/-- Level `FE2_k`, on a ladder whose level 0 has the number `base`: it applies `WHAT` to the first
two arguments `X` and `Y` and goes on as the policy says. -/
def pair (n : Naming) (p : PairPolicy) (expand base : Nat) : Nat → Macro
  | 0 => ⟨n.pairLevel 0, ["WHAT"], "", [], .pairLadder 0, none⟩
  | 1 => ⟨n.pairLevel 1, ["WHAT", "X"], "", [], .pairLadder 1, none⟩
  | 2 => ⟨n.pairLevel 2, ["WHAT", "X", "Y"], "WHAT(X, Y)", [], .pairLadder 2, none⟩
  | k + 3 =>
    let below := k + 3 - p.step
    { name := n.pairLevel (k + 3)
      params := ["WHAT", "X", "Y", Macro.ellipsis]
      body := expanded ("WHAT(X, Y)" ++ n.pairLevel below ++ "(" ++ forwarded p ++ ")")
      refs := [expand, base + below]
      role := .pairLadder (k + 3)
      doc := none }

end Ladder

/-! ## Emitting -/

namespace Sheet

/-- Adds `EXPAND`, and gives its number. -/
def emitExpand (s : Sheet) : Nat × Sheet := (s.size, s.emit Ladder.expandMacro)

/-- Adds levels 0 to `top`, each made from the number that level 0 gets. -/
def emitLevels (s : Sheet) (level : Nat → Nat → Macro) (top : Nat) : Ladder × Sheet :=
  (⟨List.range' s.size (top + 1)⟩, s.emitAll ((List.range (top + 1)).map (level s.size)))

/-- Adds the levels `FE_0` to `FE_top`. -/
def emitLadder (s : Sheet) (n : Naming) (expand top : Nat) : Ladder × Sheet :=
  s.emitLevels (Ladder.single n expand) top

/-- Adds the levels `FE2_0` to `FE2_top`. -/
def emitPairLadder (s : Sheet) (n : Naming) (p : PairPolicy) (expand top : Nat) : Ladder × Sheet :=
  s.emitLevels (Ladder.pair n p expand) top

end Sheet

end NamedDispatch
