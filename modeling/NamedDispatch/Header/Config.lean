/-
What a header is generated from: the variant, the greatest number of arguments its macros take, how
its pair ladder `FE2_k` descends, and the stem of its names.
-/

namespace NamedDispatch

/-! ## Variants -/

/-- What a dispatch branch does and which optional parts a header has. -/
inductive Variant where
  | legacy
  | classic
  | templated
  | callback
deriving DecidableEq, Repr

/-- How a level `FE2_k` goes on after it has used its first two arguments `X` and `Y`: it hands on
`X` and the rest, or the rest alone. -/
inductive PairPolicy where
  | holdFirst
  | advanceBoth
deriving DecidableEq, Repr

namespace PairPolicy

/-- The policies with the names that configurations give them. -/
def all : List (String × PairPolicy) :=
  [("hold_first", .holdFirst), ("advance_both", .advanceBoth)]

/-- The name that configurations give a policy. -/
def name : PairPolicy → String
  | .holdFirst => "hold_first"
  | .advanceBoth => "advance_both"

/-- How many levels one step descends: as many as it drops arguments. -/
def step : PairPolicy → Nat
  | .holdFirst => 1
  | .advanceBoth => 2

end PairPolicy

namespace Variant

/-- The variants with the names that configurations give them. -/
def all : List (String × Variant) :=
  [("legacy", .legacy), ("classic", .classic), ("templated", .templated), ("callback", .callback)]

/-- The name that configurations give a variant; the banner of a header has it too. -/
def name : Variant → String
  | .legacy => "legacy"
  | .classic => "classic"
  | .templated => "templated"
  | .callback => "callback"

/-- The variant of the command line, which has no argument to ask for another. -/
def standard : Variant := .classic

/-- The greatest number of arguments when none is asked for. -/
def defaultMaxArity : Variant → UInt64
  | .legacy => 20
  | .classic => 20
  | .templated => 50
  | .callback => 50

/-- How the levels `FE2_k` descend when nothing is asked for; a `legacy` header has none. -/
def defaultPairPolicy : Variant → Option PairPolicy
  | .legacy => none
  | .classic => some .holdFirst
  | .templated => some .holdFirst
  | .callback => some .advanceBoth

/-- Whether a header of the variant has levels `FE2_k`. -/
def hasPairLadder (v : Variant) : Bool := v.defaultPairPolicy.isSome

end Variant

/-! ## Configurations -/

/-- The stem when none is asked for, as in `RPC_FE_0` and `RPC_FOR_EACH`. -/
def defaultStem : String := "RPC_"

/-- Where a header is written when no path is asked for. -/
def defaultOutputPath : String := "include/rpc_dispatch_helper.hpp"

/-- The greatest number of arguments a header may be asked for. -/
def maxArityLimit : Nat := 4096

/-- The inputs of a generation. -/
structure Config where
  maxArity : UInt64
  variant : Variant
  pairPolicy : Option PairPolicy
  stem : String
deriving DecidableEq, Repr

namespace Config

/-- The configuration of a variant when nothing else is asked for. -/
def forVariant (v : Variant) : Config := ⟨v.defaultMaxArity, v, none, defaultStem⟩

/-- The configuration with another greatest number of arguments. -/
def withMaxArity (c : Config) (n : UInt64) : Config := { c with maxArity := n }

/-- The configuration with a policy asked for. -/
def withPairPolicy (c : Config) (p : PairPolicy) : Config := { c with pairPolicy := some p }

/-- The configuration with another stem for all names but `EXPAND`. -/
def withStem (c : Config) (s : String) : Config := { c with stem := s }

/-- The policy of the header's levels `FE2_k`: the one asked for, if the variant has them. -/
def effectivePairPolicy (c : Config) : Option PairPolicy :=
  c.variant.defaultPairPolicy.map fun p => c.pairPolicy.getD p

end Config

end NamedDispatch
