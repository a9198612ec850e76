/-
The names of the macros of a header. All but `EXPAND` begin with the header's stem.
-/
import NamedDispatch.Header.Config

namespace NamedDispatch

/-- The macro that makes the preprocessor expand its argument once more; its name has no stem. -/
def expandName : String := "EXPAND"

/-- The stem that the names of a header begin with. -/
structure Naming where
  stem : String
deriving DecidableEq, Repr

namespace Naming

/-- The mark of macros whose functions keep their results, as in `ATTACH_CACHED_FUNC`. -/
def cachedMark (cached : Bool) : String := if cached then "CACHED_" else ""

/-- The name `FE_k` of level `k` of the ladder over single arguments. -/
def level (n : Naming) (k : Nat) : String := n.stem ++ "FE_" ++ toString k

/-- The name `FE2_k` of level `k` of the ladder over pairs of arguments. -/
def pairLevel (n : Naming) (k : Nat) : String := n.stem ++ "FE2_" ++ toString k

/-- The name `GET_MACRO` of the macro that counts arguments. -/
def counter (n : Naming) : String := n.stem ++ "GET_MACRO"

/-- The name `FOR_EACH` of the selector over single arguments. -/
def forEach (n : Naming) : String := n.stem ++ "FOR_EACH"

/-- The name `FOR_EACH2` of the selector over pairs of arguments. -/
def forEachPair (n : Naming) : String := n.stem ++ "FOR_EACH2"

/-- The name `HEADER_FUNC` of the macro that declares a function for servers and defines it for
clients. -/
def headerFunc (n : Naming) : String := n.stem ++ "HEADER_FUNC"

/-- The name `ATTACH_FUNC` of the macro that attaches one function. -/
def attach (n : Naming) (cached : Bool) : String :=
  n.stem ++ "ATTACH_" ++ cachedMark cached ++ "FUNC"

/-- The name `ATTACH_FUNCS` of the macro that attaches several functions. -/
def attachMany (n : Naming) (cached : Bool) : String :=
  n.stem ++ "ATTACH_" ++ cachedMark cached ++ "FUNCS"

/-- The name `ALIAS_FUNC` of the macro that attaches a function under another name. -/
def singleAlias (n : Naming) (cached : Bool) : String :=
  n.stem ++ "ALIAS_" ++ cachedMark cached ++ "FUNC"

/-- The name `MULTI_ALIAS_FUNC` of the macro that attaches a function under several other names. -/
def multiAlias (n : Naming) (cached : Bool) : String :=
  n.stem ++ "MULTI_ALIAS_" ++ cachedMark cached ++ "FUNC"

/-- The name `ALIAS_FUNCS` of the macro that attaches several functions, each under the name that
follows it. -/
def aliasPairs (n : Naming) (cached : Bool) : String :=
  n.stem ++ "ALIAS_" ++ cachedMark cached ++ "FUNCS"

/-- The name `DEFAULT_DISPATCH` of the macro that writes the whole dispatch routine. -/
def defaultDispatch (n : Naming) : String := n.stem ++ "DEFAULT_DISPATCH"

end Naming

end NamedDispatch
