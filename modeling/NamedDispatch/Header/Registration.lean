/-
The macros that servers use: they attach functions under their names (`ATTACH_FUNC`, `ATTACH_FUNCS`)
or under others (`ALIAS_FUNC`, and `MULTI_ALIAS_FUNC` or `ALIAS_FUNCS`), one at a time or many at
once, and write the whole dispatch routine (`DEFAULT_DISPATCH`).
-/
import NamedDispatch.Header.Selector
import NamedDispatch.Header.Wording

namespace NamedDispatch

/-- The macro for one function, such as `ATTACH_FUNC`, and the one that repeats it over many, such
as `ATTACH_FUNCS`. -/
structure Family where
  one : Nat
  many : Nat
deriving DecidableEq, Repr

/-- The macros that attach functions under other names, for plain functions and for those that keep
their results. With `ALIAS_FUNC` goes `MULTI_ALIAS_FUNC` or `ALIAS_FUNCS`, as the policy of the pair
ladder has it. -/
structure AliasFamilies where
  policy : PairPolicy
  plain : Family
  cached : Family
deriving DecidableEq, Repr

/-- The numbers of the macros that servers use. -/
structure Registration where
  plain : Family
  cached : Family
  aliases : Option AliasFamilies
  defaultDispatch : Nat
deriving DecidableEq, Repr

namespace Registration

/-! ## Documentation -/

/-- How the notes on macros for one function begin. -/
def attachNote : String := "Attaches function (provided by FUNCNAME) to the server dispatch function"

/-- The note on `ATTACH_FUNC`. -/
def oneNote (cached : Bool) : String :=
  attachNote ++ if cached then " with server-side caching" else ""

/-- The note on `ATTACH_FUNCS`. -/
def manyNote (cached : Bool) : String :=
  "Attaches multiple functions to the server dispatch function" ++
    if cached then " with server-side caching" else ""

/-- The note on `ALIAS_FUNC`. -/
def aliasNote (cached : Bool) : String :=
  attachNote ++ " with a different function name (provided by FUNC_ALIAS)" ++
    if cached then " and server-side caching" else ""

/-- The note on `MULTI_ALIAS_FUNC` or on `ALIAS_FUNCS`. -/
def aliasManyNote (p : PairPolicy) (cached : Bool) : String :=
  match p with
  | .holdFirst =>
    attachNote ++ " with multiple different function names" ++
      if cached then " and server-side caching" else ""
  | .advanceBoth =>
    "Attaches each (function, alias) pair to the server dispatch function" ++
      if cached then " with server-side caching" else ""

/-- The note on `DEFAULT_DISPATCH`. -/
def defaultNote : String :=
  "Implements the @ref rpc::server::dispatch_impl function for you and attaches the listed functions"

/-- The note itself where the variant documents its parts. -/
def note (w : Wording) (text : String) : Option String := if w.documented then some text else none

/-! ## Macros -/

/-- A macro that stands for a branch and invokes no other. -/
def oneMacro (name : String) (params : List String) (branch : String) (doc : Option String) :
    Macro :=
  ⟨name, params, branch, [], .registration, doc⟩

/-- The macro that hands its parameters and any further arguments to a selector, as `ATTACH_FUNCS`
hands the name `ATTACH_FUNC` and its arguments to `FOR_EACH`. -/
def manyMacro (s : Sheet) (name : String) (params : List String) (expand selector one : Nat)
    (doc : Option String) : Macro where
  name := name
  params := params ++ [Macro.ellipsis]
  body := Ladder.expanded (s.nameOf selector ++ "(" ++
    Macro.commaList (s.nameOf one :: params ++ ["__VA_ARGS__"]) ++ ")")
  refs := [expand, selector, one]
  role := .registration
  doc := doc

/-- The name of the macro that repeats `ALIAS_FUNC`: `MULTI_ALIAS_FUNC` or `ALIAS_FUNCS`. -/
def aliasManyName (n : Naming) : PairPolicy → Bool → String
  | .holdFirst => n.multiAlias
  | .advanceBoth => n.aliasPairs

/-- The macro `DEFAULT_DISPATCH`, which attaches its arguments by `ATTACH_FUNCS` and answers unknown
names. -/
def defaultMacro (n : Naming) (w : Wording) (expand attachMany : Nat) : Macro where
  name := n.defaultDispatch
  params := ["FUNCNAME", Macro.ellipsis]
  body := Ladder.expanded (w.defaultDispatch (n.attachMany false ++ "(FUNCNAME, __VA_ARGS__)"))
  refs := [expand, attachMany]
  role := .registration
  doc := note w defaultNote

/-- The macro `HEADER_FUNC` for servers, which declares the function. -/
def serverFunc (n : Naming) : Macro :=
  ⟨n.headerFunc, ["RETURN", "FUNCNAME", Macro.ellipsis],
    "extern RETURN (*FUNCNAME)(__VA_ARGS__)", [], .headerFunc, none⟩

/-- The macro `HEADER_FUNC` for clients, which defines the function, as yet null. -/
def clientFunc (n : Naming) : Macro :=
  ⟨n.headerFunc, ["RETURN", "FUNCNAME", Macro.ellipsis],
    "RETURN (*FUNCNAME)(__VA_ARGS__) = nullptr", [], .headerFunc, none⟩

end Registration

/-! ## Emitting -/

namespace Sheet

open Registration

/-- Adds `HEADER_FUNC` twice, once for each side. -/
def emitHeaderFunc (s : Sheet) (n : Naming) : Sheet :=
  let s := (s.directive Wording.serverGuard).emit (serverFunc n)
  let s := (s.directive Wording.clientGuard).emit (clientFunc n)
  s.directive Wording.endGuard

/-- Adds a macro for one function, such as `ATTACH_FUNC`, the one that repeats it, such as
`ATTACH_FUNCS`, and a blank line. -/
def emitFamily (s : Sheet) (expand selector : Nat) (one : Macro) (manyName : String)
    (doc : Option String) : Family × Sheet :=
  let first := s.size
  let s := s.emit one
  let s := s.emit (manyMacro s manyName one.params expand selector first doc)
  (⟨first, first + 1⟩, s.blank)

/-- Adds `ATTACH_FUNC` and `ATTACH_FUNCS`, plain or cached. -/
def emitAttach (s : Sheet) (n : Naming) (w : Wording) (expand selector : Nat) (cached : Bool) :
    Family × Sheet :=
  s.emitFamily expand selector
    (oneMacro (n.attach cached) ["FUNCNAME"] (w.branch "#FUNCNAME" "FUNCNAME" cached)
      (note w (oneNote cached)))
    (n.attachMany cached) (note w (manyNote cached))

/-- Adds `ALIAS_FUNC` and the macro that repeats it, plain or cached. -/
def emitAlias (s : Sheet) (n : Naming) (w : Wording) (p : PairPolicy) (expand selector : Nat)
    (cached : Bool) : Family × Sheet :=
  s.emitFamily expand selector
    (oneMacro (n.singleAlias cached) ["FUNCNAME", "FUNC_ALIAS"] (w.branch "#FUNC_ALIAS" "FUNCNAME" cached)
      (note w (aliasNote cached)))
    (aliasManyName n p cached) (note w (aliasManyNote p cached))

/-- Adds the alias macros, if there are both a policy and a selector `FOR_EACH2`. -/
def emitAliases (s : Sheet) (n : Naming) (w : Wording) (expand : Nat) (tables : Tables) :
    Option PairPolicy → Option AliasFamilies × Sheet
  | none => (none, s)
  | some p =>
    match tables.pair with
    | none => (none, s)
    | some selector =>
      let (plain, s) := s.emitAlias n w p expand selector.id false
      let (cached, s) := s.emitAlias n w p expand selector.id true
      (some ⟨p, plain, cached⟩, s)

/-- Adds all macros that servers use, `DEFAULT_DISPATCH` at the end. -/
def emitRegistration (s : Sheet) (n : Naming) (w : Wording) (expand : Nat) (tables : Tables)
    (policy : Option PairPolicy) : Registration × Sheet :=
  let (plain, s) := s.emitAttach n w expand tables.single.id false
  let (cached, s) := s.emitAttach n w expand tables.single.id true
  let (aliases, s) := s.emitAliases n w expand tables policy
  let last := s.size
  (⟨plain, cached, aliases, last⟩, s.emit (defaultMacro n w expand plain.many))

end Sheet

end NamedDispatch
