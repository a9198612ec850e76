/-
What the registration macros of a server expand to. A plan lists the invocations; each stands for
branches, and of several branches of one name the first is taken. A plan is held against the
header it is meant for: whether that defines the macros invoked, and levels for all their arguments.
-/
import NamedDispatch.Header.Fault
import NamedDispatch.Header.Naming
import NamedDispatch.Header.Wording

namespace NamedDispatch

/-! ## Groups -/

/-- What an invocation of a registration macro names, for `ATTACH_FUNC`, `ATTACH_FUNCS`,
`ALIAS_FUNC`, `MULTI_ALIAS_FUNC` and `ALIAS_FUNCS`. -/
inductive Form where
  | attach (func : String)
  | attachMany (funcs : List String)
  | singleAlias (func name : String)
  | multiAlias (func : String) (names : List String)
  | aliasPairs (pairs : List (String × String))
deriving DecidableEq, Repr

/-- An invocation of a registration macro, for functions that keep their results or for plain ones. -/
structure Group where
  form : Form
  cached : Bool
deriving DecidableEq, Repr

/-- A branch of the dispatch routine: the name it matches and the function it runs. -/
structure Branch where
  name : String
  target : String
  cached : Bool
deriving DecidableEq, Repr

namespace Group

/-- The level `FE_k` or `FE2_k` that an invocation is expanded at; 0 where no ladder is involved. A
macro such as `ATTACH_FUNCS` that is given no more than its named parameters hands on an empty
argument after them. -/
def requiredArity (g : Group) : Nat :=
  match g.form with
  | .attach _ => 0
  | .singleAlias _ _ => 0
  | .attachMany funcs => max funcs.length 2
  | .multiAlias _ names => max (names.length + 1) 3
  | .aliasPairs pairs => max (2 * pairs.length) 3

/-- The name of the macro invoked. -/
def macroName (g : Group) (n : Naming) : String :=
  match g.form with
  | .attach _ => n.attach g.cached
  | .attachMany _ => n.attachMany g.cached
  | .singleAlias _ _ => n.singleAlias g.cached
  | .multiAlias _ _ => n.multiAlias g.cached
  | .aliasPairs _ => n.aliasPairs g.cached

/-- Whether a macro such as `ATTACH_FUNCS` is invoked without the names it repeats over. -/
def isEmpty (g : Group) : Bool :=
  match g.form with
  | .attach _ => false
  | .singleAlias _ _ => false
  | .attachMany funcs => funcs.isEmpty
  | .multiAlias _ names => names.isEmpty
  | .aliasPairs pairs => pairs.isEmpty

/-- Whether a header whose levels `FE2_k` have the given policy, if there are any, defines
the macro. -/
def isSupported (g : Group) (policy : Option PairPolicy) : Bool :=
  match g.form with
  | .attach _ => true
  | .attachMany _ => true
  | .singleAlias _ _ => policy.isSome
  | .multiAlias _ _ => policy == some .holdFirst
  | .aliasPairs _ => policy == some .advanceBoth

/-- The names matched, each with the function that it runs. -/
def targets : Form → List (String × String)
  | .attach func => [(func, func)]
  | .attachMany funcs => funcs.map fun func => (func, func)
  | .singleAlias func name => [(name, func)]
  | .multiAlias func names => names.map fun name => (name, func)
  | .aliasPairs pairs => pairs.map fun p => (p.2, p.1)

/-- The branches that an invocation stands for, in order. -/
def branches (g : Group) : List Branch := (targets g.form).map fun t => ⟨t.1, t.2, g.cached⟩

/-- Refuses a macro that the header does not define, and one without names. -/
def checkSupport (g : Group) (c : Config) : Except HeaderFault Unit :=
  if g.isSupported c.effectivePairPolicy then
    if g.isEmpty then .error (.malformed (.noNames (g.macroName ⟨c.stem⟩))) else .ok ()
  else .error (.unsupported (g.macroName ⟨c.stem⟩) c.variant)

end Group

/-! ## Plans -/

/-- The invocations in a server's dispatch routine, in order. -/
structure Plan where
  groups : List Group
deriving DecidableEq, Repr

namespace Plan

/-- The plan without invocations. -/
def empty : Plan := ⟨[]⟩

/-- The plan with one more invocation at its end. -/
def push (p : Plan) (g : Group) : Plan := ⟨p.groups ++ [g]⟩

/-- What `DEFAULT_DISPATCH` attaches. -/
def defaultDispatch (funcs : List String) : Plan := empty.push ⟨.attachMany funcs, false⟩

/-- The highest level of a ladder that any invocation needs. -/
def requiredArity (p : Plan) : Nat := (p.groups.map Group.requiredArity).foldl max 0

/-- The branches of all invocations, in order. -/
def branches (p : Plan) : List Branch := p.groups.flatMap Group.branches

/-! ## Checks -/

/-- Refuses a plan when an invocation needs more levels than the header has; the first one counts. -/
def checkCapacity (p : Plan) (maxArity : Nat) : Except HeaderFault Unit :=
  match (p.groups.map Group.requiredArity).find? fun needed => decide (maxArity < needed) with
  | none => .ok ()
  | some needed => .error (.arityExceeded needed maxArity)

/-- Refuses a plan when an invocation is not supported; the first one counts. -/
def checkSupport (p : Plan) (c : Config) : Except HeaderFault Unit :=
  p.groups.forM fun g => g.checkSupport c

/-- Refuses a plan that does not fit the header of a configuration. -/
def validate (p : Plan) (c : Config) : Except HeaderFault Unit := do
  p.checkSupport c
  p.checkCapacity c.maxArity.toNat

/-! ## The routine -/

/-- A branch as text. -/
def branchText (w : Wording) (b : Branch) : String :=
  w.branch ("\"" ++ b.name ++ "\"") b.target b.cached

/-- The dispatch routine; an unknown name is answered last. -/
def render (p : Plan) (v : Variant) : String :=
  let w := Wording.of v
  w.defaultDispatch (" ".intercalate (p.branches.map (branchText w)))

/-! ## Shadowed branches -/

/-- A branch that is never taken, since an earlier one matches its name. -/
structure Shadowed where
  name : String
  position : Nat
  first : Nat
deriving DecidableEq, Repr

/-- The shadowed branches among those from a position on, given where names were seen first. -/
def shadowedFrom (seen : List (String × Nat)) : Nat → List Branch → List Shadowed
  | _, [] => []
  | position, b :: bs =>
    match seen.lookup b.name with
    | some first => ⟨b.name, position, first⟩ :: shadowedFrom seen (position + 1) bs
    | none => shadowedFrom ((b.name, position) :: seen) (position + 1) bs

/-- The branches that are never taken, each with the position of the one taken instead. -/
def shadowed (p : Plan) : List Shadowed := shadowedFrom [] 0 p.branches

end Plan

end NamedDispatch
