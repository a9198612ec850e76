/-
The dispatch table: public names and the functions bound to them. Several names may share one
binding, and then they share the results it keeps. A name is bound once and stays bound.
-/
import NamedDispatch.Remote.Function
import NamedDispatch.Remote.Message
import NamedDispatch.Text.Blank

namespace NamedDispatch

/-! ## Bindings -/

/-- A bound function: the name it reports, how many arguments it takes, and, if it keeps results,
those of each argument list called so far. -/
structure Binding (σ : Type) where
  target : String
  arity : UInt64
  handler : Handler σ
  cache : Option (List (String × Json))

namespace Binding

/-- The key of an argument list: its compact text. -/
def key (args : List Json) : String := (Json.arr args).render

/-- The results kept at first: none, or no keeping at all. -/
def freshCache (cached : Bool) : Option (List (String × Json)) := if cached then some [] else none

/-- A binding of a typed function, which faults mention by the name `target`. -/
def ofFunction {σ : Type} (target : String) (f : RemoteFunction σ) (cached : Bool) : Binding σ :=
  ⟨target, UInt64.ofNat f.arity, f.call target, freshCache cached⟩

/-- A binding of a handler that takes documents as they are. -/
def ofHandler {σ : Type} (target : String) (arity : UInt64) (cached : Bool) (h : Handler σ) :
    Binding σ :=
  ⟨target, arity, h, freshCache cached⟩

/-- Whether results are kept. -/
def isCached {σ : Type} (b : Binding σ) : Bool := b.cache.isSome

/-- How many results are kept. -/
def cachedResults {σ : Type} (b : Binding σ) : Nat := (b.cache.map List.length).getD 0

/-- The binding with every kept result dropped. -/
def clear {σ : Type} (b : Binding σ) : Binding σ := { b with cache := b.cache.map fun _ => [] }

/-- Keeps the result of an argument list, where results are kept. -/
def keep {σ : Type} (b : Binding σ) (args : List Json) (r : Json) : Binding σ :=
  { b with cache := b.cache.map fun kept => (key args, r) :: kept }

/-- The result kept of an argument list. -/
def kept? {σ : Type} (b : Binding σ) (args : List Json) : Option Json :=
  b.cache.bind fun kept => kept.lookup (key args)

/-- Answers from the kept results, or else runs the handler and keeps what it returns. A fault is
not kept. -/
def invoke {σ : Type} (b : Binding σ) (args : List Json) (s : σ) :
    Except DispatchFault Json × Binding σ × σ :=
  match b.kept? args with
  | some r => (.ok r, b, s)
  | none =>
    match b.handler args s with
    | (.ok r, s) => (.ok r, b.keep args r, s)
    | (.error e, s) => (.error e, b, s)

end Binding

/-! ## Tables -/

/-- Bound names, each with the position of its binding, and the bindings in the order they were
made. -/
structure Table (σ : Type) where
  names : List (String × Nat)
  bindings : List (Binding σ)

namespace Table

variable {σ : Type}

/-- The table in which no name is bound. -/
def empty : Table σ := ⟨[], []⟩

/-! ## Looking up -/

/-- The binding of a name. -/
def find? (t : Table σ) (name : String) : Option (Binding σ) :=
  (t.names.lookup name).bind fun i => t.bindings[i]?

/-- Whether a name is bound. -/
def contains (t : Table σ) (name : String) : Bool := (t.names.lookup name).isSome

/-- How many names are bound. -/
def size (t : Table σ) : Nat := t.names.length

/-- Whether no name is bound. -/
def isEmpty (t : Table σ) : Bool := t.names.isEmpty

/-- How many results the binding of a name keeps; 0 for a name that is not bound. -/
def cachedResults (t : Table σ) (name : String) : Nat :=
  ((t.find? name).map Binding.cachedResults).getD 0

/-- The description of a bound name. -/
def describeName (t : Table σ) (name : String) : Option Description :=
  (t.find? name).map fun b => ⟨name, b.target, b.arity, b.isCached⟩

/-- All bound names, in the order of texts. -/
def sortedNames (t : Table σ) : List String := (t.names.map (·.1)).mergeSort fun a b => decide (a ≤ b)

/-- The descriptions of all bound names, sorted by name. -/
def describe (t : Table σ) : List Description := t.sortedNames.filterMap t.describeName

/-- The bound names as a text for diagnostics. -/
def debugText (t : Table σ) : String :=
  "DispatchTable \x7b names: [" ++ ", ".intercalate (t.sortedNames.map Text.quoted) ++ "] \x7d"

/-! ## Binding -/

/-- Refuses a name that is blank or bound already. -/
def checkName (t : Table σ) (name : String) : Except DispatchFault Unit :=
  if Text.isBlankText name then .error (.blankName name)
  else if t.contains name then .error (.takenName name)
  else .ok ()

/-- Binds one more name to the binding at a position. -/
def addName (t : Table σ) (name : String) (i : Nat) : Except DispatchFault (Table σ) := do
  t.checkName name
  return { t with names := t.names ++ [(name, i)] }

/-- Binds names to the binding at a position until one fails; those before it stay bound. -/
def addNames (t : Table σ) (i : Nat) : List String → Except DispatchFault Unit × Table σ
  | [] => (.ok (), t)
  | name :: names =>
    match t.addName name i with
    | .ok t => t.addNames i names
    | .error e => (.error e, t)

/-- Binds a name to a new binding. -/
def bind (t : Table σ) (name : String) (b : Binding σ) : Except DispatchFault Unit × Table σ :=
  match t.addName name t.bindings.length with
  | .ok t => (.ok (), { t with bindings := t.bindings ++ [b] })
  | .error e => (.error e, t)

/-- Binds a function to its public name. -/
def attach (t : Table σ) (name : String) (f : RemoteFunction σ) (cached : Bool) :
    Except DispatchFault Unit × Table σ :=
  t.bind name (.ofFunction name f cached)

/-- Binds a handler that takes documents as they are. -/
def attachRaw (t : Table σ) (name : String) (arity : UInt64) (cached : Bool) (h : Handler σ) :
    Except DispatchFault Unit × Table σ :=
  t.bind name (.ofHandler name arity cached h)

/-- Binds a function under other names only, all of which share one binding. It stops at the first
name that fails. -/
def attachAliased (t : Table σ) (target : String) (names : List String) (f : RemoteFunction σ)
    (cached : Bool) : Except DispatchFault Unit × Table σ :=
  match t.addNames t.bindings.length names with
  | (r, t') =>
    -- a binding that no name leads to is not made
    if t'.size = t.size then (r, t)
    else (r, { t' with bindings := t'.bindings ++ [.ofFunction target f cached] })

/-- Makes a function reachable under one more name. That the function is bound is checked first. -/
def addAlias (t : Table σ) (name target : String) : Except DispatchFault Unit × Table σ :=
  match t.names.lookup target with
  | none => (.error (.unboundTarget name target), t)
  | some i =>
    match t.addName name i with
    | .ok t => (.ok (), t)
    | .error e => (.error e, t)

/-- Takes the steps in order until one fails; what was done before it stays. -/
def inTurn (t : Table σ) :
    List (Table σ → Except DispatchFault Unit × Table σ) → Except DispatchFault Unit × Table σ
  | [] => (.ok (), t)
  | step :: steps =>
    match step t with
    | (.ok (), t) => t.inTurn steps
    | (.error e, t) => (.error e, t)

/-- Binds each function to its public name, in order. -/
def attachMany (t : Table σ) (fs : List (String × RemoteFunction σ)) (cached : Bool) :
    Except DispatchFault Unit × Table σ :=
  t.inTurn (fs.map fun f t => t.attach f.1 f.2 cached)

/-- Binds each function under the name that goes with it, in order. -/
def aliasPairs (t : Table σ) (fs : List (String × RemoteFunction σ × String)) :
    Except DispatchFault Unit × Table σ :=
  t.inTurn (fs.map fun f t => t.attachAliased f.1 [f.2.2] f.2.1 false)

/-! ## Calling -/

/-- Drops the results kept by all bindings. -/
def clearCache (t : Table σ) : Table σ := { t with bindings := t.bindings.map Binding.clear }

/-- Calls the function bound to a name, and keeps its result where results are kept. -/
def dispatch (t : Table σ) (name : String) (args : List Json) (s : σ) :
    Except DispatchFault Json × Table σ × σ :=
  match t.names.lookup name with
  | none => (.error (.missing name), t, s)
  | some i =>
    match t.bindings[i]? with
    | none => (.error (.missing name), t, s)
    | some b =>
      let (r, b, s) := b.invoke args s
      (r, { t with bindings := t.bindings.set i b }, s)

/-- Answers a request. -/
def handle (t : Table σ) (r : Request) (s : σ) : Response × Table σ × σ :=
  let (outcome, t, s) := t.dispatch r.func r.args s
  (.ofOutcome r.func outcome, t, s)

/-- Answers the bytes of a request; bytes that are none are answered with a fault. -/
def handleBytes (t : Table σ) (bytes : List UInt8) (s : σ) : Response × Table σ × σ :=
  match Request.ofBytes bytes with
  | .ok r => t.handle r s
  | .error cause => (.fault "" (.request cause), t, s)

end Table

end NamedDispatch
