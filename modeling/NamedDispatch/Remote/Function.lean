/-
Functions with typed parameters and a typed result, called with documents. A call decodes every
argument, in order, before the function runs.
-/
import NamedDispatch.Json.Basic
import NamedDispatch.Remote.Fault

namespace NamedDispatch

/-- What a bound name runs: documents in, a document or a fault out, with an effect on a state. -/
abbrev Handler (σ : Type) := List Json → σ → Except DispatchFault Json × σ

/-! ## Arguments -/

/-- A parameter: its type, and how an argument is decoded. -/
structure Parameter where
  Value : Type
  decode : Json → Except Json.Cause Value

/-- A value for each of the parameters, in order. -/
def Arguments : List Parameter → Type
  | [] => Unit
  | p :: ps => p.Value × Arguments ps

/-- Refuses another number of arguments than expected. -/
def checkArity (func : String) (args : List Json) (expected : Nat) : Except DispatchFault Unit :=
  if args.length = expected then .ok () else .error (.arity func expected args.length)

/-- Decodes the argument at a position; where there is none, `null` is decoded. -/
def decodeArgument {α : Type} (decode : Json → Except Json.Cause α) (func : String)
    (args : List Json) (index : Nat) : Except DispatchFault α :=
  (decode (args[index]?.getD .null)).mapError (.argument func index)

/-- Decodes an argument for each of the parameters, the first of them at the given position. -/
def decodeFrom (func : String) (args : List Json) :
    Nat → (ps : List Parameter) → Except DispatchFault (Arguments ps)
  | _, [] => .ok ()
  | index, p :: ps => do
    let a ← decodeArgument p.decode func args index
    let rest ← decodeFrom func args (index + 1) ps
    return (a, rest)

/-- The document of a result; a fault mentions the function. -/
def encodeResult {α : Type} (encode : α → Except Json.Cause Json) (func : String) (a : α) :
    Except DispatchFault Json :=
  (encode a).mapError (.result func)

/-! ## Functions -/

/-- The greatest number of parameters that a function may have. -/
def maxParameters : Nat := 12

/-- A function with an effect on a state, and how its result is encoded. -/
structure RemoteFunction (σ : Type) where
  parameters : List Parameter
  Result : Type
  run : Arguments parameters → σ → Result × σ
  encode : Result → Except Json.Cause Json
  few : parameters.length ≤ maxParameters := by decide

namespace RemoteFunction

/-- How many arguments a call of the function needs. -/
def arity {σ : Type} (f : RemoteFunction σ) : Nat := f.parameters.length

/-- The arguments of a call, if they fit the parameters. -/
def decode {σ : Type} (f : RemoteFunction σ) (func : String) (args : List Json) :
    Except DispatchFault (Arguments f.parameters) := do
  checkArity func args f.arity
  decodeFrom func args 0 f.parameters

/-- Calls a function under a name that faults mention. It runs only on arguments that all fit. -/
def call {σ : Type} (f : RemoteFunction σ) (func : String) : Handler σ := fun args s =>
  match f.decode func args with
  | .error e => (.error e, s)
  | .ok a =>
    let (r, s) := f.run a s
    (encodeResult f.encode func r, s)

end RemoteFunction

end NamedDispatch
