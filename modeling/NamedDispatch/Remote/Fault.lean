/-
Why a call by name fails or a name is not bound. A fault travels as its kind and its wording, so
these two are all it consists of.
-/
import NamedDispatch.Json.Fault

namespace NamedDispatch

/-- The kinds of faults. -/
inductive FaultKind where
  | functionMissing
  | functionBind
  | signatureMismatch
  | serialization
  | deserialization
  | serverReceive
deriving DecidableEq, Repr

namespace FaultKind

/-- The kinds with the names that documents give them. -/
def all : List (String × FaultKind) :=
  [("function_missing", .functionMissing), ("function_bind", .functionBind),
   ("signature_mismatch", .signatureMismatch), ("serialization", .serialization),
   ("deserialization", .deserialization), ("server_receive", .serverReceive)]

/-- The name that documents give a kind. -/
def name : FaultKind → String
  | .functionMissing => "function_missing"
  | .functionBind => "function_bind"
  | .signatureMismatch => "signature_mismatch"
  | .serialization => "serialization"
  | .deserialization => "deserialization"
  | .serverReceive => "server_receive"

end FaultKind

/-- A fault: its kind and how it is worded. -/
structure DispatchFault where
  kind : FaultKind
  message : String
deriving DecidableEq, Repr

namespace DispatchFault

/-- No function is bound under the name called. -/
def missing (name : String) : DispatchFault :=
  ⟨.functionMissing, "RPC error: Called function: \"" ++ name ++ "\" not found!"⟩

/-- A name is not bound, for the reason given. -/
def bind (name reason : String) : DispatchFault :=
  ⟨.functionBind, "RPC error: server could not bind function: " ++ name ++ "() (" ++ reason ++ ")"⟩

/-- The name to be bound has nothing visible in it. -/
def blankName (name : String) : DispatchFault := bind name "function name is empty"

/-- The name to be bound is bound already. -/
def takenName (name : String) : DispatchFault := bind name "function name already exists"

/-- The name that another one should stand for is not bound. -/
def unboundTarget (name target : String) : DispatchFault :=
  bind name ("alias target " ++ target ++ "() is not bound")

/-- A function is called with another number of arguments than it takes. -/
def arity (func : String) (expected received : Nat) : DispatchFault :=
  ⟨.signatureMismatch, "RPC error: " ++ func ++ "() expects " ++ toString expected ++
    " argument(s), received " ++ toString received⟩

/-- The argument at `index` does not fit its parameter. -/
def argument (func : String) (index : Nat) (cause : Json.Cause) : DispatchFault :=
  ⟨.deserialization, "RPC error: argument " ++ toString index ++ " of " ++ func ++
    "() could not be decoded: " ++ cause.message⟩

/-- What a function returned cannot be encoded. -/
def result (func : String) (cause : Json.Cause) : DispatchFault :=
  ⟨.serialization, "RPC error: result of " ++ func ++ "() could not be encoded: " ++ cause.message⟩

/-- The bytes received are no request. -/
def request (cause : Json.Fault) : DispatchFault :=
  ⟨.serverReceive, "RPC error: received an invalid request object: " ++ cause.message⟩

end DispatchFault

end NamedDispatch
