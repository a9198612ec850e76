/-
The text inside dispatch branches and around them, for each variant.
-/
import NamedDispatch.Header.Config

namespace NamedDispatch

/-- A call with a place for the function: what stands before it and after it. -/
structure Call where
  before : String
  after : String
deriving DecidableEq, Repr

/-- The call with the function in its place. -/
def Call.on (c : Call) (func : String) : String := c.before ++ func ++ c.after

/-- The texts of a variant: the calls of plain functions and of those that keep their results, the
statement that finds the name called, the one that answers an unknown name, the routine around
them, and whether the header guards and documents its parts. -/
structure Wording where
  variant : Variant
  call : Call
  cachedCall : Call
  nameDecl : String
  fallback : String
  routine : Option String
  guarded : Bool
  documented : Bool
deriving DecidableEq, Repr

namespace Wording

/-! ## Guards -/

/-- Opens the part that only servers and modules read, unless documentation is generated. -/
def ladderGuard : String :=
  "#if !defined(RPC_HPP_DOXYGEN_GEN) && (defined(RPC_HPP_SERVER_IMPL) || defined(RPC_HPP_MODULE_IMPL))"

/-- Opens the part that only servers and modules read. -/
def serverGuard : String := "#if defined(RPC_HPP_SERVER_IMPL) || defined(RPC_HPP_MODULE_IMPL)"

/-- Ends the part for servers and opens the one that only clients read. -/
def clientGuard : String := "#elif defined(RPC_HPP_CLIENT_IMPL)"

/-- Ends a guarded part. -/
def endGuard : String := "#endif"

/-! ## Variants -/

/-- Answers an unknown name with an exception. -/
def throwMissing : String :=
  "throw std::runtime_error(\"RPC error: Called function: \\\"\" + func_name + \"\\\" not found!\");"

/-- The texts of `legacy` headers, whose parts are neither guarded nor documented. -/
def legacy : Wording where
  variant := .legacy
  call := ⟨"this->dispatch_func(", ", serial_obj)"⟩
  cachedCall := ⟨"this->dispatch_cached_func(", ", serial_obj)"⟩
  nameDecl := "const auto func_name = rpc::pack_adapter<Serial>::get_func_name(serial_obj);"
  fallback := throwMissing
  routine := none
  guarded := false
  documented := false

/-- The texts of `classic` headers, the only ones whose parts are guarded and documented. -/
def classic : Wording where
  variant := .classic
  call := ⟨"this->dispatch_func(", ", serial_obj)"⟩
  cachedCall := ⟨"this->dispatch_cached_func(", ", serial_obj)"⟩
  nameDecl := "const auto func_name = rpc::pack_adapter<adapter_t>::get_func_name(serial_obj);"
  fallback := throwMissing
  routine := none
  guarded := true
  documented := true

/-- The texts of `templated` headers; the dispatch routine is a function of its own. -/
def templated : Wording where
  variant := .templated
  call := ⟨"dispatch_func<Serial>(", ", serial_obj)"⟩
  cachedCall := ⟨"dispatch_func<Serial>(", ", serial_obj, true)"⟩
  nameDecl := "const auto func_name = serial_adapter<Serial>::extract_func_name(serial_obj);"
  fallback := "serial_adapter<Serial>::set_err_mesg(serial_obj, \"RPC error: Called function: \\\"\" + func_name + \"\\\" not found!\");"
  routine := some "template<typename Serial> void rpc::server::dispatch(typename Serial::doc_type& serial_obj)"
  guarded := false
  documented := false

/-- The texts of `callback` headers. The initializer in `fallback` stands in parentheses, so that no
comma of it splits an argument of `EXPAND`. -/
def callback : Wording where
  variant := .callback
  call := ⟨"this->dispatch_callback(", ", rpc_obj)"⟩
  cachedCall := ⟨"this->dispatch_callback(", ", rpc_obj, true)"⟩
  nameDecl := "const auto func_name = rpc_obj.get_func_name();"
  fallback := "rpc_obj = (object_t\x7b detail::func_error\x7b func_name, function_missing_error\x7b \"RPC error: Called function: \\\"\" + func_name + \"\\\" not found!\" \x7d \x7d \x7d);"
  routine := none
  guarded := false
  documented := false

/-- The texts of a variant. -/
def of : Variant → Wording
  | .legacy => legacy
  | .classic => classic
  | .templated => templated
  | .callback => callback

/-! ## Branches -/

/-- The expression that runs a function. -/
def dispatchExpr (w : Wording) (func : String) (cached : Bool) : String :=
  (if cached then w.cachedCall else w.call).on func

/-- Returns what `func` gives when the name called is `matched`. -/
def branch (w : Wording) (matched func : String) (cached : Bool) : String :=
  "if (func_name == " ++ matched ++ ") \x7b return " ++ w.dispatchExpr func cached ++ "; \x7d"

/-- What a dispatch routine does: it finds the name called, tries the branches, and answers an
unknown name. -/
def statements (w : Wording) (chain : String) : String :=
  -- where there are no branches the statements have one blank between them
  if chain.isEmpty then w.nameDecl ++ " " ++ w.fallback
  else w.nameDecl ++ " " ++ chain ++ " " ++ w.fallback

/-- The whole dispatch text around a chain of branches, as `DEFAULT_DISPATCH` writes it. -/
def defaultDispatch (w : Wording) (chain : String) : String :=
  match w.routine with
  | some signature => signature ++ " \x7b " ++ w.statements chain ++ " \x7d"
  | none => w.statements chain

end Wording

end NamedDispatch
