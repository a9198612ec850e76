/-
Why a header is not generated, written or invoked, and how each cause is worded.
-/
import NamedDispatch.Files.Tree
import NamedDispatch.Header.Config
import NamedDispatch.Text.Blank
import NamedDispatch.Text.Numeral
import NamedDispatch.Text.Printable

namespace NamedDispatch

/-! ## Causes -/

/-- Why a greatest number of arguments is refused. -/
inductive ArityFault where
  | aboveLimit (n : Nat)
  | notANumber (raw : String) (cause : Text.NumeralFault)
deriving DecidableEq, Repr

/-- What is wrong with the structure of a header, or with an invocation of one of its macros. -/
inductive Violation where
  | forwardReference (name target : String)
  | forwardUse (name used : String)
  | unusedReference (name target : String)
  | repeatedName (name : String)
  | ladderHeight (levels expected : Nat)
  | notLevel (name : String) (level : Nat)
  | wrongDescent (name : String) (level : Nat)
  | counterSlots (name : String) (slots expected : Nat)
  | levelOrder (name : String) (top : Nat) (levels : List Nat)
  | unlisted (name listed : String)
  | pairDisagreement
  | noNames (name : String)
deriving DecidableEq, Repr

/-- Why a header is not generated, written or invoked. -/
inductive HeaderFault where
  | invalidArity (cause : ArityFault)
  | invalidStem (stem : String)
  | unwritable (path : String) (cause : FileFault)
  | malformed (cause : Violation)
  | arityExceeded (requested maxArity : Nat)
  | unsupported (name : String) (variant : Variant)
deriving DecidableEq, Repr

/-! ## Wording -/

/-- How a refused number of arguments is worded; a text is shown between quotes. -/
def ArityFault.message : ArityFault → String
  | .aboveLimit n => toString n ++ " is above the supported limit of " ++ toString maxArityLimit
  | .notANumber raw cause =>
    Text.quoted raw ++ " is not a non-negative integer (" ++ cause.message ++ ")"

/-- The numbers between brackets, as in `[2, 1, 0]`. -/
def listText (ns : List Nat) : String := "[" ++ ", ".intercalate (ns.map toString) ++ "]"

/-- How a violation is worded, with the names of the macros it concerns. -/
def Violation.message : Violation → String
  | .forwardReference name target =>
    name ++ " references " ++ target ++ " which is not defined before it"
  | .forwardUse name used => name ++ " uses " ++ used ++ " before its definition"
  | .unusedReference name target =>
    name ++ " records a reference to " ++ target ++ " that its body never uses"
  | .repeatedName name => name ++ " is defined more than once"
  | .ladderHeight levels expected =>
    "ladder has " ++ toString levels ++ " levels, expected " ++ toString expected
  | .notLevel name level => name ++ " is not ladder level " ++ toString level
  | .wrongDescent name level =>
    name ++ " must reference exactly level " ++ toString level ++ " of its ladder"
  | .counterSlots name slots expected =>
    name ++ " has " ++ toString slots ++ " placeholders, expected " ++ toString expected
  | .levelOrder name top levels =>
    name ++ " must list levels " ++ toString top ++ "..=0 in descending order, found " ++
      listText levels
  | .unlisted name listed => name ++ " body does not list its candidates as " ++ listed
  | .pairDisagreement => "pair selector and pair ladder disagree"
  | .noNames name => name ++ " invoked without names"

/-- How a fault is worded, its cause at the end. -/
def HeaderFault.message : HeaderFault → String
  | .invalidArity cause => "Invalid max arity: " ++ cause.message
  | .invalidStem stem => "Invalid macro prefix: " ++ stem
  | .unwritable path cause => "Failed to write " ++ path ++ ": " ++ cause.message
  | .malformed cause => "Generated header is malformed: " ++ cause.message
  | .arityExceeded requested maxArity =>
    "Macro invocation needs arity " ++ toString requested ++
      " but the header supports at most " ++ toString maxArity
  | .unsupported name variant => name ++ " is not generated by the " ++ variant.name ++ " variant"

/-! ## The greatest number of arguments -/

/-- Refuses a number of arguments above `maxArityLimit`. -/
def checkMaxArity (n : UInt64) : Except HeaderFault Unit :=
  if n.toNat ≤ maxArityLimit then .ok () else .error (.invalidArity (.aboveLimit n.toNat))

/-- Reads a greatest number of arguments as a user writes it, blanks around it allowed. -/
def readMaxArity (raw : String) : Except HeaderFault UInt64 :=
  match Text.readNatural UInt64.size (Text.trim raw).toList with
  | .error cause => .error (.invalidArity (.notANumber raw cause))
  | .ok n => do
    checkMaxArity (UInt64.ofNat n)
    return UInt64.ofNat n

/-- Refuses a configuration no header can be generated from. -/
def Config.validate (c : Config) : Except HeaderFault Unit := checkMaxArity c.maxArity

end NamedDispatch
