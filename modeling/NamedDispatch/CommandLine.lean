/-
The command line: what the arguments ask for, and what comes of it. Up to two operands are taken,
the greatest number of arguments and the path to write to.
-/
import NamedDispatch.Header.Generate

namespace NamedDispatch.CommandLine

/-- What the arguments ask for. -/
inductive Request where
  | version
  | generate (c : Config) (path : String)
deriving DecidableEq, Repr

/-- Why the arguments are refused. -/
inductive UsageFault where
  | unknownOption (arg : String)
  | surplusOperand (arg : String)
  | invalidArity (cause : HeaderFault)
  | emptyPath
deriving DecidableEq, Repr

/-- How refused arguments are worded. -/
def UsageFault.message : UsageFault → String
  | .unknownOption arg => "unexpected argument '" ++ arg ++ "' found"
  | .surplusOperand arg => "unexpected argument '" ++ arg ++ "' found"
  | .invalidArity cause => cause.message
  | .emptyPath => "a value is required for the output path"

/-- What is printed for `--version`. -/
def versionText : String := "dispatchgen 0.1.0"

/-! ## Reading arguments -/

/-- The operands read so far. -/
structure Operands where
  maxArity : Option UInt64
  path : Option String

/-- Takes an operand: the first is the greatest number of arguments, the second the path, a third is
refused. -/
def Operands.take (o : Operands) (arg : String) : Except UsageFault Operands :=
  match o.maxArity, o.path with
  | none, _ => do
    let n ← (readMaxArity arg).mapError .invalidArity
    return { o with maxArity := some n }
  | some _, none => if arg.isEmpty then .error .emptyPath else .ok { o with path := some arg }
  | some _, some _ => .error (.surplusOperand arg)

/-- What is asked for when all arguments have been read. -/
def Operands.request (o : Operands) : Request :=
  let c := Config.forVariant .standard
  .generate (c.withMaxArity (o.maxArity.getD c.maxArity)) (o.path.getD defaultOutputPath)

/-- What an argument is. -/
inductive Kind where
  | operand
  | endOfOptions
  | version
  | unknown

/-- What an argument is while options are allowed: a dash begins an option unless it stands alone,
and `-V` is the version whatever letters follow it. -/
def kindOf (arg : String) : Kind :=
  if arg = "--" then .endOfOptions
  else if arg = "--version" then .version
  else
    match arg.toList with
    | '-' :: 'V' :: _ => .version
    | '-' :: _ :: _ => .unknown
    | _ => .operand

/-- Reads the arguments from left to right; the version is answered as soon as it is asked for. -/
def readFrom (options : Bool) (o : Operands) : List String → Except UsageFault Request
  | [] => .ok o.request
  | arg :: args =>
    match if options then kindOf arg else .operand with
    | .endOfOptions => readFrom false o args
    | .version => .ok .version
    | .unknown => .error (.unknownOption arg)
    | .operand => do readFrom options (← o.take arg) args

/-- What the arguments ask for; options are allowed from the start. -/
def read (args : List String) : Except UsageFault Request := readFrom true ⟨none, none⟩ args

/-! ## Running -/

/-- How a run ends: its exit code and what it prints. -/
structure Ending where
  exit : UInt32
  stdout : String
  stderr : String
deriving DecidableEq, Repr

/-- The ending of a run whose arguments are refused. -/
def Ending.ofUsage (fault : UsageFault) : Ending := ⟨2, "", "error: " ++ fault.message ++ "\n"⟩

/-- The ending of a run that succeeds and prints a line. -/
def Ending.ofLine (line : String) : Ending := ⟨0, line ++ "\n", ""⟩

/-- The ending of a run that generates no header or cannot write it. -/
def Ending.ofFault (fault : HeaderFault) : Ending := ⟨1, "", "Error: " ++ fault.message ++ "\n"⟩

/-- What a run with the arguments prints, and what it leaves of the tree of files. -/
def run (args : List String) (t : FileTree) : Ending × FileTree :=
  match read args with
  | .error fault => (.ofUsage fault, t)
  | .ok .version => (.ofLine versionText, t)
  | .ok (.generate c path) =>
    match Header.generateTo c path t with
    | (.ok _, t) => (.ofLine path, t)
    | (.error fault, t) => (.ofFault fault, t)

end NamedDispatch.CommandLine
