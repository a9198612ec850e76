/-
A header before it is laid out as text: macros, numbered in the order they are emitted, and the
lines that hold them. A macro refers to others by their numbers, so "defined before use" is an
order of numbers.
-/
import Std.Data.HashMap

namespace NamedDispatch

/-! ## Macros -/

/-- What a macro is for. -/
inductive Role where
  | expand
  | ladder (level : Nat)
  | pairLadder (level : Nat)
  | counter
  | selector
  | headerFunc
  | registration
deriving DecidableEq, Repr

/-- The level of a ladder that a macro is, on either ladder. -/
def Role.level? : Role → Option Nat
  | .ladder k => some k
  | .pairLadder k => some k
  | _ => none

/-- A macro: its `body` is the text it stands for, and `refs` are the numbers of the macros that
text invokes. -/
structure Macro where
  name : String
  params : List String
  body : String
  refs : List Nat
  role : Role
  doc : Option String
deriving DecidableEq, Repr

namespace Macro

/-- The last parameter of a macro that takes any number of further arguments. -/
def ellipsis : String := "..."

/-- Whether a macro takes any number of further arguments. -/
def isVariadic (m : Macro) : Bool := m.params.getLast? == some ellipsis

/-- The parameters that have names, all but a last `...`. -/
def namedParams (m : Macro) : List String := if m.isVariadic then m.params.dropLast else m.params

/-- The names with `, ` between them, as in a parameter list or a call. -/
def commaList (names : List String) : String := ", ".intercalate names

/-- The line that defines a macro: `#define`, its name and parameters, and its body unless that is
empty. -/
def line (m : Macro) : String :=
  let head := "#define " ++ m.name ++ "(" ++ commaList m.params ++ ")"
  if m.body.isEmpty then head else head ++ " " ++ m.body

end Macro

/-! ## Sheets -/

/-- One line of a header. -/
inductive Line where
  | define (id : Nat)
  | directive (text : String)
  | blank
deriving DecidableEq, Repr

/-- The macros emitted so far, the number of the first macro emitted under each name, and the lines
of the header. -/
structure Sheet where
  defs : Array Macro
  index : Std.HashMap String Nat
  lines : Array Line

namespace Sheet

/-- A sheet on which nothing has been written. -/
def empty : Sheet := ⟨#[], ∅, #[]⟩

/-- How many macros there are; it is the number of the next one. -/
def size (s : Sheet) : Nat := s.defs.size

/-! ## Reading -/

/-- The first macro emitted under a name. -/
def lookup (s : Sheet) (name : String) : Option Nat := s.index[name]?

/-- The name of the macro numbered `id`; the empty text where there is none. -/
def nameOf (s : Sheet) (id : Nat) : String := (s.defs[id]?.map (·.name)).getD ""

/-- What the macro numbered `id` is for. -/
def roleOf (s : Sheet) (id : Nat) : Option Role := s.defs[id]?.map (·.role)

/-! ## Writing -/

/-- Adds a macro under the next number. Its name is found at the first macro emitted with it. -/
def emit (s : Sheet) (m : Macro) : Sheet :=
  ⟨s.defs.push m, s.index.insertIfNew m.name s.size, s.lines.push (.define s.size)⟩

/-- Adds macros in the order of the list. -/
def emitAll (s : Sheet) (ms : List Macro) : Sheet := ms.foldl emit s

/-- Adds a line of the preprocessor's that defines no macro. -/
def directive (s : Sheet) (text : String) : Sheet := { s with lines := s.lines.push (.directive text) }

/-- Adds a blank line, unless it would be the first one or follow another. -/
def blank (s : Sheet) : Sheet :=
  match s.lines.back? with
  | none => s
  | some .blank => s
  | some _ => { s with lines := s.lines.push .blank }

/-- Changes a macro in place. The names it was found under stay those it was emitted with. -/
def modify (s : Sheet) (id : Nat) (f : Macro → Macro) : Sheet := { s with defs := s.defs.modify id f }

end Sheet

end NamedDispatch
