/-
Identifiers of the preprocessor's language: which texts are one, which stems may begin one, and the
identifiers that occur in the body of a definition. And whether a body has a text in it in one piece.
-/

namespace NamedDispatch.Text

/-! ## Characters -/

/-- An ASCII letter or an underscore. -/
def isWordStart (c : Char) : Bool := c.isAlpha || c == '_'

/-- An ASCII letter or digit, or an underscore. -/
def isWordChar (c : Char) : Bool := c.isAlphanum || c == '_'

/-! ## Whole texts -/

/-- A word that does not start with a digit. -/
def isIdentifierChars : List Char → Bool
  | [] => false
  | c :: cs => isWordStart c && cs.all isWordChar

/-- An identifier: letters, digits and underscores, at least one, not a digit first. -/
def isIdentifier (s : String) : Bool := isIdentifierChars s.toList

/-- A stem keeps every name that begins with it an identifier: it is one itself, or empty. -/
def isStem (s : String) : Bool := s.toList.isEmpty || isIdentifier s

/-! ## Words inside a text -/

/-- A maximal run of word characters, with the character that stands before it. -/
structure Word where
  before : Option Char
  chars : List Char
deriving DecidableEq, Repr

/-- Ends a run, collected in reverse; an empty run is no word. -/
def closeWord (before : Option Char) (run : List Char) : List Word :=
  if run.isEmpty then [] else [⟨before, run.reverse⟩]

/-- The words of a text, given the run that is open and the character before it. -/
def wordsFrom (before : Option Char) (run : List Char) : List Char → List Word
  | [] => closeWord before run
  | c :: cs =>
    if isWordChar c then wordsFrom before (c :: run) cs
    else closeWord before run ++ wordsFrom (some c) [] cs

/-- The words of a text, from left to right. -/
def words (cs : List Char) : List Word := wordsFrom none [] cs

/-- A word that names something: it starts with no digit and is not turned into a string by a `#`. -/
def Word.isName (w : Word) : Bool :=
  (w.chars.head?.any isWordStart) && w.before != some '#'

/-- The identifiers of a definition's body in order of occurrence, with repetitions. -/
def identifiers (body : String) : List String :=
  ((words body.toList).filter Word.isName).map fun w => String.ofList w.chars

/-! ## Texts inside others -/

/-- Whether the part stands somewhere among the characters, all of it in one piece. -/
def occursIn (part : List Char) : List Char → Bool
  | [] => part.isEmpty
  | c :: cs => part.isPrefixOf (c :: cs) || occursIn part cs

/-- Whether the text has the part in it, in one piece. -/
def contains (s part : String) : Bool := occursIn part.toList s.toList

end NamedDispatch.Text
