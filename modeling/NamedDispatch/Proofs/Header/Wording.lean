/-
The texts of a variant taken apart: a branch is fixed texts around what it matches and the function it runs, and
a routine is fixed texts around its branches. A renaming that keeps the words of the fixed texts renames what
stands between them.
-/
import NamedDispatch.Header.Wording
import NamedDispatch.Proofs.Text.Renaming

namespace NamedDispatch.Wording

open Text (Kept rename)

variable {f : String → String}

/-! ## Branches -/

/-- How a branch calls its function: through `cachedCall` when the function keeps its results. -/
def callOf (w : Wording) (cached : Bool) : Call := if cached then w.cachedCall else w.call

/-- The text of a branch between the name it matches and the function it runs. -/
def middle (w : Wording) (cached : Bool) : String := ") \x7b return " ++ (w.callOf cached).before

/-- The text of a branch after the function it runs. -/
def finish (w : Wording) (cached : Bool) : String := (w.callOf cached).after ++ "; \x7d"

theorem branch_eq (w : Wording) (matched func : String) (cached : Bool) : w.branch matched func cached =
    "if (func_name == " ++ (matched ++ (w.middle cached ++ (func ++ w.finish cached))) := by
  have assoc (start m mid before f after last : String) : start ++ m ++ mid ++ (before ++ f ++ after) ++ last =
      start ++ (m ++ (mid ++ before ++ (f ++ (after ++ last)))) := by simp only [String.append_assoc]
  exact assoc ..

/-- No word of a branch runs from the text of its call into the name of the function. -/
theorem callOf_apart (v : Variant) (cached : Bool) :
    Text.endsApart ((of v).callOf cached).before = true ∧ Text.startsApart ((of v).callOf cached).after = true := by
  cases v <;> cases cached <;> exact ⟨by decide +kernel, by decide +kernel⟩

theorem rename_branch (v : Variant) (cached : Bool) (opening : Kept f "if (func_name == ")
    (returning : Kept f ") \x7b return ") (closing : Kept f "; \x7d") (before : Kept f ((of v).callOf cached).before)
    (after : Kept f ((of v).callOf cached).after) (matched func : String) :
    rename f ((of v).branch matched func cached) = (of v).branch (rename f matched) (rename f func) cached := by
  obtain ⟨before_ends, after_starts⟩ := callOf_apart v cached
  have middle : Kept f ((of v).middle cached) := returning.append_of_endsApart before (by decide)
  have finish : Kept f ((of v).finish cached) := after.append_of_startsApart closing (by decide)
  have middle_starts : Text.startsApart ((of v).middle cached) = true := Text.startsApart_append (by decide) _
  have middle_ends : Text.endsApart ((of v).middle cached) = true := Text.endsApart_append _ before_ends
  have finish_starts : Text.startsApart ((of v).finish cached) = true := Text.startsApart_append after_starts _
  rw [branch_eq, branch_eq, Text.rename_append_of_endsApart (by decide), opening,
    Text.rename_append_of_startsApart _ (Text.startsApart_append middle_starts _),
    Text.rename_append_of_endsApart middle_ends, middle, Text.rename_append_of_startsApart _ finish_starts, finish]

/-! ## Routines -/

/-- The signature with the brace after it, if there is one. -/
def signature (w : Wording) : String := w.routine.elim "" fun signature => signature ++ " \x7b "

/-- What stands before the branches: the signature and the statement that finds the name. -/
def front (w : Wording) : String := w.signature ++ w.nameDecl ++ " "

/-- The brace that closes the routine, if there is one. -/
def closing (w : Wording) : String := w.routine.elim "" fun _ => " \x7d"

/-- What stands after the branches. -/
def back (w : Wording) : String := " " ++ w.fallback ++ w.closing

/-- The statements stand alone, or between the signature and the brace that closes the routine. -/
theorem defaultDispatch_statements (w : Wording) (chain : String) :
    w.defaultDispatch chain = w.signature ++ w.statements chain ++ w.closing := by
  rw [defaultDispatch, signature, closing]
  cases w.routine with
  | some signature => simp only [Option.elim_some, String.append_assoc]
  | none => simp only [Option.elim_none, String.empty_append, String.append_empty]

theorem defaultDispatch_eq (w : Wording) {chain : String} (h : chain.isEmpty = false) :
    w.defaultDispatch chain = w.front ++ chain ++ w.back := by
  rw [defaultDispatch_statements, front, back, statements, h, if_neg Bool.false_ne_true]
  simp only [String.append_assoc]

theorem rename_defaultDispatch (w : Wording) (front : Kept f w.front) (back : Kept f w.back) {chain : String}
    (h : chain.isEmpty = false) (h' : (rename f chain).isEmpty = false) :
    rename f (w.defaultDispatch chain) = w.defaultDispatch (rename f chain) := by
  have ends : Text.endsApart w.front = true := Text.endsApart_append _ (by decide)
  have starts : Text.startsApart w.back = true := Text.startsApart_append (Text.startsApart_append (by decide) _) _
  rw [defaultDispatch_eq w h, defaultDispatch_eq w h', Text.rename_around ends starts front back]

end NamedDispatch.Wording
