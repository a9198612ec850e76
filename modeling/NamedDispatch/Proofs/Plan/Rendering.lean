/-
The text of a dispatch routine (`Plan.render`): the statement that finds the name called, the branches in order
and the answer to unknown names, inside of a routine where the variant has one. The branches are read back from
the text.
-/
import NamedDispatch.Proofs.Expansion.Listed

namespace NamedDispatch.Plan

open Token (Reads)

/-! ## Statements -/

section

variable {w : Wording} {bs : List Branch}

theorem isEmpty_chain (h : bs ≠ []) :
    (" ".intercalate (bs.map (branchText w))).isEmpty = false := by
  have first (b : Branch) (t : String) : branchText w b ++ t ≠ "" := by
    intro he
    rw [branchText, Wording.branch_eq, String.append_assoc] at he
    exact absurd (String.append_eq_empty_iff.1 he).1 (by decide)
  obtain ⟨b, bs, rfl⟩ := List.exists_cons_of_ne_nil h
  rw [String.isEmpty_eq_false_iff]
  cases bs with
  | nil => exact fun he => first b "" (by rw [String.append_empty, ← he]; rfl)
  | cons b' bs =>
    rw [List.map_cons, List.map_cons, String.intercalate_cons_cons, String.append_assoc]
    exact first b _

/-- The statements of a routine: the one that finds the name called, the branches in order, and `fallback`. -/
def statements (w : Wording) (bs : List Branch) : List String :=
  w.nameDecl :: (bs.map (branchText w) ++ [w.fallback])

/-- Nothing is left out, and there are no two blanks, where there are no branches. -/
theorem statements_chain :
    w.statements (" ".intercalate (bs.map (branchText w))) = " ".intercalate (statements w bs) := by
  unfold Wording.statements statements
  rcases bs with _ | ⟨b, bs⟩
  · rfl
  · rw [isEmpty_chain (List.cons_ne_nil b bs), if_neg Bool.false_ne_true, String.intercalate_cons_of_ne_nil (by simp),
      String.intercalate_append_of_ne_nil (by simp) (by simp), String.intercalate_singleton]
    simp only [String.append_assoc]

theorem render_eq (p : Plan) (v : Variant) : p.render v = (Wording.of v).signature ++
    " ".intercalate (statements (Wording.of v) p.branches) ++ (Wording.of v).closing := by
  rw [← statements_chain, ← Wording.defaultDispatch_statements]
  rfl

/-! ## Branches in a row -/

/-- The branches with a blank after each. -/
def spaced (w : Wording) (bs : List Branch) : String := String.join (bs.map fun b => branchText w b ++ " ")

theorem spaced_cons (b : Branch) : spaced w (b :: bs) = branchText w b ++ " " ++ spaced w bs := by
  rw [spaced, List.map_cons, String.join_cons]
  rfl

theorem intercalate_statements :
    " ".intercalate (statements w bs) = w.nameDecl ++ " " ++ (spaced w bs ++ w.fallback) := by
  have row : " ".intercalate (bs.map (branchText w) ++ [w.fallback]) = spaced w bs ++ w.fallback := by
    induction bs with
    | nil => simp [spaced]
    | cons b bs ih =>
      rw [List.map_cons, List.cons_append, String.intercalate_cons_of_ne_nil (by simp), ih, spaced_cons]
      simp only [String.append_assoc]
  rw [statements, String.intercalate_cons_of_ne_nil (by simp), row]

end

/-- The branches in a row are read one after the other. -/
theorem reads_spaced {v : Variant} {bs : List Branch} (hb : ∀ b ∈ bs, b.IsNamed) :
    Reads (spaced (Wording.of v) bs) (tokensOf v bs) := by
  induction bs with
  | nil => exact ⟨rfl, rfl⟩
  | cons b bs ih =>
    obtain ⟨h1, h2⟩ := List.forall_mem_cons.1 hb
    have first : Reads (branchText (Wording.of v) b) (Token.ofText (branchText (Wording.of v) b)) :=
      ⟨(Header.reads_branchText (c := Config.forVariant v) h1).ended, rfl⟩
    have blank : Reads " " [] := by decide
    have whole := (first.append blank).append (ih h2)
    rw [List.append_nil] at whole
    rw [spaced_cons]
    exact whole

/-- The text that `render` gives is the statement that finds the name, the text of each branch in order and at
last the answer to unknown names, with blanks between them; only the brace that closes a routine stands after
that. The branches, and whether each keeps its results, are determined by the text. -/
theorem render_determines (v : Variant) :
    (∀ p : Plan, p.render v = (Wording.of v).signature ++
      " ".intercalate ((Wording.of v).nameDecl :: (p.branches.map (branchText (Wording.of v)) ++
        [(Wording.of v).fallback])) ++ (Wording.of v).closing) ∧
    ∀ p q : Plan, (∀ b ∈ p.branches, Text.isIdentifier b.name = true ∧ Text.isIdentifier b.target = true) →
      (∀ b ∈ q.branches, Text.isIdentifier b.name = true ∧ Text.isIdentifier b.target = true) →
      p.render v = q.render v → p.branches = q.branches := by
  refine ⟨fun p => render_eq p v, fun p q hp hq h => ?_⟩
  have named {bs : List Branch} (hb : ∀ b ∈ bs, Text.isIdentifier b.name = true ∧ Text.isIdentifier b.target = true) :
      ∀ b ∈ bs, b.IsNamed := fun b hm => ⟨.inr (hb b hm).1, .inr (hb b hm).2⟩
  -- what stands around the branches is the same in both
  have same : spaced (Wording.of v) p.branches = spaced (Wording.of v) q.branches := by
    rw [render_eq, render_eq, intercalate_statements, intercalate_statements] at h
    have h := (String.append_right_inj _).1 ((String.append_left_inj _).1 h)
    exact (String.append_left_inj _).1 ((String.append_right_inj _).1 h)
  have tokens : tokensOf v p.branches = tokensOf v q.branches := by
    rw [← (reads_spaced (named hp)).tokens, ← (reads_spaced (named hq)).tokens, same]
  exact Header.tokensOf_inj (c := Config.forVariant v) (named hp) (named hq) tokens

/-- Two functions attached at once, or one after the other. -/
theorem render_determines_two : let p : Plan := defaultDispatch ["add", "sub"]
    let q : Plan := ⟨[⟨.attach "add", false⟩, ⟨.attach "sub", false⟩]⟩
    p ≠ q ∧ (∀ b ∈ p.branches, Text.isIdentifier b.name = true ∧ Text.isIdentifier b.target = true) ∧
      (∀ b ∈ q.branches, Text.isIdentifier b.name = true ∧ Text.isIdentifier b.target = true) ∧
      p.render .templated = q.render .templated ∧ p.branches = q.branches := by
  intro p q
  have hp : ∀ b ∈ p.branches, Text.isIdentifier b.name = true ∧ Text.isIdentifier b.target = true := by decide
  have hq : ∀ b ∈ q.branches, Text.isIdentifier b.name = true ∧ Text.isIdentifier b.target = true := by decide
  have same : p.render .templated = q.render .templated := rfl
  exact ⟨by decide, hp, hq, same, (render_determines .templated).2 p q hp hq same⟩

end NamedDispatch.Plan
