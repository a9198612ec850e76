/-
Branches as tokens: each is the text that a plan writes for it, and a list of branches is read back from
its tokens. A name is one token; the empty one, which stands where an argument is missing, is none.
-/
import NamedDispatch.Proofs.Expansion.Branch

namespace NamedDispatch

open Token (word literal call Intact)

/-! ## Names as tokens -/

/-- A name, or nothing in the place of one. -/
def IsNameOrEmpty (s : String) : Prop := s = "" ∨ Text.isIdentifier s = true

theorem quoted_ofText {s : String} (h : IsNameOrEmpty s) : Token.quoted (Token.ofText s) = literal s := by
  rcases h with rfl | h
  · rfl
  · rw [Token.ofText_word h]
    simp [Token.quoted, Token.spelling, String.join]

theorem intact_ofText {s : String} (h : IsNameOrEmpty s) : Intact (Token.ofText s) := by
  rcases h with rfl | h
  · exact Token.stays_nil 0
  · rw [Token.ofText_word h]
    exact Token.intact_word s

/-- Nothing of a name is expanded, unless it is that of a macro. -/
theorem plain_ofText {sheet : Sheet} {s : String} (h : s = "" ∨ Text.isIdentifier s = true ∧ sheet.macro? s = none) :
    ∀ t ∈ Token.ofText s, sheet.Plain t := by
  rcases h with rfl | ⟨hi, hm⟩
  · nofun
  · rw [Token.ofText_word hi]
    exact List.forall_mem_singleton.2 hm

theorem ofText_nameOrEmpty {s : String} (h : IsNameOrEmpty s) :
    Token.ofText s = [] ∨ ∃ w, Token.ofText s = [word w] := by
  rcases h with rfl | h
  · exact .inl rfl
  · exact .inr ⟨s, Token.ofText_word h⟩

theorem ofText_inj {s s' : String} (h : IsNameOrEmpty s) (h' : IsNameOrEmpty s')
    (he : Token.ofText s = Token.ofText s') : s = s' := by
  rcases h with rfl | h <;> rcases h' with rfl | h'
  · rfl
  · rw [Token.ofText_word h'] at he
    cases he
  · rw [Token.ofText_word h] at he
    cases he
  · rw [Token.ofText_word h, Token.ofText_word h'] at he
    injection he with hw
    injection hw

/-- What a branch matches and runs are names, or one of them is empty. -/
structure Branch.IsNamed (b : Branch) : Prop where
  name : IsNameOrEmpty b.name
  target : IsNameOrEmpty b.target

/-! ## Branches -/

/-- The tokens of branches, one after the other. -/
def Plan.tokensOf (v : Variant) (bs : List Branch) : List Token :=
  bs.flatMap fun b => Token.ofText (Plan.branchText (Wording.of v) b)

theorem Plan.tokensOf_map {α : Type} (v : Variant) (as : List α) (b : α → Branch) :
    Plan.tokensOf v (as.map b) = as.flatMap fun a => Token.ofText (Plan.branchText (Wording.of v) (b a)) :=
  List.flatMap_map ..

namespace Header

variable {c : Config}

theorem reads_branchText {b : Branch} (hb : b.IsNamed) : Token.Reads (Plan.branchText c.wording b)
    (c.wording.branchTokens b.cached [literal b.name] (Token.ofText b.target)) := by
  have hchars : ∀ d ∈ b.name.toList, Text.isWordChar d = true := by
    rcases hb.name with h | h
    · rw [h]
      nofun
    · exact Text.all_isWordChar_of_isIdentifier h
  have hcode : Token.inCode b.target = true := by
    rcases hb.target with h | h
    · rw [h]
      rfl
    · exact Token.inCode_word h
  have hquoted := Token.reads_quoted hchars
  have := Wording.reads_branch c.variant b.cached (Token.inCode_of_settles hquoted.ended) hcode
  rwa [hquoted.tokens] at this

/-- Branches are read back from their tokens. -/
theorem tokensOf_inj {bs bs' : List Branch} (hb : ∀ b ∈ bs, b.IsNamed) (hb' : ∀ b ∈ bs', b.IsNamed)
    (h : Plan.tokensOf c.variant bs = Plan.tokensOf c.variant bs') : bs = bs' := by
  have hcons (b : Branch) (hb : b.IsNamed) (bs : List Branch) : Plan.tokensOf c.variant (b :: bs) =
      c.wording.branchTokens b.cached [literal b.name] (Token.ofText b.target) ++ Plan.tokensOf c.variant bs := by
    rw [← (reads_branchText hb).tokens]
    rfl
  -- one branch at a time is read off the front of both
  induction bs generalizing bs' with
  | nil =>
    cases bs' with
    | nil => rfl
    | cons b' bs' =>
      rw [hcons b' (hb' b' (List.mem_cons_self ..))] at h
      cases h
  | cons b bs ih =>
    obtain ⟨h1, h2⟩ := List.forall_mem_cons.1 hb
    rw [hcons b h1] at h
    cases bs' with
    | nil => cases h
    | cons b' bs' =>
      obtain ⟨h1', h2'⟩ := List.forall_mem_cons.1 hb'
      rw [hcons b' h1'] at h
      obtain ⟨⟨hc, hn, ht⟩, h⟩ :=
        branchTokens_inj (ofText_nameOrEmpty h1.target) (ofText_nameOrEmpty h1'.target) h
      have he : b = b' := by
        cases b
        cases b'
        cases hc
        cases hn
        cases ofText_inj h1.target h1'.target ht
        rfl
      rw [he, ih h2 h2' h]

/-- The name is empty, or an identifier and not that of a macro. -/
def Free (c : Config) (s : String) : Prop :=
  s = "" ∨ Text.isIdentifier s = true ∧ (build c).sheet.macro? s = none

theorem Free.isNameOrEmpty {s : String} (h : Free c s) : IsNameOrEmpty s := h.imp_right And.left

/-! ## `ATTACH_FUNC` and `ALIAS_FUNC` -/

/-- The body of `ATTACH_FUNC`, filled with a name, is what a plan writes for it. -/
theorem filled_attach_name (cached : Bool) {f : String} (hf : IsNameOrEmpty f) :
    (attachOne c cached).filled [Token.ofText f] = Token.ofText (Plan.branchText c.wording ⟨f, f, cached⟩) := by
  rw [filled_attachOne, quoted_ofText hf, (reads_branchText ⟨hf, hf⟩).tokens]

theorem yields_attach_name (cached : Bool) {f : String} (hf : Free c f) :
    (build c).sheet.Yields (call (c.naming.attach cached) [Token.ofText f])
      (Token.ofText (Plan.branchText c.wording ⟨f, f, cached⟩)) := by
  have h := yields_attach cached (intact_ofText hf.isNameOrEmpty) (plain_ofText hf)
  rw [quoted_ofText hf.isNameOrEmpty] at h
  rwa [(reads_branchText ⟨hf.isNameOrEmpty, hf.isNameOrEmpty⟩).tokens]

theorem yields_alias_name {p : PairPolicy} (hp : c.effectivePairPolicy = some p) (cached : Bool) {f a : String}
    (hf : Free c f) (ha : IsNameOrEmpty a) :
    (build c).sheet.Yields (call (c.naming.singleAlias cached) [Token.ofText f, Token.ofText a])
      (Token.ofText (Plan.branchText c.wording ⟨a, f, cached⟩)) := by
  have h := yields_alias hp cached (intact_ofText hf.isNameOrEmpty) (intact_ofText ha) (plain_ofText hf)
  rw [quoted_ofText ha] at h
  rwa [(reads_branchText ⟨ha, hf.isNameOrEmpty⟩).tokens]

end Header

end NamedDispatch
