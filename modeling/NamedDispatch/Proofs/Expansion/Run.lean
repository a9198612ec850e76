/-
Runs of the preprocessor. What tokens expand to is said with any tokens after them, so that the
expansions of parts put together are the expansion of the whole; a run that has nothing left gives the
same tokens whenever enough steps are allowed.
-/
import NamedDispatch.Proofs.Expansion.Call

namespace NamedDispatch.Sheet

open Token (word literal sign given joined call Intact)

/-! ## Several steps -/

/-- Some steps lead from tokens to others, with the given tokens done on the way. -/
inductive Reaches (s : Sheet) : List Token → List Token → List Token → Prop
  | refl (ts : List Token) : Reaches s ts [] ts
  | step {t : Token} {ts done left done' ts' : List Token} (h : s.expandStep (t :: ts) = .ok (done, left))
      (hr : Reaches s left done' ts') : Reaches s (t :: ts) (done ++ done') ts'

/-- The tokens expand to others, whatever stands after them. -/
def Yields (s : Sheet) (ts done : List Token) : Prop := ∀ rest, s.Reaches (ts ++ rest) done rest

section

variable {s : Sheet}

theorem Reaches.trans {ts ts' ts'' done done' : List Token} (h : s.Reaches ts done ts')
    (h' : s.Reaches ts' done' ts'') : s.Reaches ts (done ++ done') ts'' := by
  induction h with
  | refl => exact h'
  | step hs _ ih =>
    rw [List.append_assoc]
    exact .step hs (ih h')

theorem Yields.nil : s.Yields [] [] := fun rest => .refl rest

theorem Yields.append {ts us done done' : List Token} (h : s.Yields ts done) (h' : s.Yields us done') :
    s.Yields (ts ++ us) (done ++ done') := by
  intro rest
  rw [List.append_assoc]
  exact (h (us ++ rest)).trans (h' rest)

theorem Yields.flatMap {α : Type} {as : List α} {f g : α → List Token} (h : ∀ a ∈ as, s.Yields (f a) (g a)) :
    s.Yields (as.flatMap f) (as.flatMap g) := by
  induction as with
  | nil => exact .nil
  | cons a as ih =>
    exact (h a (List.mem_cons_self ..)).append (ih fun b hb => h b (List.mem_cons_of_mem _ hb))

/-! ## Tokens that stay -/

/-- The word is no macro of the sheet. -/
def Plain (s : Sheet) : Token → Prop
  | word w => s.macro? w = none
  | _ => True

theorem Plain.step {t : Token} (h : s.Plain t) (ts : List Token) : s.expandStep (t :: ts) = .ok ([t], ts) := by
  unfold expandStep
  split
  · rename_i heq; cases heq
  · rename_i w us heq
    cases heq
    rw [show s.macro? w = none from h]
  · rename_i heq
    cases heq
    rfl

theorem Plain.yields {t : Token} (h : s.Plain t) : s.Yields [t] [t] := fun rest =>
  .step (h.step rest) (.refl rest)

theorem yields_plain {ts : List Token} (h : ∀ t ∈ ts, s.Plain t) : s.Yields ts ts := by
  induction ts with
  | nil => exact .nil
  | cons t ts ih =>
    exact (h t (List.mem_cons_self ..)).yields.append (ih fun u hu => h u (List.mem_cons_of_mem _ hu))

/-! ## Calls -/

/-- A call of a macro is replaced by its body with the arguments filled in. -/
theorem step_call {name : String} {m : Macro} {args : List (List Token)} (hm : s.macro? name = some m)
    (hne : args ≠ []) (hw : ∀ a ∈ args, Intact a) (ht : m.takes args.length = true) (rest : List Token) :
    s.Reaches (call name args ++ rest) [] (m.filled args ++ rest) := by
  have he : call name args ++ rest = word name :: sign '(' :: (joined args ++ sign ')' :: rest) := by
    simp [call, Token.enclosed]
  have hs : s.expandStep (word name :: sign '(' :: (joined args ++ sign ')' :: rest)) =
      .ok ([], m.filled args ++ rest) := by
    rw [expandStep, hm, Token.arguments_joined hne hw]
    simp only [ht, if_true]
  rw [he]
  exact .step hs (.refl _)

theorem Yields.call {name : String} {m : Macro} {args : List (List Token)} {done : List Token}
    (h : s.Yields (m.filled args) done) (hm : s.macro? name = some m) (hne : args ≠ [])
    (hw : ∀ a ∈ args, Intact a) (ht : m.takes args.length = true) : s.Yields (call name args) done := fun rest =>
  (step_call hm hne hw ht rest).trans (h rest)

/-! ## Runs that end -/

/-- The tokens expand to others and nothing is left: every run of enough steps gives these. -/
def Expands (s : Sheet) (ts done : List Token) : Prop := ∃ n, ∀ k, n ≤ k → s.expand k ts = .ok done

theorem Reaches.expands {ts done ts' : List Token} (h : s.Reaches ts done ts') {done' : List Token}
    (he : s.Expands ts' done') : s.Expands ts (done ++ done') := by
  induction h with
  | refl => exact he
  | step hs _ ih =>
    -- one step more than what is left needs
    obtain ⟨n, hn⟩ := ih he
    refine ⟨n + 1, fun k hk => ?_⟩
    obtain ⟨k, rfl⟩ : ∃ j, k = j + 1 := ⟨k - 1, by omega⟩
    rw [expand, hs]
    show (do return _ ++ (← s.expand k _) : Except ExpansionFault (List Token)) = _
    rw [hn k (by omega), List.append_assoc]
    rfl

theorem Yields.expands {ts done : List Token} (h : s.Yields ts done) : s.Expands ts done := by
  have he : s.Expands [] [] := ⟨0, fun k _ => by cases k <;> rfl⟩
  have := (h []).expands he
  rwa [List.append_nil, List.append_nil] at this

/-- Tokens expand to one list only. -/
theorem Expands.unique {ts done done' : List Token} (h : s.Expands ts done) (h' : s.Expands ts done') :
    done = done' := by
  -- a number of steps that is enough for both
  obtain ⟨n, hn⟩ := h
  obtain ⟨n', hn'⟩ := h'
  have := (hn (max n n') (by omega)).symm.trans (hn' (max n n') (by omega))
  exact Except.ok.inj this

end

end NamedDispatch.Sheet
