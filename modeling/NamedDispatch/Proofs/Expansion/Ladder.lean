/-
What the levels `FE_k` expand to. A level applies its first argument, `WHAT`, to each of the others in order:
it does so to the first of these itself and calls the level below with the rest.
-/
import NamedDispatch.Proofs.Expansion.Run
import NamedDispatch.Proofs.Header.Generated

namespace NamedDispatch

open Token (word sign given joined enclosed call Intact)

/-! ## Words in a body -/

theorem Macro.namedParams_subset (m : Macro) : ∀ p ∈ m.namedParams, p ∈ m.params := by
  intro p hp
  unfold Macro.namedParams at hp
  split at hp
  · exact List.mem_of_mem_dropLast hp
  · exact hp

/-- A word that is no parameter stands for nothing else. -/
theorem Macro.value_eq_none {m : Macro} {w : String} (hf : w ≠ furtherName) (hp : w ∉ m.params)
    (args : List (List Token)) : m.value args w = none := by
  have hn : m.namedParams.idxOf? w = none := by
    rw [List.idxOf?_eq_none_iff]
    exact fun h => hp (m.namedParams_subset w h)
  rw [Macro.value, if_neg hf, hn]
  rfl

/-- Neither does a name in a body whose parameters are no names. -/
theorem Macro.value_name {m : Macro} {w : String} (hw : Naming.isName w = true)
    (hp : (m.params.all fun p => !Naming.isName p) = true) (args : List (List Token)) :
    m.value args w = none := by
  refine Macro.value_eq_none ?_ ?_ args
  · rintro rfl
    exact absurd hw (by decide)
  · intro h
    have := List.all_eq_true.1 hp w h
    rw [hw] at this
    cases this

theorem Token.Reads.expanded {text : String} {ts : List Token} (h : Token.Reads text ts) :
    Token.Reads (Ladder.expanded text) (call expandName [ts]) := by
  have opening : Token.Reads (expandName ++ "(") [word expandName, sign '('] := by decide
  have closing : Token.Reads ")" [sign ')'] := by decide
  exact (opening.append h).append closing

namespace Header

variable {c : Config}

/-! ## Macros of a header -/

theorem macro?_build {id : Nat} {m : Macro} (h : (layout c)[id]? = some m) (hr : m.role ≠ .headerFunc) :
    (build c).sheet.macro? m.name = some m := by
  rw [Sheet.macro?, lookup_build c h hr, Option.bind_some, ← Array.getElem?_toList, toList_build, h]

theorem macro?_eq_none {w : String} (hw : Naming.isName w = false) : (build c).sheet.macro? w = none := by
  rw [Sheet.macro?, lookup_build_eq_none c hw]
  rfl

theorem macro?_expand : (build c).sheet.macro? expandName = some Ladder.expandMacro :=
  macro?_build (layout_expand c) (by decide)

theorem macro?_level {k : Nat} (hk : k ≤ c.top) :
    (build c).sheet.macro? (c.naming.level k) = some (Ladder.single c.naming 0 1 k) := by
  rw [← single_name c.naming 0 1 k]
  refine macro?_build (layout_single c hk) ?_
  match k with
  | 0 | 1 | _ + 2 => nofun

/-- A call of `EXPAND` only makes its argument be read again. -/
theorem yields_expand {ts done : List Token} (hw : Intact ts) (h : (build c).sheet.Yields ts done) :
    (build c).sheet.Yields (call expandName [ts]) done := by
  have hf : Ladder.expandMacro.filled [ts] = ts := by
    show Token.fill (Ladder.expandMacro.value [ts]) (Token.ofText "x") = ts
    rw [show Token.ofText "x" = [word "x"] by decide, Token.fill_param (v := ts) rfl]
    exact List.append_nil ts
  rw [← hf] at h
  exact h.call macro?_expand (by simp) (by simpa using hw) rfl

/-! ## The levels `FE_k` -/

section

variable (hs : Text.isStem c.stem = true)

theorem filled_level_one (what a : List Token) :
    (Ladder.single c.naming 0 1 1).filled [what, a] = what ++ enclosed [a] := by
  show Token.fill _ (Token.ofText "WHAT(X)") = _
  rw [show Token.ofText "WHAT(X)" = call "WHAT" [[word "X"]] ++ [] by decide, Token.fill_applied (v := what) rfl,
    List.map_singleton, Token.fill_param (v := a) rfl, Token.fill_nil, List.append_nil, List.append_nil]

include hs

/-- The body of `FE_k` from level 2 on: an application of `WHAT` and a call of the level below. -/
theorem reads_single (k : Nat) : Token.Reads (Ladder.single c.naming 0 1 (k + 2)).body
    (call expandName [call "WHAT" [[word "X"]] ++
      call (c.naming.level (k + 1)) [[word "WHAT"], [word Macro.furtherName]]]) := by
  have hl := (Naming.proper_level (n := c.naming) hs (k + 1)).identifier
  have hb : (Ladder.single c.naming 0 1 (k + 2)).body =
      Ladder.expanded ("WHAT(X)" ++ (c.naming.level (k + 1) ++ "(WHAT, __VA_ARGS__)")) := by
    rw [← String.append_assoc]
    rfl
  have applied : Token.Reads "WHAT(X)" (call "WHAT" [[word "X"]]) := by decide
  rw [hb]
  exact (applied.append (.word_append hl (by decide) (by decide))).expanded

theorem filled_single (k : Nat) (what a : List Token) {rest : List (List Token)} (hne : rest ≠ []) :
    (Ladder.single c.naming 0 1 (k + 2)).filled (what :: a :: rest) =
      call expandName [what ++ enclosed [a] ++ call (c.naming.level (k + 1)) (what :: rest)] := by
  have hexp : (Ladder.single c.naming 0 1 (k + 2)).value (what :: a :: rest) expandName = none :=
    Macro.value_name (by decide) rfl _
  have hlvl : (Ladder.single c.naming 0 1 (k + 2)).value (what :: a :: rest) (c.naming.level (k + 1)) = none :=
    Macro.value_name (Naming.proper_level (n := c.naming) hs (k + 1)).name rfl _
  rw [Macro.filled, (reads_single hs k).tokens, Token.fill_call hexp, List.map_singleton,
    Token.fill_applied (v := what) rfl, Token.fill_call hlvl]
  simp only [List.map_cons, List.map_nil]
  rw [Token.fill_param (v := a) rfl, Token.fill_param (v := what) rfl, Token.fill_param (v := joined rest) rfl,
    Token.fill_nil, List.append_nil, List.append_nil, List.append_nil]
  have := Token.enclosed_joined [what] hne []
  rw [List.append_nil] at this
  rw [call, call, call, show [what, joined rest] = [what] ++ [joined rest] from rfl, this]
  rfl

/-- Level `FE_k` applies `WHAT` to each of the other arguments in order. -/
theorem yields_level {α : Type} {arg f : α → List Token} {what : List Token} (hw : Intact what) (as : List α)
    (hk : as.length ≤ c.top) (ha : ∀ a ∈ as, Intact (arg a))
    (hf : ∀ a ∈ as, (build c).sheet.Yields (what ++ enclosed [arg a]) (f a)) :
    (build c).sheet.Yields (call (c.naming.level as.length) (what :: as.map arg)) (as.flatMap f) := by
  have whole {bs : List α} (h : ∀ b ∈ bs, Intact (arg b)) : ∀ b ∈ what :: bs.map arg, Intact b :=
    List.forall_mem_cons.2 ⟨hw, List.forall_mem_map.2 h⟩
  -- level 0 gives nothing, level 1 is the application alone, and any other goes on one lower
  induction as with
  | nil => exact Sheet.Yields.call .nil (macro?_level hk) (by simp) (whole nofun) rfl
  | cons a as ih =>
    have first := hf a (List.mem_cons_self ..)
    obtain ⟨ha1, ha2⟩ := List.forall_mem_cons.1 ha
    cases as with
    | nil =>
      rw [List.flatMap_singleton]
      refine Sheet.Yields.call ?_ (macro?_level hk) (by simp) (whole ha) rfl
      rw [List.length_singleton, List.map_singleton, filled_level_one]
      exact first
    | cons b as =>
      have below := ih (Nat.le_of_succ_le hk) ha2 fun x hx => hf x (List.mem_cons_of_mem _ hx)
      refine Sheet.Yields.call ?_ (macro?_level hk) (by simp) (whole ha) ?_
      · rw [List.length_cons, List.length_cons, List.map_cons, filled_single hs _ _ _ (by simp), List.flatMap_cons]
        refine yields_expand ?_ (first.append below)
        -- the application and the call below make one argument of the macro around them
        have applied : Intact (what ++ enclosed [arg a]) := hw.append (ha1.mono (Nat.zero_le 1)).enclosed
        exact applied.append (Token.intact_call (whole ha2))
      · simp [Macro.takes, Macro.isVariadic, Macro.namedParams, Ladder.single, Macro.ellipsis]

end

/-- In a generated header `FE_k` called with `k` arguments expands to the applications of `WHAT` to each of them, in
order and once each. No call on the way has a number of arguments that is not taken, since that would be a fault. -/
theorem level_expands {c : Config} {h : Header} (hg : generate c = .ok h) (what : String) (args : List String)
    {k : Nat} (hk : k ≤ c.maxArity.toNat) (hl : args.length = k) :
    h.sheet.Expands (call (c.naming.level k) ([given what] :: args.map fun a => [given a]))
      (args.flatMap fun a => [given what, sign '(', given a, sign ')']) := by
  obtain ⟨rfl, hs⟩ := eq_build hg
  subst hl
  refine (yields_level hs (Token.intact_given what) args hk (fun a _ => Token.intact_given a) fun a _ => ?_).expands
  refine Sheet.yields_plain fun t ht => ?_
  simp only [enclosed, joined, List.cons_append, List.nil_append, List.mem_cons, List.not_mem_nil, or_false] at ht
  rcases ht with rfl | rfl | rfl | rfl <;> trivial

theorem level_expands_two :
    (build ⟨3, .classic, none, "RPC_"⟩).sheet.Expands
      (call "RPC_FE_2" [[given "w"], [given "a"], [given "b"]])
      [given "w", sign '(', given "a", sign ')', given "w", sign '(', given "b", sign ')'] :=
  level_expands (c := ⟨3, .classic, none, "RPC_"⟩) (by rw [generate_eq]; rfl) "w" ["a", "b"] (k := 2)
    (by decide) rfl

end Header

end NamedDispatch
