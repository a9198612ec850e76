/-
What `ATTACH_FUNCS`, `MULTI_ALIAS_FUNC` and `ALIAS_FUNCS` expand to. Such a macro hands on its named parameters
and then `__VA_ARGS__` to a selector, so that where there are no further arguments an empty one is handed on in
their place.
-/
import NamedDispatch.Proofs.Expansion.Counting

namespace NamedDispatch

open Token (word sign joined enclosed call names Intact)

/-- The arguments that a macro with `n` named parameters hands on: an empty one follows where no others do. -/
def padded (n : Nat) (args : List (List Token)) : List (List Token) :=
  if args.length ≤ n then args ++ [[]] else args

theorem enclosed_further (front : List (List Token)) {named rest : List (List Token)} :
    enclosed (front ++ (named ++ [joined rest])) = enclosed (front ++ padded named.length (named ++ rest)) := by
  cases rest with
  | nil => rw [padded, if_pos (by simp), List.append_nil]; rfl
  | cons a rest =>
    rw [padded, if_neg (by simp), ← List.append_assoc, Token.enclosed_joined _ (List.cons_ne_nil a rest),
      List.append_nil, List.append_assoc]

namespace Header

variable {c : Config}

/-! ## Macros that hand on their arguments -/

/-- The parameters of `ATTACH_FUNC` and of `ALIAS_FUNC`. -/
def oneParams : List (List String) := [["FUNCNAME"], ["FUNCNAME", "FUNC_ALIAS"]]

section

variable {many selector one : String} {params : List String} {refs : List Nat} {doc : Option String}
  (hp : params ∈ oneParams) (hsel : Naming.Proper selector)
  (hone : Naming.Proper one)

include hp hsel hone

theorem reads_repeating : Token.Reads (Registration.repeating many params selector one refs doc).body
    (call expandName [call selector (names (one :: (params ++ [Macro.furtherName])))]) := by
  have hi : ∀ w ∈ one :: (params ++ [Macro.furtherName]), Text.isIdentifier w = true := by
    refine List.forall_mem_cons.2 ⟨hone.1, ?_⟩
    revert params
    decide
  have hb : (Registration.repeating many params selector one refs doc).body = Ladder.expanded
      (selector ++ ("(" ++ (", ".intercalate (one :: (params ++ [Macro.furtherName])) ++ ")"))) := by
    simp only [← String.append_assoc]
    rfl
  have opening : Token.Reads "(" [sign '('] := by decide
  have closing : Token.Reads ")" [sign ')'] := by decide
  have within := opening.append (.commaList_append hi (by decide) closing)
  rw [hb]
  exact (Token.Reads.word_append hsel.1 (Text.startsApart_append (by decide) _) within).expanded

/-- The body of a macro such as `ATTACH_FUNCS` hands its arguments to the selector, after the name of the macro
for one function. -/
theorem filled_repeating {args : List (List Token)} (hl : params.length ≤ args.length) :
    (Registration.repeating many params selector one refs doc).filled args =
      call expandName [call selector ([word one] :: padded params.length args)] := by
  set m := Registration.repeating many params selector one refs doc with hm
  -- the named parameters take as many arguments, the others are further ones
  obtain ⟨named, rest, rfl, hlen⟩ : ∃ named rest, args = named ++ rest ∧ named.length = params.length :=
    ⟨args.take params.length, args.drop params.length, (List.take_append_drop ..).symm, List.length_take_of_le hl⟩
  have hparams : ∀ ps ∈ oneParams, ((ps ++ [Macro.ellipsis]).all fun p => !Naming.isName p) = true := by decide
  have stays {w : String} (h : Naming.isName w = true) : m.value (named ++ rest) w = none :=
    Macro.value_name h (hparams params hp) _
  have first : Token.fill (m.value (named ++ rest)) [word one] = [word one] := Token.fill_word (stays hone.2) []
  have hnamed : (names params).map (Token.fill (m.value (named ++ rest))) = named := by
    simp only [oneParams, List.mem_cons, List.not_mem_nil, or_false] at hp
    rcases hp with rfl | rfl
    · obtain ⟨a, rfl⟩ := List.length_eq_one_iff.1 hlen
      exact congrArg (fun v => [v]) (List.append_nil a)
    · obtain ⟨a, b, rfl⟩ := List.length_eq_two.1 hlen
      exact congrArg₂ (fun u v => [u, v]) (List.append_nil a) (List.append_nil b)
  have hrest : Token.fill (m.value (named ++ rest)) [word Macro.furtherName] = joined rest := by
    have hv : m.isVariadic = true := by simp [hm, Macro.isVariadic, Registration.repeating]
    have hn : m.namedParams = params := by rw [Macro.namedParams, hv, if_pos rfl]; exact List.dropLast_concat
    have : m.value (named ++ rest) Macro.furtherName = some (joined rest) := by
      rw [Macro.value, if_pos rfl, hv, if_pos rfl, hn, ← hlen, List.drop_left]
    exact (Token.fill_param this []).trans (List.append_nil _)
  have all : (names (one :: (params ++ [Macro.furtherName]))).map (Token.fill (m.value (named ++ rest))) =
      [word one] :: (named ++ [joined rest]) := by
    rw [names, List.map_cons, List.map_append, List.map_cons, first, List.map_append]
    exact congrArg₂ (fun u v => [word one] :: (u ++ [v])) hnamed hrest
  rw [Macro.filled, hm, (reads_repeating hp hsel hone).tokens, ← hm, Token.fill_call (stays (by decide)),
    List.map_singleton, Token.fill_call (stays hsel.2), all, call, call, call, call, ← hlen]
  exact congrArg (fun ts => word expandName :: enclosed [word selector :: ts]) (enclosed_further [[word one]])

end

/-- A macro such as `ATTACH_FUNCS` expands to what the selector expands to for the arguments handed on. -/
theorem yields_many {many selector one : String} {params : List String} {refs : List Nat} {doc : Option String}
    (hm : (build c).sheet.macro? many = some (Registration.repeating many params selector one refs doc))
    (hp : params ∈ oneParams) (hsel : Naming.Proper selector)
    (hone : Naming.Proper one) {args : List (List Token)}
    (hl : params.length ≤ args.length) (hw : ∀ a ∈ args, Intact a) {done : List Token}
    (h : (build c).sheet.Yields (call selector ([word one] :: padded params.length args)) done) :
    (build c).sheet.Yields (call many args) done := by
  have hpos : ∀ ps ∈ oneParams, 0 < ps.length := by decide
  have hne : args ≠ [] := List.length_pos_iff.1 (Nat.lt_of_lt_of_le (hpos params hp) hl)
  have handed : ∀ a ∈ [word one] :: padded params.length args, Intact a := by
    refine List.forall_mem_cons.2 ⟨Token.intact_word one, ?_⟩
    unfold padded
    split
    · exact List.forall_mem_append.2 ⟨hw, List.forall_mem_singleton.2 (Token.stays_nil 0)⟩
    · exact hw
  refine Sheet.Yields.call ?_ hm hne hw ?_
  · rw [filled_repeating hp hsel hone hl]
    exact yields_expand (Token.intact_call handed) h
  · simpa [Macro.takes, Macro.isVariadic, Macro.namedParams, Registration.repeating] using hl

theorem yields_forEach (hs : Text.isStem c.stem = true) {action : List Token} (hact : Intact action)
    {args : List (List Token)} (ha : args ≠ []) (hw : ∀ a ∈ args, Intact a) (hk : args.length ≤ c.top)
    {done : List Token}
    (h : (build c).sheet.Yields (call (c.naming.level args.length) (action :: args)) done) :
    (build c).sheet.Yields (call c.naming.forEach (action :: args)) done :=
  yields_selector hs (macro?_build (m := forEachMacro c) (layout_table c (i := 1) rfl) nofun)
    (Naming.proper_level (n := c.naming) hs) hact ha hw hk h

theorem yields_forEachPair (hs : Text.isStem c.stem = true) {p : PairPolicy} (hp : c.effectivePairPolicy = some p)
    {action : List Token} (hact : Intact action) {args : List (List Token)} (ha : args ≠ [])
    (hw : ∀ a ∈ args, Intact a) (hk : args.length ≤ c.top) {done : List Token}
    (h : (build c).sheet.Yields (call (c.naming.pairLevel args.length) (action :: args)) done) :
    (build c).sheet.Yields (call c.naming.forEachPair (action :: args)) done :=
  yields_selector hs
    (macro?_build (m := forEachPairMacro c) (layout_table c (i := 2) (by rw [tablePart, hp]; rfl)) nofun)
    (Naming.proper_pairLevel (n := c.naming) hs)
    hact ha hw hk h

end Header

end NamedDispatch
