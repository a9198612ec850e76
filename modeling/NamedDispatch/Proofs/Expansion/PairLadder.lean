/-
What the levels `FE2_k` expand to. A level applies its first argument, `WHAT`, to the next two and goes on as
the policy says: under `holdFirst` the first of the two is kept and comes together with every argument after
it, under `advanceBoth` both are dropped and the next pair of neighbours comes.
-/
import NamedDispatch.Proofs.Expansion.Ladder

namespace NamedDispatch

open Token (word sign given joined enclosed call Intact)

/-- The arguments two by two; a last one that has no partner is left out. -/
def pairsOf {α : Type} : List α → List (α × α)
  | a :: b :: rest => (a, b) :: pairsOf rest
  | _ => []

/-- The pairs that a level `FE2_k` applies `WHAT` to: the first argument with each of the others, or each pair
of neighbours. -/
def PairPolicy.pairs {α : Type} : PairPolicy → List α → List (α × α)
  | .holdFirst, [] => []
  | .holdFirst, x :: as => as.map fun a => (x, a)
  | .advanceBoth, as => pairsOf as

/-- Fewer than two arguments make no pair. -/
theorem PairPolicy.pairs_eq_nil {α : Type} (p : PairPolicy) {as : List α} (h : as.length ≤ 1) : p.pairs as = [] := by
  match p, as with
  | .holdFirst, [] | .holdFirst, [_] => rfl
  | .advanceBoth, [] | .advanceBoth, [_] => rfl

namespace Ladder

/-- What a level `FE2_k` hands on, as tokens. -/
def forwardedTokens : PairPolicy → List (List Token)
  | .holdFirst => [[word "WHAT"], [word "X"], [word Macro.furtherName]]
  | .advanceBoth => [[word "WHAT"], [word Macro.furtherName]]

/-- The arguments that a level `FE2_k` calls the lower one with. -/
def below (p : PairPolicy) (what x : List Token) (rest : List (List Token)) : List (List Token) :=
  match p with
  | .holdFirst => what :: x :: rest
  | .advanceBoth => what :: rest

end Ladder

namespace Header

variable {c : Config} {p : PairPolicy}

theorem macro?_pairLevel (hp : c.effectivePairPolicy = some p) {k : Nat} (hk : k ≤ c.top) :
    (build c).sheet.macro? (c.naming.pairLevel k) = some (Ladder.pair c.naming p 0 (c.top + 2) k) := by
  rw [← pair_name c.naming p 0 (c.top + 2) k]
  refine macro?_build (layout_pair c hp hk) ?_
  match k with
  | 0 | 1 | 2 | _ + 3 => nofun

/-! ## Bodies -/

theorem filled_pair_two (base : Nat) (what x y : List Token) :
    (Ladder.pair c.naming p 0 base 2).filled [what, x, y] = what ++ enclosed [x, y] := by
  show Token.fill _ (Token.ofText "WHAT(X, Y)") = _
  rw [show Token.ofText "WHAT(X, Y)" = call "WHAT" [[word "X"], [word "Y"]] ++ [] by decide,
    Token.fill_applied (v := what) rfl]
  simp only [List.map_cons, List.map_nil]
  rw [Token.fill_param (v := x) rfl, Token.fill_param (v := y) rfl, Token.fill_nil, List.append_nil,
    List.append_nil, List.append_nil]

section

variable (hs : Text.isStem c.stem = true)
include hs

/-- The body of `FE2_k` from level 3 on: an application of `WHAT` and a call of a lower level. -/
theorem reads_pair (base k : Nat) : Token.Reads (Ladder.pair c.naming p 0 base (k + 3)).body
    (call expandName [call "WHAT" [[word "X"], [word "Y"]] ++
      call (c.naming.pairLevel (k + 3 - p.step)) (Ladder.forwardedTokens p)]) := by
  have hl := (Naming.proper_pairLevel (n := c.naming) hs (k + 3 - p.step)).identifier
  have hb : (Ladder.pair c.naming p 0 base (k + 3)).body = Ladder.expanded ("WHAT(X, Y)" ++
      (c.naming.pairLevel (k + 3 - p.step) ++ ("(" ++ (Ladder.forwarded p ++ ")")))) := by
    simp only [← String.append_assoc]
    rfl
  have applied : Token.Reads "WHAT(X, Y)" (call "WHAT" [[word "X"], [word "Y"]]) := by decide
  have forwarded : Token.Reads ("(" ++ (Ladder.forwarded p ++ ")")) (enclosed (Ladder.forwardedTokens p)) := by
    cases p <;> decide
  rw [hb]
  exact (applied.append (.word_append hl (Text.startsApart_append (by decide) _) forwarded)).expanded

theorem filled_pair (base k : Nat) (what x y : List Token) {rest : List (List Token)} (hne : rest ≠ []) :
    (Ladder.pair c.naming p 0 base (k + 3)).filled (what :: x :: y :: rest) =
      call expandName [what ++ enclosed [x, y] ++
        call (c.naming.pairLevel (k + 3 - p.step)) (Ladder.below p what x rest)] := by
  set m := Ladder.pair c.naming p 0 base (k + 3) with hm
  have stays {w : String} (h : Naming.isName w = true) : m.value (what :: x :: y :: rest) w = none :=
    Macro.value_name h rfl _
  have single {w : String} {v : List Token} (h : m.value (what :: x :: y :: rest) w = some v) :
      Token.fill (m.value (what :: x :: y :: rest)) [word w] = v :=
    (Token.fill_param h []).trans (List.append_nil _)
  have hwhat := single (w := "WHAT") (v := what) rfl
  have hx := single (w := "X") (v := x) rfl
  have hy := single (w := "Y") (v := y) rfl
  have hrest := single (w := Macro.furtherName) (v := joined rest) rfl
  have further : call (c.naming.pairLevel (k + 3 - p.step))
      ((Ladder.forwardedTokens p).map (Token.fill (m.value (what :: x :: y :: rest)))) =
        call (c.naming.pairLevel (k + 3 - p.step)) (Ladder.below p what x rest) := by
    cases p with
    | holdFirst =>
      have := Token.enclosed_joined [what, x] hne []
      rw [List.append_nil] at this
      simp only [Ladder.forwardedTokens, Ladder.below, List.map_cons, List.map_nil, hwhat, hx, hrest]
      exact congrArg (word _ :: ·) this
    | advanceBoth =>
      have := Token.enclosed_joined [what] hne []
      rw [List.append_nil] at this
      simp only [Ladder.forwardedTokens, Ladder.below, List.map_cons, List.map_nil, hwhat, hrest]
      exact congrArg (word _ :: ·) this
  rw [Macro.filled, hm, (reads_pair hs base k).tokens, ← hm, Token.fill_call (stays (by decide)), List.map_singleton,
    Token.fill_applied (v := what) rfl, Token.fill_call (stays (Naming.proper_pairLevel (n := c.naming) hs _).name),
    further]
  simp only [List.map_cons, List.map_nil, hx, hy]

/-! ## The levels `FE2_k` -/

/-- One level: `WHAT` applied to the first two arguments, then what the lower level gives. -/
theorem yields_pair_step (hp : c.effectivePairPolicy = some p) {what x y : List Token} {rest : List (List Token)}
    {k : Nat} {done done' : List Token} (hk : k + 3 ≤ c.top) (hne : rest ≠ []) (hw : Intact what) (hx : Intact x)
    (hy : Intact y) (hr : ∀ a ∈ rest, Intact a)
    (first : (build c).sheet.Yields (what ++ enclosed [x, y]) done)
    (next : (build c).sheet.Yields
      (call (c.naming.pairLevel (k + 3 - p.step)) (Ladder.below p what x rest)) done') :
    (build c).sheet.Yields (call (c.naming.pairLevel (k + 3)) (what :: x :: y :: rest)) (done ++ done') := by
  have all : ∀ a ∈ what :: x :: y :: rest, Intact a := by simp [hw, hx, hy]; exact hr
  have lower : ∀ a ∈ Ladder.below p what x rest, Intact a := by
    cases p <;> simp [Ladder.below, hw, hx] <;> exact hr
  have applied : Intact (what ++ enclosed [x, y]) :=
    hw.append (Token.stays_joined (by simp [hx, hy])).enclosed
  refine Sheet.Yields.call ?_ (macro?_pairLevel hp hk) (by simp) all ?_
  · rw [filled_pair hs _ _ _ _ _ hne]
    exact yields_expand (applied.append (Token.intact_call lower)) (first.append next)
  · simp [Macro.takes, Macro.isVariadic, Macro.namedParams, Ladder.pair, Macro.ellipsis]

omit hs in
theorem yields_pair_two (hp : c.effectivePairPolicy = some p) {what x y : List Token} {done : List Token}
    (hk : 2 ≤ c.top) (hw : Intact what) (hx : Intact x) (hy : Intact y)
    (h : (build c).sheet.Yields (what ++ enclosed [x, y]) done) :
    (build c).sheet.Yields (call (c.naming.pairLevel 2) [what, x, y]) done := by
  refine Sheet.Yields.call ?_ (macro?_pairLevel hp hk) (by simp) (by simp [hw, hx, hy]) rfl
  rw [filled_pair_two]
  exact h

omit hs in
/-- The two lowest levels, `FE2_0` and `FE2_1`, expand to nothing. -/
theorem yields_pair_low (hp : c.effectivePairPolicy = some p) {what : List Token} (args : List (List Token))
    (hl : args.length ≤ 1) (hk : args.length ≤ c.top) (hw : Intact what) (ha : ∀ a ∈ args, Intact a) :
    (build c).sheet.Yields (call (c.naming.pairLevel args.length) (what :: args)) [] := by
  have all : ∀ a ∈ what :: args, Intact a := List.forall_mem_cons.2 ⟨hw, ha⟩
  match args with
  | [] => exact Sheet.Yields.call .nil (macro?_pairLevel hp hk) (by simp) all rfl
  | [a] => exact Sheet.Yields.call .nil (macro?_pairLevel hp hk) (by simp) all rfl

/-- Under `holdFirst` a level applies `WHAT` to its first argument and each of the others. -/
theorem yields_holdFirst (hp : c.effectivePairPolicy = some .holdFirst) {α : Type} {arg f : α → List Token}
    {what x : List Token} (hw : Intact what) (hx : Intact x) (as : List α) (hk : as.length + 1 ≤ c.top)
    (ha : ∀ a ∈ as, Intact (arg a))
    (hf : ∀ a ∈ as, (build c).sheet.Yields (what ++ enclosed [x, arg a]) (f a)) :
    (build c).sheet.Yields (call (c.naming.pairLevel (as.length + 1)) (what :: x :: as.map arg))
      (as.flatMap f) := by
  -- one argument is dropped at each level, so on the arguments beside the one that is held
  induction as with
  | nil => exact yields_pair_low hp [x] (Nat.le_refl 1) hk hw (by simpa using hx)
  | cons a as ih =>
    have first := hf a (List.mem_cons_self ..)
    obtain ⟨ha1, ha2⟩ := List.forall_mem_cons.1 ha
    cases as with
    | nil =>
      rw [List.flatMap_singleton]
      exact yields_pair_two hp hk hw hx ha1 first
    | cons b as =>
      have next := ih (Nat.le_of_succ_le hk) ha2 fun y hy => hf y (List.mem_cons_of_mem _ hy)
      exact yields_pair_step hs hp hk (List.cons_ne_nil _ _) hw hx ha1 (List.forall_mem_map.2 ha2) first next

/-- Under `advanceBoth` a level applies `WHAT` to the pairs of neighbours. -/
theorem yields_advanceBoth (hp : c.effectivePairPolicy = some .advanceBoth) {α : Type} {arg : α → List Token}
    {f : α × α → List Token} {what : List Token} (hw : Intact what) : ∀ (as : List α), as.length ≤ c.top →
      (∀ a ∈ as, Intact (arg a)) →
      (∀ q ∈ pairsOf as, (build c).sheet.Yields (what ++ enclosed [arg q.1, arg q.2]) (f q)) →
      (build c).sheet.Yields (call (c.naming.pairLevel as.length) (what :: as.map arg)) ((pairsOf as).flatMap f)
  | [], hk, _, _ => yields_pair_low hp [] (Nat.zero_le 1) hk hw nofun
  | [x], hk, ha, _ => yields_pair_low hp [arg x] (Nat.le_refl 1) hk hw (List.forall_mem_map.2 ha)
  | [x, y], hk, ha, hf => by
    change (build c).sheet.Yields _ ([(x, y)].flatMap f)
    rw [List.flatMap_singleton]
    exact yields_pair_two hp hk hw (ha x (by simp)) (ha y (by simp)) (hf (x, y) (by simp [pairsOf]))
  | x :: y :: z :: rest, hk, ha, hf => by
    rw [pairsOf, List.forall_mem_cons] at hf
    have hr : ∀ a ∈ z :: rest, Intact (arg a) := fun a h => ha a (by simp only [List.mem_cons] at h ⊢; tauto)
    -- the level below has the place of the arguments from the third on
    have next := yields_advanceBoth hp hw (z :: rest) (Nat.le_of_succ_le (Nat.le_of_succ_le hk)) hr hf.2
    rw [pairsOf, List.flatMap_cons]
    exact yields_pair_step hs hp hk (List.cons_ne_nil _ _) hw (ha x (by simp)) (ha y (by simp))
      (List.forall_mem_map.2 hr) hf.1 next

/-- Under either policy a level applies `WHAT` to the pairs that the policy makes of its arguments. -/
theorem yields_pairLevel (hp : c.effectivePairPolicy = some p) {α : Type} {arg : α → List Token}
    {f : α × α → List Token} {what : List Token} (hw : Intact what) (as : List α) (hk : as.length ≤ c.top)
    (ha : ∀ a ∈ as, Intact (arg a))
    (hf : ∀ q ∈ p.pairs as, (build c).sheet.Yields (what ++ enclosed [arg q.1, arg q.2]) (f q)) :
    (build c).sheet.Yields (call (c.naming.pairLevel as.length) (what :: as.map arg)) ((p.pairs as).flatMap f) := by
  cases p with
  | advanceBoth => exact yields_advanceBoth hs hp hw as hk ha hf
  | holdFirst =>
    cases as with
    | nil => exact yields_pair_low hp [] (Nat.zero_le 1) hk hw nofun
    | cons x as =>
      obtain ⟨hx, hr⟩ := List.forall_mem_cons.1 ha
      rw [PairPolicy.pairs, List.flatMap_map]
      exact yields_holdFirst hs hp hw hx as hk hr fun a h => hf (x, a) (List.mem_map_of_mem h)

end

/-- In a generated header `FE2_k` called with `k` arguments expands to the applications of `WHAT` to the pairs
that the policy makes of them, in order; `FE2_0` and `FE2_1` expand to nothing. No call on the way has a number
of arguments that is not taken, since that would be a fault. -/
theorem pairLevel_expands {c : Config} {h : Header} {p : PairPolicy} (hg : generate c = .ok h)
    (hp : c.effectivePairPolicy = some p) (what : String) (args : List String) {k : Nat}
    (hk : k ≤ c.maxArity.toNat) (hl : args.length = k) :
    h.sheet.Expands (call (c.naming.pairLevel k) ([given what] :: args.map fun a => [given a]))
      ((p.pairs args).flatMap fun q => [given what, sign '(', given q.1, sign ',', given q.2, sign ')']) ∧
    (k ≤ 1 →
      h.sheet.Expands (call (c.naming.pairLevel k) ([given what] :: args.map fun a => [given a])) []) := by
  obtain ⟨rfl, hs⟩ := eq_build hg
  subst hl
  have whole : (build c).sheet.Expands
      (call (c.naming.pairLevel args.length) ([given what] :: args.map fun a => [given a]))
      ((p.pairs args).flatMap fun q => [given what, sign '(', given q.1, sign ',', given q.2, sign ')']) := by
    refine (yields_pairLevel hs hp (Token.intact_given what) args hk (fun a _ => Token.intact_given a)
      fun q _ => ?_).expands
    refine Sheet.yields_plain fun t ht => ?_
    simp only [enclosed, joined, List.cons_append, List.nil_append, List.mem_cons, List.not_mem_nil, or_false] at ht
    rcases ht with rfl | rfl | rfl | rfl | rfl | rfl <;> trivial
  refine ⟨whole, fun hlow => ?_⟩
  rwa [p.pairs_eq_nil hlow] at whole

theorem pairLevel_expands_five :
    (build ⟨5, .callback, none, "RPC_"⟩).sheet.Expands
      (call "RPC_FE2_5" [[given "w"], [given "f"], [given "a"], [given "g"], [given "b"], [given "h"]])
      [given "w", sign '(', given "f", sign ',', given "a", sign ')',
        given "w", sign '(', given "g", sign ',', given "b", sign ')'] :=
  (pairLevel_expands (c := ⟨5, .callback, none, "RPC_"⟩) (by rw [generate_eq]; rfl) rfl "w" ["f", "a", "g", "b", "h"]
    (k := 5) (by decide) rfl).1

end Header

end NamedDispatch
