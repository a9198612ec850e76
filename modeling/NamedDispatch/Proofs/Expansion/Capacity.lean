/-
How many arguments the macro of an invocation hands its selector. `Group.requiredArity` computes the number from
what the invocation names; it is what arrives, an empty argument included, and a plan passes
`Plan.checkCapacity` just when the `NAME` slot of `GET_MACRO` meets the level for it.
-/
import NamedDispatch.Proofs.Expansion.Plans

namespace NamedDispatch

open Token (word given call names Intact)

/-! ## Selectors that invocations go through -/

namespace Group

/-- Whether the macro of an invocation goes through a selector, as `ATTACH_FUNCS` does and `ATTACH_FUNC` does not. -/
def isMany (g : Group) : Bool :=
  match g.form with
  | .attach _ => false
  | .attachMany _ => true
  | .singleAlias _ _ => false
  | .multiAlias _ _ => true
  | .aliasPairs _ => true

/-- The selector that the macro of an invocation goes through: `FOR_EACH` for `ATTACH_FUNCS`, and `FOR_EACH2`
for `MULTI_ALIAS_FUNC` and `ALIAS_FUNCS`. -/
def selector (g : Group) (h : Header) : Option Selector :=
  match g.form with
  | .attach _ => none
  | .attachMany _ => some h.tables.single
  | .singleAlias _ _ => none
  | .multiAlias _ _ => h.tables.pair
  | .aliasPairs _ => h.tables.pair

/-- Just those invocations need a level. -/
theorem requiredArity_pos_iff {g : Group} : 0 < g.requiredArity ↔ g.isMany = true := by
  obtain ⟨form, cached⟩ := g
  cases form with
  | attach f => exact iff_of_false (Nat.lt_irrefl 0) Bool.false_ne_true
  | singleAlias f a => exact iff_of_false (Nat.lt_irrefl 0) Bool.false_ne_true
  | attachMany fs => exact iff_of_true (show 0 < max _ 2 by omega) rfl
  | multiAlias f as => exact iff_of_true (show 0 < max _ 3 by omega) rfl
  | aliasPairs ps => exact iff_of_true (show 0 < max _ 3 by omega) rfl

theorem isMany_of_selector {g : Group} {h : Header} {selector : Selector} (hs : g.selector h = some selector) :
    g.isMany = true := by
  obtain ⟨form, cached⟩ := g
  cases form with
  | attach f => cases hs
  | attachMany fs => rfl
  | singleAlias f a => cases hs
  | multiAlias f as => rfl
  | aliasPairs ps => rfl

end Group

namespace Header

/-- What the macro of the invocation `g` hands to the selector: the arguments of the first call of it. -/
def handed (h : Header) (g : Group) (selector : Selector) : Option (List (List Token)) :=
  (h.sheet.macro? (g.macroName ⟨h.config.stem⟩)).bind fun m =>
    Token.firstCall (h.sheet.nameOf selector.id) (m.filled ((Group.arguments g.form).map fun a => [given a]))

/-- Called with `args`, the selector has level `k` in the `NAME` slot of `GET_MACRO`, and that level is one of
its candidates. -/
def LandsOn (h : Header) (selector : Selector) (action : List Token) (args : List (List Token)) (k : Nat) : Prop :=
  ∃ place passed i id, h.nameSlot = some place ∧ h.passed selector action args = some passed ∧
    place = 1 + args.length + i ∧ selector.candidates[i]? = some id ∧ h.sheet.levelOf id = some k ∧
    passed[place]? = some [word (h.sheet.nameOf id)]

variable {c : Config}

/-- The selector lists the levels of a ladder of the header from the top down; the number of level 0 is `base`
and the names of the levels are given. -/
structure Chooses (c : Config) (selector : Selector) (base : Nat) (name : Nat → String) : Prop where
  listed : ∃ own refs, (layout c)[selector.id]? =
    some (Selector.listing own c.naming.counter (((List.range (c.top + 1)).map name).reverse) refs)
  candidates : selector.candidates = (⟨List.range' base (c.top + 1)⟩ : Ladder).descending
  levels : (build c).sheet.HasLevels base (c.top + 1)
  named : ∀ k ≤ c.top, (build c).sheet.nameOf (base + k) = name k
  proper : ∀ k, Naming.Proper (name k)

section

variable (hs : Text.isStem c.stem = true)
include hs

theorem chooses_single : Chooses c ⟨counterId c + 1, (singleLadder c).descending⟩ 1 c.naming.level where
  listed := ⟨_, _, layout_table c (i := 1) rfl⟩
  candidates := rfl
  levels := hasLevels_single
  named := fun _ hk => nameOf_single c hk
  proper := Naming.proper_level (n := c.naming) hs

theorem chooses_pair {p : PairPolicy} (hp : c.effectivePairPolicy = some p) :
    Chooses c ⟨counterId c + 2, (doubleLadder c).descending⟩ (c.top + 2) c.naming.pairLevel where
  listed := ⟨_, _, layout_table c (i := 2) (m := forEachPairMacro c) (by rw [tablePart, hp]; rfl)⟩
  candidates := rfl
  levels := hasLevels_pair hp
  named := fun _ hk => nameOf_pair c hp hk
  proper := Naming.proper_pairLevel (n := c.naming) hs

/-- A selector lands on the level for as many arguments as it is given, unless these are more than the ladder
has levels for; then the `NAME` slot falls on one of the arguments. -/
theorem landsOn_iff {selector : Selector} {base : Nat} {name : Nat → String} (hc : Chooses c selector base name)
    (action : List Token) {args : List (List Token)} (ha : args ≠ []) (hw : ∀ a ∈ args, Intact a) :
    (build c).LandsOn selector action args args.length ↔ args.length ≤ c.top := by
  obtain ⟨own, refs, hm⟩ := hc.listed
  have hp := passed_build hs hm (proper_listed hc.proper (c.top + 1)) (by simp) action ha hw
  constructor
  · rintro ⟨place, passed, i, id, hplace, -, hi, -⟩
    rw [nameSlot_build] at hplace
    cases hplace
    omega
  · intro hle
    have hlt := Nat.lt_succ_of_le hle
    refine ⟨c.top + 1, _, c.top - args.length, base + args.length, nameSlot_build, hp, by omega, ?_,
      hc.levels _ hlt, ?_⟩
    · -- from the top down the level stands as many places from the end as it has below it
      rw [hc.candidates, Ladder.descending, List.getElem?_reverse (by rw [List.length_range']; omega),
        List.length_range',
        List.getElem?_range' (by omega)]
      congr 1
      omega
    · rw [getElem?_passed, if_pos hle, hc.named _ hle]

end

/-! ## What is handed on -/

theorem length_padded {n : Nat} {args : List (List Token)} (h : n ≤ args.length) :
    (padded n args).length = max args.length (n + 1) := by
  unfold padded
  split
  · rw [List.length_append, List.length_singleton]
    omega
  · omega

/-- A macro such as `ATTACH_FUNCS` hands on the arguments of the invocation, and an empty one if there are no
more than it names. -/
theorem handed_repeating (g : Group) (selector : Selector) {own one : String} {params : List String}
    {refs : List Nat} {doc : Option String}
    (hm : (build c).sheet.macro? (g.macroName c.naming) =
      some (Registration.repeating (g.macroName c.naming) params own one refs doc))
    (hp : params ∈ oneParams) (hown : Naming.Proper own) (hne : expandName ≠ own) (hone : Naming.Proper one)
    (hn : (build c).sheet.nameOf selector.id = own) (hl : params.length ≤ (Group.arguments g.form).length) :
    ∃ args, (build c).handed g selector = some ([word one] :: args) ∧ (∀ a ∈ args, Intact a) ∧
      args.length = max (Group.arguments g.form).length (params.length + 1) := by
  have hstem : (⟨(build c).config.stem⟩ : Naming) = c.naming := by rw [build_eq]; rfl
  have hgiven : ∀ a ∈ (Group.arguments g.form).map (fun a => [given a]), Intact a :=
    List.forall_mem_map.2 fun a _ => Token.intact_given a
  have hargs : ∀ a ∈ padded params.length ((Group.arguments g.form).map fun a => [given a]), Intact a := by
    unfold padded
    split
    · exact List.forall_mem_append.2 ⟨hgiven, List.forall_mem_singleton.2 (Token.stays_nil 0)⟩
    · exact hgiven
  refine ⟨padded params.length ((Group.arguments g.form).map fun a => [given a]), ?_, hargs, ?_⟩
  · have first := Token.firstCall_within hne (List.cons_ne_nil _ _)
      (List.forall_mem_cons.2 ⟨Token.intact_word one, hargs⟩) []
    rw [List.append_nil] at first
    rw [handed, hstem, hm, Option.bind_some, hn, filled_repeating hp hown hone (by rwa [List.length_map]), first]
  · rw [length_padded (by rwa [List.length_map]), List.length_map]

section

variable (hs : Text.isStem c.stem = true)
include hs

theorem handed_attachMany {g : Group} {fs : List String} (hg : g.form = .attachMany fs) (hlen : 1 ≤ fs.length) :
    ∃ action args, (build c).handed g ⟨counterId c + 1, (singleLadder c).descending⟩ = some (action :: args) ∧
      (∀ a ∈ args, Intact a) ∧ args.length = max fs.length 2 := by
  obtain ⟨form, cached⟩ := g
  cases hg
  obtain ⟨refs, doc, hm⟩ := macro?_attachMany (c := c) cached
  have hne := Naming.append_ne_expandName c.stem (t := "FOR_EACH") (by decide)
  obtain ⟨args, hhanded, hw, hcount⟩ := handed_repeating ⟨.attachMany fs, cached⟩
    ⟨counterId c + 1, (singleLadder c).descending⟩ hm (by decide) (Naming.proper_forEach (n := c.naming) hs)
    hne.symm (Naming.proper_attach (n := c.naming) hs cached) (nameOf_forEach c) hlen
  exact ⟨_, args, hhanded, hw, hcount⟩

theorem handed_aliasMany {p : PairPolicy} (hp : c.effectivePairPolicy = some p) {g : Group}
    (hname : g.macroName c.naming = Registration.aliasManyName c.naming p g.cached)
    (hlen : 2 ≤ (Group.arguments g.form).length) :
    ∃ action args, (build c).handed g ⟨counterId c + 2, (doubleLadder c).descending⟩ = some (action :: args) ∧
      (∀ a ∈ args, Intact a) ∧ args.length = max (Group.arguments g.form).length 3 := by
  obtain ⟨refs, doc, hm⟩ := macro?_aliasMany hp g.cached
  rw [← hname] at hm
  have hne := Naming.append_ne_expandName c.stem (t := "FOR_EACH2") (by decide)
  obtain ⟨args, hhanded, hw, hcount⟩ := handed_repeating g ⟨counterId c + 2, (doubleLadder c).descending⟩
    hm (by decide) (Naming.proper_forEachPair (n := c.naming) hs) hne.symm
    (Naming.proper_singleAlias (n := c.naming) hs g.cached) (nameOf_forEachPair c (by rw [hp]; rfl)) hlen
  exact ⟨_, args, hhanded, hw, hcount⟩

/-- The selector of an invocation is handed `requiredArity` arguments. -/
theorem handed_build {g : Group} (hsup : g.checkSupport c = .ok ()) (hmany : g.isMany = true) :
    ∃ selector base name action args, g.selector (build c) = some selector ∧ Chooses c selector base name ∧
      (build c).handed g selector = some (action :: args) ∧ (∀ a ∈ args, Intact a) ∧
      args.length = g.requiredArity := by
  obtain ⟨hpol, hne⟩ := Group.checkSupport_ok_iff.1 hsup
  have htables : (build c).tables = tablesOf c := by rw [build_eq]
  have hpair {p : PairPolicy} (hp : c.effectivePairPolicy = some p) :
      (build c).tables.pair = some ⟨counterId c + 2, (doubleLadder c).descending⟩ := by
    rw [htables, tablesOf, hp]
    rfl
  obtain ⟨form, cached⟩ := g
  cases form with
  | attach f => cases hmany
  | singleAlias f a => cases hmany
  | attachMany fs =>
    have hlen : 1 ≤ fs.length := by simpa [Group.isEmpty, Nat.one_le_iff_ne_zero] using hne
    obtain ⟨action, args, hhanded, hw, hcount⟩ := handed_attachMany hs (g := ⟨.attachMany fs, cached⟩) rfl hlen
    refine ⟨_, _, _, action, args, ?_, chooses_single hs, hhanded, hw, hcount⟩
    rw [Group.selector, htables]
    rfl
  | multiAlias f as =>
    have hlen : 1 ≤ as.length := by simpa [Group.isEmpty, Nat.one_le_iff_ne_zero] using hne
    have hp : c.effectivePairPolicy = some .holdFirst := beq_iff_eq.1 hpol
    obtain ⟨action, args, hhanded, hw, hcount⟩ :=
      handed_aliasMany hs hp (g := ⟨.multiAlias f as, cached⟩) rfl (Nat.succ_le_succ hlen)
    exact ⟨_, _, _, action, args, hpair hp, chooses_pair hs hp, hhanded, hw, hcount⟩
  | aliasPairs ps =>
    have hlen : 1 ≤ ps.length := by simpa [Group.isEmpty, Nat.one_le_iff_ne_zero] using hne
    have hp : c.effectivePairPolicy = some .advanceBoth := beq_iff_eq.1 hpol
    have hargs : (Group.arguments (.aliasPairs ps)).length = 2 * ps.length := by
      simp [Group.arguments, Nat.mul_comm]
    obtain ⟨action, args, hhanded, hw, hcount⟩ :=
      handed_aliasMany hs hp (g := ⟨.aliasPairs ps, cached⟩) rfl (by rw [hargs]; omega)
    exact ⟨_, _, _, action, args, hpair hp, chooses_pair hs hp, hhanded, hw, by rw [hcount, hargs]; rfl⟩

end

/-- In a plan that passes `checkSupport` every invocation that goes through a selector hands it `requiredArity`
arguments. The plan passes `checkCapacity` exactly when for each of them the `NAME` slot of `GET_MACRO` meets
the level for that many, among those that the selector lists. -/
theorem checkCapacity_iff_landsOn {c : Config} {h : Header} (hg : generate c = .ok h) {p : Plan}
    (hp : p.checkSupport c = .ok ()) :
    (∀ g ∈ p.groups, g.isMany = true → ∃ selector action args, g.selector h = some selector ∧
      h.handed g selector = some (action :: args) ∧ args.length = g.requiredArity) ∧
    (p.checkCapacity c.maxArity.toNat = .ok () ↔ ∀ g ∈ p.groups, ∀ selector action args,
      g.selector h = some selector → h.handed g selector = some (action :: args) →
        h.LandsOn selector action args args.length) := by
  obtain ⟨rfl, hs⟩ := eq_build hg
  have hsup := (forM_ok_iff p.groups).1 hp
  refine ⟨fun g hmem hmany => ?_, ?_⟩
  · obtain ⟨selector, _, _, action, args, hsel, -, hhanded, -, hlen⟩ := handed_build hs (hsup g hmem) hmany
    exact ⟨selector, action, args, hsel, hhanded, hlen⟩
  · rw [Plan.checkCapacity_ok_iff]
    refine forall_congr' fun g => forall_congr' fun hmem => ?_
    by_cases hmany : g.isMany = true
    · obtain ⟨selector, base, name, action, args, hsel, hc, hhanded, hw, hlen⟩ := handed_build hs (hsup g hmem) hmany
      have hne : args ≠ [] := List.ne_nil_of_length_pos (hlen ▸ Group.requiredArity_pos_iff.2 hmany)
      rw [← hlen]
      constructor
      · intro hle selector' action' args' hsel' hhanded'
        cases hsel.symm.trans hsel'
        cases hhanded.symm.trans hhanded'
        exact (landsOn_iff hs hc action hne hw).2 hle
      · intro h
        exact (landsOn_iff hs hc action hne hw).1 (h selector action args hsel hhanded)
    · -- without a selector no level is needed
      have : g.requiredArity = 0 := Nat.eq_zero_of_not_pos fun h => hmany (Group.requiredArity_pos_iff.1 h)
      refine iff_of_true (by omega) ?_
      intro selector action args hsel
      exact absurd (Group.isMany_of_selector hsel) hmany

/-- One pair in `ALIAS_FUNCS` is handed on with an empty argument after it, so that the levels up to
`FE2_2` are too few. -/
theorem checkCapacity_iff_landsOn_pair :
    ∃ selector action args, (build ⟨2, .callback, none, "RPC_"⟩).tables.pair = some selector ∧
      (build ⟨2, .callback, none, "RPC_"⟩).handed ⟨.aliasPairs [("add", "Sum")], false⟩ selector =
        some (action :: args) ∧ args.length = 3 ∧
      ¬∀ selector' action' args', (build ⟨2, .callback, none, "RPC_"⟩).tables.pair = some selector' →
        (build ⟨2, .callback, none, "RPC_"⟩).handed ⟨.aliasPairs [("add", "Sum")], false⟩ selector' =
          some (action' :: args') →
        (build ⟨2, .callback, none, "RPC_"⟩).LandsOn selector' action' args' args'.length := by
  have hg : generate ⟨2, .callback, none, "RPC_"⟩ = .ok (build ⟨2, .callback, none, "RPC_"⟩) := by
    rw [generate_eq]
    rfl
  have hp : Plan.checkSupport ⟨[⟨.aliasPairs [("add", "Sum")], false⟩]⟩ ⟨2, .callback, none, "RPC_"⟩ = .ok () := rfl
  obtain ⟨hands, fits⟩ := checkCapacity_iff_landsOn hg hp
  obtain ⟨selector, action, args, hsel, hhanded, hlen⟩ := hands _ (List.mem_singleton_self _) rfl
  refine ⟨selector, action, args, hsel, hhanded, hlen, fun h => ?_⟩
  have := fits.2 (List.forall_mem_singleton.2 h)
  cases this

end Header

end NamedDispatch
