/-
`Header.audit` accepts every header that is built with a legal stem: its stages keep the sheet in order, and its
ladders, `GET_MACRO` and selectors fit one another. So `generate` gives a header for every configuration whose
greatest number of arguments and stem are legal.
-/
import NamedDispatch.Proofs.Header.Contents
import NamedDispatch.Proofs.Header.Order

namespace NamedDispatch

open Naming (mentions isName)

namespace Header

variable {c : Config}

/-! ## Names by number -/

section

variable (c)

theorem nameOf_build {id : Nat} {m : Macro} (h : (layout c)[id]? = some m) :
    (build c).sheet.nameOf id = m.name := Sheet.nameOf_eq (toList_build c ▸ h)

theorem nameOf_single {k : Nat} (hk : k ≤ c.top) : (build c).sheet.nameOf (1 + k) = c.naming.level k := by
  rw [nameOf_build c (layout_single c hk), single_name]

theorem nameOf_pair {p : PairPolicy} (hp : c.effectivePairPolicy = some p) {k : Nat} (hk : k ≤ c.top) :
    (build c).sheet.nameOf (c.top + 2 + k) = c.naming.pairLevel k := by
  rw [nameOf_build c (layout_pair c hp hk), pair_name]

theorem nameOf_counter : (build c).sheet.nameOf (counterId c) = c.naming.counter :=
  nameOf_build c (layout_table c (i := 0) rfl)

theorem nameOf_forEach : (build c).sheet.nameOf (counterId c + 1) = c.naming.forEach :=
  nameOf_build c (layout_table c (i := 1) rfl)

theorem nameOf_forEachPair (hp : c.effectivePairPolicy.isSome = true) :
    (build c).sheet.nameOf (counterId c + 2) = c.naming.forEachPair :=
  nameOf_build c (layout_table c (i := 2) (m := forEachPairMacro c) (by rw [tablePart, if_pos hp]; rfl))

theorem named_build {id : Nat} {m : Macro} (h : (layout c)[id]? = some m) :
    (build c).sheet.Named id m.name := ⟨m, toList_build c ▸ h, rfl⟩

theorem descending_single : (singleLadder c).descending.map (build c).sheet.nameOf =
    ((List.range (c.top + 1)).map c.naming.level).reverse :=
  Sheet.descending_nameOf fun k hk =>
    single_name c.naming 0 1 k ▸ named_build c (layout_single c (Nat.le_of_lt_succ hk))

theorem descending_double {p : PairPolicy} (hp : c.effectivePairPolicy = some p) :
    (doubleLadder c).descending.map (build c).sheet.nameOf =
      ((List.range (c.top + 1)).map c.naming.pairLevel).reverse :=
  Sheet.descending_nameOf fun k hk =>
    pair_name c.naming p 0 (c.top + 2) k ▸ named_build c (layout_pair c hp (Nat.le_of_lt_succ hk))

end

/-! ## Order -/

theorem extends_opening (w : Wording) : Sheet.empty.Extends (opening w) := by
  have pragma : Sheet.empty.Extends (Sheet.empty.directive "#pragma once").blank :=
    (Sheet.extends_directive _ _).trans (Sheet.extends_blank _)
  unfold opening
  split
  · exact pragma.trans (Sheet.extends_directive _ _)
  · exact pragma

theorem extends_emitPair {s : Sheet} {n : Naming} (hs : Text.isStem n.stem = true) {expand : Nat}
    (he : s.Named expand expandName) (top : Nat) (policy : Option PairPolicy) :
    s.Extends (emitPair s n expand top policy).2 := by
  cases policy with
  | none => exact .refl s
  | some p => exact (Sheet.extends_emitPairLadder hs he p top).trans (Sheet.extends_blank _)

theorem namedLevels_emitPair (s : Sheet) (n : Naming) (expand top : Nat) (policy : Option PairPolicy) :
    ∀ l, (emitPair s n expand top policy).1.map (·.2) = some l →
      (emitPair s n expand top policy).2.NamedLevels l n.pairLevel := by
  cases policy with
  | none => nofun
  | some p =>
    rintro l ⟨⟩
    exact (Sheet.extends_blank _).namedLevels (Sheet.namedLevels_emitPairLadder s n p expand top)

theorem extends_betweenParts (s : Sheet) (n : Naming) (w : Wording) : s.Extends (betweenParts s n w) := by
  unfold betweenParts
  split
  · exact ((((Sheet.extends_directive s _).trans (Sheet.extends_blank _)).trans (Sheet.extends_emitHeaderFunc n)).trans
      (Sheet.extends_blank _)).trans (Sheet.extends_directive _ _)
  · exact .refl s

theorem extends_closing (s : Sheet) (w : Wording) : s.Extends (closing s w) := by
  unfold closing
  split
  · exact Sheet.extends_directive s _
  · exact .refl s

/-- In a header with a legal stem every macro comes after what it uses. -/
theorem ordered_build (hs : Text.isStem c.stem = true) : (build c).sheet.Ordered := by
  have hs : Text.isStem c.naming.stem = true := hs
  -- the sheets after the stages, each with what the next one refers to
  set first := ((opening c.wording).emitExpand.2).blank with hfirst
  have opened : Sheet.empty.Extends first :=
    ((extends_opening _).trans (Sheet.extends_emitExpand _)).trans (Sheet.extends_blank _)
  have expand : first.Named (opening c.wording).size expandName :=
    (Sheet.extends_blank _).named (Sheet.named_emit _ Ladder.expandMacro)
  set ladder := first.emitLadder c.naming (opening c.wording).size c.top with hladder
  have singles : first.Extends ladder.2.blank :=
    (Sheet.extends_emitLadder hs expand c.top).trans (Sheet.extends_blank _)
  have levels : ladder.2.blank.NamedLevels ladder.1 c.naming.level :=
    (Sheet.extends_blank _).namedLevels (Sheet.namedLevels_emitLadder first c.naming _ c.top)
  set pair := emitPair ladder.2.blank c.naming (opening c.wording).size c.top c.effectivePairPolicy with hpair
  have pairs : ladder.2.blank.Extends pair.2 := extends_emitPair hs (singles.named expand) c.top _
  have pairLevels := namedLevels_emitPair ladder.2.blank c.naming (opening c.wording).size c.top c.effectivePairPolicy
  set tables := pair.2.emitTables c.naming (opening c.wording).size c.top ladder.1 (pair.1.map (·.2)) with htables
  have expand := pairs.named (singles.named expand)
  have table : pair.2.Extends tables.2 :=
    Sheet.extends_emitTables hs expand (pairs.namedLevels levels) pairLevels c.top
  obtain ⟨forEach, forEachPair⟩ :=
    Sheet.named_emitTables pair.2 c.naming (opening c.wording).size c.top ladder.1 (pair.1.map (·.2))
  have between : tables.2.Extends (betweenParts tables.2.blank c.naming c.wording) :=
    (Sheet.extends_blank _).trans (extends_betweenParts _ _ _)
  have registration := Sheet.extends_emitRegistration hs c.variant (between.named (table.named expand))
    (between.named forEach) (fun selector h => between.named (forEachPair selector h)) c.effectivePairPolicy
  have all := ((((opened.trans singles).trans pairs).trans table).trans between).trans
    (registration.trans (extends_closing _ c.wording))
  exact all.ordered Sheet.ordered_empty

/-! ## Passing `audit` -/

theorem checkNames_ok : (build c).sheet.checkNames = .ok () := by
  rw [Sheet.checkNames_ok_iff_nodup, Sheet.singleNames, toList_build, filter_layout]
  exact nodup_names c

theorem toList_single : ∀ k < c.top + 1, (build c).sheet.defs.toList[1 + k]? = some (Ladder.single c.naming 0 1 k) :=
  fun _ hk => toList_build c ▸ layout_single c (Nat.le_of_lt_succ hk)

theorem toList_pair {p : PairPolicy} (hp : c.effectivePairPolicy = some p) : ∀ k < c.top + 1,
    (build c).sheet.defs.toList[c.top + 2 + k]? = some (Ladder.pair c.naming p 0 (c.top + 2) k) :=
  fun _ hk => toList_build c ▸ layout_pair c hp (Nat.le_of_lt_succ hk)

theorem hasLevels_single : (build c).sheet.HasLevels 1 (c.top + 1) := Sheet.hasLevels_single toList_single

theorem hasLevels_pair {p : PairPolicy} (hp : c.effectivePairPolicy = some p) :
    (build c).sheet.HasLevels (c.top + 2) (c.top + 1) := Sheet.hasLevels_pair (toList_pair hp)

theorem levelOf_expand : (build c).sheet.levelOf 0 = none :=
  Sheet.levelOf_eq (toList_build c ▸ layout_expand c)

theorem checkLadder_single : (build c).sheet.checkLadder (singleLadder c) c.top singleDescent.2
    singleDescent.1 = .ok () :=
  Sheet.checkLadder_ok_iff.2 ⟨List.length_range', Sheet.climbs_single levelOf_expand toList_single⟩

theorem checkLadder_pair {p : PairPolicy} (hp : c.effectivePairPolicy = some p) :
    (build c).sheet.checkLadder (doubleLadder c) c.top (pairDescent p).2 (pairDescent p).1 = .ok () :=
  Sheet.checkLadder_ok_iff.2
    ⟨List.length_range', (Sheet.climbs_pair_iff levelOf_expand (toList_pair hp)).2 (.inl rfl)⟩

theorem checkCounter_ok : (build c).sheet.checkCounter (counterId c) c.top = .ok () :=
  (Sheet.checkCounter_iff (toList_build c ▸ layout_table c (i := 0) rfl)).2 rfl

theorem checkSelector_single :
    (build c).sheet.checkSelector (counterId c + 1) (singleLadder c) = .ok () := by
  have : c.top + 2 ≤ counterId c := by unfold counterId; split <;> omega
  exact Sheet.checkSelector_ok hasLevels_single (.inl (by omega)) (.inr (by omega)) (descending_single c)
    (toList_build c ▸ layout_table c (i := 1) rfl)

theorem checkSelector_pair {p : PairPolicy} (hp : c.effectivePairPolicy = some p) :
    (build c).sheet.checkSelector (counterId c + 2) (doubleLadder c) = .ok () := by
  have : counterId c = c.top + 2 + (c.top + 1) := by rw [counterId, hp]
  exact Sheet.checkSelector_ok (hasLevels_pair hp) (.inl (by omega)) (.inr (by omega)) (descending_double c hp)
    (toList_build c ▸ layout_table c (i := 2) (m := forEachPairMacro c) (by rw [tablePart, hp]; rfl))

/-- A header that is built with a legal stem passes `audit`, however high its ladders are. -/
theorem audit_build (hs : Text.isStem c.stem = true) : (build c).audit = .ok () := by
  -- each check on its own, and then all of them in a row
  have hl : (build c).ladder = singleLadder c := by rw [build_eq]
  have hc : (build c).config = c := by rw [build_eq]
  have ht : (build c).tables = tablesOf c := by rw [build_eq]
  have hp : (build c).pair = c.effectivePairPolicy.map fun p => (p, doubleLadder c) := by rw [build_eq]
  have pair : (build c).checkPair = .ok () := by
    unfold checkPair
    rw [hp, hc]
    rcases he : c.effectivePairPolicy with _ | p
    · rfl
    · exact checkLadder_pair he
  have pairSelector : (build c).checkPairSelector = .ok () := by
    unfold checkPairSelector pairLadder
    rw [ht, hp, tablesOf]
    rcases he : c.effectivePairPolicy with _ | p
    · rfl
    · exact checkSelector_pair he
  unfold audit
  rw [(ordered_build hs).checkMacros_ok, checkNames_ok, hl, hc, ht]
  simp only [tablesOf]
  rw [show c.maxArity.toNat = c.top from rfl, checkLadder_single, pair, checkCounter_ok,
    checkSelector_single, pairSelector]
  rfl

/-! ## Generating -/

/-- What `generate` gives, for every configuration. -/
theorem generate_eq (c : Config) : generate c =
    if 4096 < c.maxArity.toNat then .error (.invalidArity (.aboveLimit c.maxArity.toNat))
    else if Text.isStem c.stem = true then .ok (build c) else .error (.invalidStem c.stem) := by
  unfold generate Config.validate checkMaxArity
  by_cases hn : 4096 < c.maxArity.toNat
  · rw [if_pos hn, if_neg (show ¬c.maxArity.toNat ≤ maxArityLimit from Nat.not_le.2 hn)]
    rfl
  · rw [if_neg hn, if_pos (show c.maxArity.toNat ≤ maxArityLimit from Nat.not_lt.1 hn)]
    by_cases hs : Text.isStem c.stem = true
    · rw [if_pos hs, if_pos hs]
      simp only [audit_build hs]
      rfl
    · rw [if_neg hs, if_neg hs]
      rfl

/-- A header is generated exactly when the number of arguments is at most the limit and the stem is legal. Too
great a number is refused by `invalidArity` whatever the stem is, and no header that is built is `malformed`. -/
theorem generate_outcome (c : Config) :
    ((∃ h, generate c = .ok h) ↔ c.maxArity.toNat ≤ 4096 ∧ Text.isStem c.stem = true) ∧
      (generate c = .error (.invalidArity (.aboveLimit c.maxArity.toNat)) ↔ 4096 < c.maxArity.toNat) ∧
      (generate c = .error (.invalidStem c.stem) ↔ c.maxArity.toNat ≤ 4096 ∧ Text.isStem c.stem = false) ∧
      ∀ violation, generate c ≠ .error (.malformed violation) := by
  rw [generate_eq]
  by_cases hn : 4096 < c.maxArity.toNat
  · have hn' : ¬c.maxArity.toNat ≤ 4096 := Nat.not_le.2 hn
    simp [hn, hn']
  · have hn' : c.maxArity.toNat ≤ 4096 := Nat.not_lt.1 hn
    cases hs : Text.isStem c.stem <;> simp [hn, hn']

/-- What is generated is built, with a legal stem. -/
theorem eq_build {c : Config} {h : Header} (hg : generate c = .ok h) :
    h = build c ∧ Text.isStem c.stem = true := by
  rw [generate_eq] at hg
  split at hg
  · cases hg
  · split at hg
    · rename_i hs
      exact ⟨(Except.ok.inj hg).symm, hs⟩
    · cases hg

end Header

end NamedDispatch
