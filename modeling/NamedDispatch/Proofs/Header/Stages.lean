/-
Headers whose stages were made for different numbers of arguments, or whose levels `FE2_k` are taken for those
of another policy. `Header.audit` compares the heights of the ladders and the slots of `GET_MACRO` with the
configuration, and where the levels go on; all else fits whatever the stages were made for. The two policies
go on in different ways from level `FE2_3` on only, so that below that level one is as good as the other.
-/
import NamedDispatch.Proofs.Header.Accepted

namespace NamedDispatch

open Naming (isName)

/-! ## Names of what servers use -/

namespace Sheet

variable {s : Sheet}

/-- The names of the macros of a sheet, in the order of their numbers. -/
def macroNames (s : Sheet) : List String := s.defs.toList.map (·.name)

theorem macroNames_emitFamily (s : Sheet) (expand selector : Nat) (one : Macro) (many : String)
    (doc : Option String) : (s.emitFamily expand selector one many doc).2.macroNames =
      s.macroNames ++ [one.name, many] := by
  simp only [macroNames, emitFamily, defs_blank, toList_emit, List.map_append, List.append_assoc]
  rfl

theorem macroNames_emitRegistration (n : Naming) (w : Wording) (expand : Nat) {tables : Tables}
    {selector : Selector} (h : tables.pair = some selector) (p : PairPolicy) :
    (s.emitRegistration n w expand tables (some p)).2.macroNames =
      s.macroNames ++ (Header.registrationSuffixes (some p)).map (n.stem ++ ·) := by
  have aliases (s : Sheet) : (s.emitAliases n w expand tables (some p)).2.macroNames =
      s.macroNames ++ ([n.singleAlias false, Registration.aliasManyName n p false] ++
        [n.singleAlias true, Registration.aliasManyName n p true]) := by
    simp only [emitAliases, h]
    rw [emitAlias, macroNames_emitFamily, emitAlias, macroNames_emitFamily, List.append_assoc]
    rfl
  have last (s : Sheet) (m : Macro) : (s.emit m).macroNames = s.macroNames ++ [m.name] := by
    rw [macroNames, toList_emit, List.map_append]
    rfl
  simp only [emitRegistration]
  rw [last, aliases, emitAttach, macroNames_emitFamily, emitAttach, macroNames_emitFamily]
  simp only [List.append_assoc, Registration.oneMacro, Naming.singleAlias_eq, Naming.attach_eq, Naming.attachMany_eq]
  cases p <;> simp only [Registration.aliasManyName, Naming.multiAlias_eq, Naming.aliasPairs_eq] <;> rfl

end Sheet

/-! ## Stages -/

/-- What the stages of a header are made with: the variant and the stem, the highest levels `FE_k` and `FE2_k`,
the most arguments that `GET_MACRO` counts, and the policy of the levels `FE2_k`. -/
structure Stages where
  variant : Variant
  stem : String
  single : Nat
  pair : Nat
  counted : Nat
  policy : PairPolicy

namespace Stages

variable (st : Stages)

/-- The names of the macros, by the stem of the stages. -/
def naming : Naming := ⟨st.stem⟩

/-- The header that the stages give for a configuration: with `FOR_EACH2` or without it, and with the levels
`FE2_k` recorded under a policy, or not recorded. -/
def header (config : Config) (selects : Bool) (recorded : Option PairPolicy) : Header :=
  let (expand, s) := Sheet.empty.emitExpand
  let (ladder, s) := s.emitLadder st.naming expand st.single
  let (pair, s) := s.emitPairLadder st.naming st.policy expand st.pair
  let (tables, s) := s.emitTables st.naming expand st.counted ladder (if selects then some pair else none)
  let (registration, s) := s.emitRegistration st.naming (Wording.of st.variant) expand tables (some st.policy)
  ⟨config, s, ladder, recorded.map fun p => (p, pair), tables, registration⟩

/-! ### Sheets after the stages -/

/-- The numbers of the levels `FE_k`, which come right after `EXPAND`. -/
def ladder : Ladder := ⟨List.range' 1 (st.single + 1)⟩

/-- The numbers of the levels `FE2_k`, which come after the levels `FE_k`. -/
def pairLadder : Ladder := ⟨List.range' (st.single + 2) (st.pair + 1)⟩

/-- The number of `GET_MACRO`, which comes after the ladders. -/
def counterId : Nat := st.single + 2 + (st.pair + 1)

/-- The numbers of `GET_MACRO` and the selectors, and the levels that each selector lists. -/
def tables : Tables where
  counter := st.counterId
  single := ⟨st.counterId + 1, st.ladder.descending⟩
  pair := some ⟨st.counterId + 2, st.pairLadder.descending⟩

/-- The sheet after `EXPAND` and the levels `FE_k`. -/
def singleSheet : Sheet := (Sheet.empty.emitExpand.2.emitLadder st.naming 0 st.single).2

/-- The sheet after the levels `FE2_k`. -/
def pairSheet : Sheet := (st.singleSheet.emitPairLadder st.naming st.policy 0 st.pair).2

/-- The sheet after `GET_MACRO`, `FOR_EACH` and `FOR_EACH2`. -/
def tableSheet : Sheet := (st.pairSheet.emitTables st.naming 0 st.counted st.ladder (some st.pairLadder)).2

/-- The sheet after the macros that servers use, with those that attach under other names. -/
def sheet : Sheet :=
  (st.tableSheet.emitRegistration st.naming (Wording.of st.variant) 0 st.tables (some st.policy)).2

/-! ### Their macros -/

/-- The levels `FE_k` and `FE2_k`, after `EXPAND`. -/
def ladderMacros : List Macro :=
  Ladder.expandMacro :: ((List.range (st.single + 1)).map (Ladder.single st.naming 0 1) ++
    (List.range (st.pair + 1)).map (Ladder.pair st.naming st.policy 0 (st.single + 2)))

/-- The counter `GET_MACRO` and the selectors. -/
def tableMacros : List Macro :=
  [Selector.counterMacro st.naming st.counted,
    Selector.listing st.naming.forEach st.naming.counter
      (((List.range (st.single + 1)).map st.naming.level).reverse) (0 :: st.counterId :: st.ladder.descending),
    Selector.listing st.naming.forEachPair st.naming.counter
      (((List.range (st.pair + 1)).map st.naming.pairLevel).reverse) (0 :: st.counterId :: st.pairLadder.descending)]

theorem toList_singleSheet : st.singleSheet.defs.toList =
    Ladder.expandMacro :: (List.range (st.single + 1)).map (Ladder.single st.naming 0 1) := by
  rw [singleSheet, Sheet.emitLadder, Sheet.emitLevels, Sheet.toList_emitAll]
  rfl

theorem size_singleSheet : st.singleSheet.size = st.single + 2 := by
  rw [Sheet.size_eq, toList_singleSheet, List.length_cons, List.length_map, List.length_range]

theorem toList_pairSheet : st.pairSheet.defs.toList = st.ladderMacros := by
  rw [pairSheet, Sheet.emitPairLadder, Sheet.emitLevels, Sheet.toList_emitAll, size_singleSheet, toList_singleSheet]
  rfl

theorem length_ladderMacros : st.ladderMacros.length = st.counterId := by
  simp only [ladderMacros, List.length_cons, List.length_append, List.length_map, List.length_range, counterId]
  omega

theorem size_pairSheet : st.pairSheet.size = st.counterId := by
  rw [Sheet.size_eq, toList_pairSheet, length_ladderMacros]

theorem ladderMacros_single {k : Nat} (hk : k < st.single + 1) :
    st.ladderMacros[1 + k]? = some (Ladder.single st.naming 0 1 k) := by
  rw [ladderMacros, Nat.add_comm 1 k, List.getElem?_cons_succ, List.getElem?_append_left (by simpa using hk),
    List.getElem?_map, List.getElem?_range hk]
  rfl

theorem ladderMacros_pair {k : Nat} (hk : k < st.pair + 1) :
    st.ladderMacros[st.single + 2 + k]? = some (Ladder.pair st.naming st.policy 0 (st.single + 2) k) := by
  rw [ladderMacros, show st.single + 2 + k = st.single + 1 + k + 1 by omega, List.getElem?_cons_succ,
    List.getElem?_append_right (by simp), List.length_map, List.length_range, Nat.add_sub_cancel_left,
    List.getElem?_map, List.getElem?_range hk]
  rfl

theorem named_single {k : Nat} (hk : k < st.single + 1) : st.pairSheet.Named (1 + k) (st.naming.level k) :=
  ⟨_, st.toList_pairSheet ▸ st.ladderMacros_single hk, Header.single_name ..⟩

theorem named_pair {k : Nat} (hk : k < st.pair + 1) : st.pairSheet.Named (st.single + 2 + k) (st.naming.pairLevel k) :=
  ⟨_, st.toList_pairSheet ▸ st.ladderMacros_pair hk, Header.pair_name ..⟩

theorem emitTables_eq : st.pairSheet.emitTables st.naming 0 st.counted st.ladder (some st.pairLadder) =
    (st.tables, st.pairSheet.emitAll st.tableMacros) := by
  set m := Selector.counterMacro st.naming st.counted
  set m' := Selector.listing st.naming.forEach st.naming.counter
    (((List.range (st.single + 1)).map st.naming.level).reverse) (0 :: st.counterId :: st.ladder.descending)
  -- the selectors look up names that are in the sheet by then
  have hc : (st.pairSheet.emit m).Named st.counterId st.naming.counter :=
    st.size_pairSheet ▸ Sheet.named_emit st.pairSheet m
  have h1 := Sheet.emitSelector_eq st.naming.forEach 0 hc
    (Sheet.descending_nameOf fun k hk => (st.named_single hk).emit m)
  have h2 := Sheet.emitSelector_eq st.naming.forEachPair 0 (hc.emit m')
    (Sheet.descending_nameOf fun k hk => ((st.named_pair hk).emit m).emit m')
  rw [Sheet.size_emit, size_pairSheet] at h1
  rw [Sheet.size_emit, Sheet.size_emit, size_pairSheet] at h2
  unfold Sheet.emitTables
  rw [Sheet.emitCounter, size_pairSheet]
  simp only
  rw [ladder, h1]
  simp only
  rw [pairLadder]
  exact congrArg (fun r : Selector × Sheet => ((⟨_, _, some r.1⟩ : Tables), r.2)) h2

theorem toList_tableSheet : st.tableSheet.defs.toList = st.ladderMacros ++ st.tableMacros := by
  rw [tableSheet, emitTables_eq, Sheet.toList_emitAll, toList_pairSheet]

/-- With `FOR_EACH2` the stages give these parts. -/
theorem header_eq (config : Config) (recorded : Option PairPolicy) : st.header config true recorded =
    ⟨config, st.sheet, st.ladder, recorded.map fun p => (p, st.pairLadder), st.tables,
      (st.tableSheet.emitRegistration st.naming (Wording.of st.variant) 0 st.tables (some st.policy)).1⟩ := by
  have single : Sheet.empty.emitExpand.2.emitLadder st.naming 0 st.single = (st.ladder, st.singleSheet) := rfl
  have pair : st.singleSheet.emitPairLadder st.naming st.policy 0 st.pair = (st.pairLadder, st.pairSheet) := by
    refine Prod.ext ?_ rfl
    rw [Sheet.emitPairLadder, Sheet.emitLevels, size_singleSheet]
    rfl
  have table : st.pairSheet.emitTables st.naming 0 st.counted st.ladder (some st.pairLadder) =
      (st.tables, st.tableSheet) := by
    rw [tableSheet, emitTables_eq]
  unfold header sheet
  rw [show Sheet.empty.emitExpand = (0, Sheet.empty.emitExpand.2) from rfl]
  simp only [single, pair, table, if_true]

theorem toList_table {i : Nat} {m : Macro} (h : st.tableMacros[i]? = some m) :
    st.tableSheet.defs.toList[st.counterId + i]? = some m := by
  rw [toList_tableSheet, ← length_ladderMacros, List.getElem?_append_right (Nat.le_add_right ..),
    Nat.add_sub_cancel_left, h]

/-! ## What always fits -/

section

variable (hs : Text.isStem st.stem = true)
include hs

theorem extends_tableSheet : Sheet.empty.Extends st.tableSheet := by
  have hs : Text.isStem st.naming.stem = true := hs
  have first : Sheet.empty.Extends Sheet.empty.emitExpand.2 := Sheet.extends_emitExpand _
  have expand : Sheet.empty.emitExpand.2.Named 0 expandName := Sheet.named_emit Sheet.empty Ladder.expandMacro
  have singles : Sheet.empty.emitExpand.2.Extends st.singleSheet := Sheet.extends_emitLadder hs expand st.single
  have pairs : st.singleSheet.Extends st.pairSheet :=
    Sheet.extends_emitPairLadder hs (singles.named expand) st.policy st.pair
  have table : st.pairSheet.Extends st.tableSheet := by
    refine Sheet.extends_emitTables hs (pairs.named (singles.named expand)) ?_ ?_ st.counted
    · exact ⟨_, _, rfl, fun k hk => st.named_single hk⟩
    · rintro l ⟨⟩
      exact ⟨_, _, rfl, fun k hk => st.named_pair hk⟩
  exact ((first.trans singles).trans pairs).trans table

theorem extends_sheet : st.tableSheet.Extends st.sheet := by
  have named {i : Nat} {m : Macro} (h : st.tableMacros[i]? = some m) : st.tableSheet.Named (st.counterId + i) m.name :=
    ⟨m, st.toList_table h, rfl⟩
  refine Sheet.extends_emitRegistration (n := st.naming) hs st.variant ?_ (named (i := 1) rfl) ?_ _
  · exact ⟨Ladder.expandMacro, by rw [toList_tableSheet]; rfl, rfl⟩
  · rintro selector ⟨⟩
    exact named (i := 2) rfl

theorem ordered_sheet : st.sheet.Ordered :=
  ((st.extends_tableSheet hs).trans (st.extends_sheet hs)).ordered Sheet.ordered_empty

theorem toList_sheet {id : Nat} {m : Macro} (h : (st.ladderMacros ++ st.tableMacros)[id]? = some m) :
    st.sheet.defs.toList[id]? = some m := (st.extends_sheet hs).getElem? (st.toList_tableSheet ▸ h)

theorem toList_single : ∀ k < st.single + 1,
    st.sheet.defs.toList[1 + k]? = some (Ladder.single st.naming 0 1 k) := by
  intro k hk
  have h := st.ladderMacros_single hk
  exact st.toList_sheet hs (by rw [List.getElem?_append_left (List.getElem?_eq_some_iff.1 h).1, h])

theorem toList_pair : ∀ k < st.pair + 1,
    st.sheet.defs.toList[st.single + 2 + k]? = some (Ladder.pair st.naming st.policy 0 (st.single + 2) k) := by
  intro k hk
  have h := st.ladderMacros_pair hk
  exact st.toList_sheet hs (by rw [List.getElem?_append_left (List.getElem?_eq_some_iff.1 h).1, h])

theorem levelOf_expand : st.sheet.levelOf 0 = none :=
  Sheet.levelOf_eq (m := Ladder.expandMacro) (st.toList_sheet hs rfl)

theorem checkSelector_single : st.sheet.checkSelector (st.counterId + 1) st.ladder = .ok () := by
  have after : 1 + (st.single + 1) ≤ st.counterId := by
    rw [counterId]
    omega
  have selector := (st.extends_sheet hs).getElem? (st.toList_table (i := 1) rfl)
  exact Sheet.checkSelector_ok (Sheet.hasLevels_single (st.toList_single hs)) (.inl Nat.zero_lt_one) (.inr after)
    (Sheet.descending_nameOf fun k hk => ⟨_, st.toList_single hs k hk, Header.single_name ..⟩) selector

theorem checkSelector_pair : st.sheet.checkSelector (st.counterId + 2) st.pairLadder = .ok () := by
  have selector := (st.extends_sheet hs).getElem? (st.toList_table (i := 2) rfl)
  exact Sheet.checkSelector_ok (Sheet.hasLevels_pair (st.toList_pair hs)) (.inl (Nat.succ_pos _)) (.inr (Nat.le_refl _))
    (Sheet.descending_nameOf fun k hk => ⟨_, st.toList_pair hs k hk, Header.pair_name ..⟩) selector

/-! ## What has to agree -/

theorem checkLadder_single {maxArity : Nat} :
    st.sheet.checkLadder st.ladder maxArity Header.singleDescent.2 Header.singleDescent.1 = .ok () ↔
      st.single = maxArity := by
  rw [Sheet.checkLadder_ok_iff, ladder, List.length_range']
  constructor
  · rintro ⟨height, -⟩
    omega
  · rintro rfl
    exact ⟨rfl, Sheet.climbs_single (st.levelOf_expand hs) (st.toList_single hs)⟩

theorem checkLadder_pair {maxArity : Nat} {recorded : PairPolicy} :
    st.sheet.checkLadder st.pairLadder maxArity (Header.pairDescent recorded).2 (Header.pairDescent recorded).1 =
      .ok () ↔ st.pair = maxArity ∧ (st.policy = recorded ∨ maxArity ≤ 2) := by
  have climbs : st.sheet.Climbs st.pairLadder recorded.step 3 ↔ st.policy = recorded ∨ st.pair + 1 ≤ 3 :=
    Sheet.climbs_pair_iff (st.levelOf_expand hs) (st.toList_pair hs)
  rw [Sheet.checkLadder_ok_iff]
  show st.pairLadder.levels.length = _ ∧ st.sheet.Climbs st.pairLadder recorded.step 3 ↔ _
  rw [climbs, pairLadder, List.length_range']
  constructor
  · rintro ⟨height, hpolicy⟩
    exact ⟨by omega, hpolicy.imp_right fun h => by omega⟩
  · rintro ⟨rfl, hpolicy⟩
    exact ⟨rfl, hpolicy.imp_right fun h => by omega⟩

theorem checkCounter {maxArity : Nat} :
    st.sheet.checkCounter st.counterId maxArity = .ok () ↔ st.counted = maxArity :=
  Sheet.checkCounter_iff ((st.extends_sheet hs).getElem? (st.toList_table (i := 0) rfl))

end

/-- No name is used twice when the stages have the same height. -/
theorem checkNames_ok {c : Config} (hp : c.effectivePairPolicy = some st.policy) (hstem : c.stem = st.stem)
    (hsingle : st.single = c.top) (hpair : st.pair = c.top) : st.sheet.checkNames = .ok () := by
  have hn : st.naming = c.naming := by
    rw [naming, ← hstem]
    rfl
  have ladders : st.ladderMacros = Ladder.expandMacro :: (Header.singlePart c ++ Header.pairPart c) := by
    rw [ladderMacros, Header.singlePart, Header.pairPart, hp, hn, hsingle, hpair]
  have tables : st.tableMacros.map (·.name) = (Header.tablePart c).map (·.name) := by
    rw [Header.names_table, hp, tableMacros, hn]
    rfl
  have once : (Header.onceMacros c).map (·.name) = (st.ladderMacros ++ st.tableMacros).map (·.name) ++
      (Header.registrationSuffixes (some st.policy)).map (st.naming.stem ++ ·) := by
    simp only [Header.onceMacros, ladders, tables, Header.names_registration, hp, hn, List.map_append, List.map_cons,
      List.cons_append, List.append_assoc]
    rfl
  have names : st.sheet.macroNames = (Header.onceMacros c).map (·.name) := by
    rw [once, sheet, Sheet.macroNames_emitRegistration _ _ _ rfl, Sheet.macroNames, toList_tableSheet]
  rw [Sheet.checkNames_ok_iff_nodup, Sheet.singleNames]
  exact (names ▸ Header.nodup_names c).sublist (List.filter_sublist.map _)

/-- A header made in stages passes `audit` exactly when its `FE_k`, its `FE2_k` and its `GET_MACRO` were made for as
many arguments as the configuration says, and the policy recorded is that of the levels `FE2_k` or there is no level
above 2. It does not pass with `FOR_EACH2` and no levels `FE2_k` recorded, nor with these and no `FOR_EACH2`. -/
theorem audit_stages (hs : Text.isStem st.stem = true) (config : Config) :
    (∀ recorded, (st.header config true (some recorded)).audit = .ok () ↔
      st.single = config.maxArity.toNat ∧ st.pair = config.maxArity.toNat ∧
        st.counted = config.maxArity.toNat ∧ (st.policy = recorded ∨ config.maxArity.toNat ≤ 2)) ∧
      (st.header config true none).audit ≠ .ok () ∧
      ∀ recorded, (st.header config false (some recorded)).audit ≠ .ok () := by
  refine ⟨fun recorded => ?_, fun ho => ?_, fun recorded ho => ?_⟩
  · have names (hsingle : st.single = config.maxArity.toNat) (hpair : st.pair = config.maxArity.toNat) :
        st.sheet.checkNames = .ok () :=
      st.checkNames_ok (c := ⟨config.maxArity, .templated, some st.policy, st.stem⟩) rfl rfl hsingle hpair
    have pair : (st.header config true (some recorded)).checkPair = .ok () ↔
        st.pair = config.maxArity.toNat ∧ (st.policy = recorded ∨ config.maxArity.toNat ≤ 2) := by
      rw [header_eq]
      exact st.checkLadder_pair hs
    have pairSelector : (st.header config true (some recorded)).checkPairSelector = .ok () := by
      rw [header_eq]
      exact st.checkSelector_pair hs
    rw [Header.audit]
    simp only [both_ok_iff, pair, pairSelector]
    rw [header_eq]
    simp only [(st.ordered_sheet hs).checkMacros_ok, st.checkLadder_single hs, st.checkSelector_single hs, tables,
      st.checkCounter hs, true_and, and_true]
    constructor
    · rintro ⟨-, hsingle, ⟨hpair, hpolicy⟩, hcounted⟩
      exact ⟨hsingle, hpair, hcounted, hpolicy⟩
    · rintro ⟨hsingle, hpair, hcounted, hpolicy⟩
      exact ⟨names hsingle hpair, hsingle, ⟨hpair, hpolicy⟩, hcounted⟩
  · have := Header.agreement_of_audit ho
    rw [header_eq] at this
    cases this
  · have := Header.agreement_of_audit ho
    cases this

/-- With no level above 2 the policy does not matter, and with level 3 it does. -/
theorem audit_stages_two :
    (header ⟨.legacy, "RPC_", 2, 2, 2, .holdFirst⟩ ⟨2, .classic, none, "RPC_"⟩ true (some .advanceBoth)).audit =
      .ok () ∧
    (header ⟨.legacy, "RPC_", 3, 3, 3, .holdFirst⟩ ⟨3, .classic, none, "RPC_"⟩ true (some .advanceBoth)).audit ≠
      .ok () := by
  have hs : Text.isStem "RPC_" = true := by decide
  constructor
  · exact ((audit_stages ⟨.legacy, "RPC_", 2, 2, 2, .holdFirst⟩ hs ⟨2, .classic, none, "RPC_"⟩).1 .advanceBoth).2
      (by decide)
  · intro ho
    have := ((audit_stages ⟨.legacy, "RPC_", 3, 3, 3, .holdFirst⟩ hs ⟨3, .classic, none, "RPC_"⟩).1 .advanceBoth).1 ho
    exact absurd this (by decide)

end Stages

end NamedDispatch
