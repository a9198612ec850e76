/-
Which headers `Header.audit` accepts, whatever was changed in their macros: those in which every macro comes
after what it uses, no name is defined twice, the ladders climb, `GET_MACRO` fits them and every selector lists
its ladder from the top down. `audit` looks at levels and at the references to them only; that a selector
refers to just the macros of its ladder follows, since each of these has a level of its own.
-/
import NamedDispatch.Proofs.Header.Generated

namespace NamedDispatch

namespace Sheet

theorem Climbs.levelOf {s : Sheet} {l : Ladder} {step first : Nat} (h : s.Climbs l step first) :
    ∀ k id, l.level? k = some id → s.levelOf id = some k := by
  intro k id hid
  obtain ⟨m, hm, hl, -⟩ := h k id hid
  exact levelOf_eq_some_iff.2 ⟨m, hm, hl⟩

end Sheet

namespace Header

/-- The numbers of `GET_MACRO` and the selectors are those of macros of the sheet. -/
structure InRange (h : Header) : Prop where
  counter : h.tables.counter < h.sheet.size
  single : h.tables.single.id < h.sheet.size
  pair : ∀ selector, h.tables.pair = some selector → selector.id < h.sheet.size

/-- The parts of a header fit one another. Both ladders have a level for each number of arguments; a level `FE_k` goes
on one below it from `k = 2` on, and a level `FE2_k` as far below as the policy says, from `k = 3` on. -/
structure Coherent (h : Header) : Prop where
  placed : ∀ id m, h.sheet.defs[id]? = some m → h.sheet.Placed id m
  names : h.sheet.NamesOnce
  height : h.ladder.levels.length = h.config.maxArity.toNat + 1
  ladder : h.sheet.Climbs h.ladder 1 2
  pairHeight : ∀ p l, h.pair = some (p, l) → l.levels.length = h.config.maxArity.toNat + 1
  pair : ∀ p l, h.pair = some (p, l) → h.sheet.Climbs l p.step 3
  counter : h.sheet.Counts h.tables.counter h.config.maxArity.toNat
  selector : h.sheet.Lists h.tables.single.id h.ladder
  agreement : h.tables.pair.isSome = h.pair.isSome
  pairSelector : ∀ selector p l, h.tables.pair = some selector → h.pair = some (p, l) →
    h.sheet.Lists selector.id l

section

variable {h : Header}

theorem checkPair_ok_iff : h.checkPair = .ok () ↔ ∀ p l, h.pair = some (p, l) →
    l.levels.length = h.config.maxArity.toNat + 1 ∧ h.sheet.Climbs l p.step 3 := by
  unfold checkPair
  cases hp : h.pair with
  | none => exact ⟨fun _ => nofun, fun _ => rfl⟩
  | some pair =>
    obtain ⟨p, l⟩ := pair
    constructor
    · rintro hc p l ⟨⟩
      exact Sheet.checkLadder_ok_iff.1 hc
    · intro hc
      exact Sheet.checkLadder_ok_iff.2 (hc p l rfl)

/-- The levels `FE2_k` and the selector `FOR_EACH2` are there both or neither. -/
theorem agreement_of_audit (ho : h.audit = .ok ()) : h.tables.pair.isSome = h.pair.isSome := by
  unfold audit at ho
  simp only [both_ok_iff] at ho
  obtain ⟨-, -, -, -, -, -, hc⟩ := ho
  unfold checkPairSelector pairLadder at hc
  rcases hs : h.tables.pair with _ | selector <;> rcases hl : h.pair with _ | pair <;> rw [hs, hl] at hc
  · rfl
  · cases hc
  · cases hc
  · rfl

theorem checkPairSelector_ok_iff (hr : h.InRange) (hp : h.checkPair = .ok ()) :
    h.checkPairSelector = .ok () ↔ h.tables.pair.isSome = h.pair.isSome ∧
      ∀ selector p l, h.tables.pair = some selector → h.pair = some (p, l) → h.sheet.Lists selector.id l := by
  have lists {selector : Selector} {p : PairPolicy} {l : Ladder} (hs : h.tables.pair = some selector)
      (hl : h.pair = some (p, l)) : h.sheet.checkSelector selector.id l = .ok () ↔ h.sheet.Lists selector.id l :=
    have ⟨height, climbs⟩ := checkPair_ok_iff.1 hp p l hl
    Sheet.checkSelector_ok_iff (hr.pair selector hs) height climbs.levelOf
  unfold checkPairSelector pairLadder
  -- the selector and the ladder are there both or neither
  rcases hs : h.tables.pair with _ | selector <;> rcases hl : h.pair with _ | ⟨p, l⟩
  · exact ⟨fun _ => ⟨rfl, nofun⟩, fun _ => rfl⟩
  · exact ⟨nofun, fun h => Bool.noConfusion h.1⟩
  · exact ⟨nofun, fun h => Bool.noConfusion h.1⟩
  · constructor
    · intro hc
      refine ⟨rfl, ?_⟩
      rintro selector p l ⟨⟩ ⟨⟩
      exact (lists hs hl).1 hc
    · rintro ⟨-, hc⟩
      exact (lists hs hl).2 (hc selector p l rfl rfl)

end

/-- The check `audit` accepts a header exactly when its parts fit one another, whatever was changed in its macros. -/
theorem audit_ok_iff {h : Header} (hr : h.InRange) : h.audit = .ok () ↔ h.Coherent := by
  unfold audit
  simp only [both_ok_iff, Sheet.checkMacros_ok_iff, Sheet.checkNames_ok_iff, Sheet.checkLadder_ok_iff,
    Sheet.checkCounter_ok_iff hr.counter, Nat.zero_add, Array.getElem?_toList]
  constructor
  · rintro ⟨placed, names, ⟨height, climbs⟩, pair, counts, selector, pairSelector⟩
    obtain ⟨agreement, pairLists⟩ := (checkPairSelector_ok_iff hr pair).1 pairSelector
    have pair := checkPair_ok_iff.1 pair
    have lists := (Sheet.checkSelector_ok_iff hr.single height climbs.levelOf).1 selector
    exact ⟨placed, names, height, climbs, fun p l hl => (pair p l hl).1, fun p l hl => (pair p l hl).2, counts,
      lists, agreement, pairLists⟩
  · intro hc
    have pair : h.checkPair = .ok () := checkPair_ok_iff.2 fun p l hl => ⟨hc.pairHeight p l hl, hc.pair p l hl⟩
    have selector := (Sheet.checkSelector_ok_iff hr.single hc.height hc.ladder.levelOf).2 hc.selector
    have pairSelector := (checkPairSelector_ok_iff hr pair).2 ⟨hc.agreement, hc.pairSelector⟩
    exact ⟨hc.placed, hc.names, ⟨hc.height, hc.ladder⟩, pair, hc.counter, selector, pairSelector⟩

/-- The header with another body for one of its macros. -/
def withBody (h : Header) (id : Nat) (body : String) : Header :=
  { h with sheet := h.sheet.modify id fun m => { m with body := body } }

theorem lookup_withBody (h : Header) (id : Nat) (body name : String) :
    (h.withBody id body).sheet.lookup name = h.sheet.lookup name := rfl

theorem size_withBody (h : Header) (id : Nat) (body : String) :
    (h.withBody id body).sheet.size = h.sheet.size := Array.size_modify

theorem withBody_getElem? {h : Header} {id : Nat} {m : Macro} (hm : h.sheet.defs[id]? = some m) (body : String) :
    (h.withBody id body).sheet.defs[id]? = some { m with body := body } := by
  rw [withBody, Sheet.modify, Array.getElem?_modify, if_pos rfl, hm, Option.map_some]

/-- A header is not accepted once `EXPAND` uses `FE_3`, which comes after it. -/
theorem audit_withBody_early :
    ((build ⟨3, .callback, none, "RPC_"⟩).withBody 0 "RPC_FE_3(x)").InRange ∧
      ((build ⟨3, .callback, none, "RPC_"⟩).withBody 0 "RPC_FE_3(x)").audit ≠ .ok () := by
  set c : Config := ⟨3, .callback, none, "RPC_"⟩
  have table {i : Nat} {m : Macro} (hm : (tablePart c)[i]? = some m) :
      counterId c + i < ((build c).withBody 0 "RPC_FE_3(x)").sheet.size := by
    rw [size_withBody, Sheet.size_eq, toList_build]
    exact (List.getElem?_eq_some_iff.1 (layout_table c hm)).1
  have tables : ((build c).withBody 0 "RPC_FE_3(x)").tables = tablesOf c := by rw [withBody, build_eq]
  have range : ((build c).withBody 0 "RPC_FE_3(x)").InRange := by
    constructor <;> rw [tables]
    · exact table (i := 0) rfl
    · exact table (i := 1) rfl
    · rintro selector ⟨⟩
      exact table (i := 2) (m := forEachPairMacro c) rfl
  refine ⟨range, fun ho => ?_⟩
  have first : (build c).sheet.defs[0]? = some Ladder.expandMacro := by
    rw [← Array.getElem?_toList, toList_build]
    exact layout_expand c
  have level : (build c).sheet.lookup (c.naming.level 3) = some (1 + 3) := by
    rw [← single_name c.naming 0 1]
    exact lookup_build c (layout_single c (show 3 ≤ c.top by decide)) nofun
  -- the level is found, so that it would have to come before the macro
  have placed := ((audit_ok_iff range).1 ho).placed 0 _ (withBody_getElem? first _)
  have early := placed.found (c.naming.level 3) (by decide) (1 + 3) (by rw [lookup_withBody, level])
  omega

end Header

end NamedDispatch
