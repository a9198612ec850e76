/-
The layout of a header: which macros it has, in which order and under which numbers. The stages that
build a header look up in the sheet the names of what they refer to; here the names are spelled out,
so that each macro is a function of the configuration alone.
-/
import NamedDispatch.Header.Generate
import NamedDispatch.Proofs.Header.Sheet

namespace NamedDispatch

/-! ## Macros with their names spelled out -/

/-- A selector `FOR_EACH` or `FOR_EACH2` that hands the given names to `GET_MACRO`, from the highest level down. -/
def Selector.listing (name counter : String) (listed : List String) (refs : List Nat) : Macro where
  name := name
  params := ["ACTION", Macro.ellipsis]
  body := Selector.body counter listed
  refs := refs
  role := .selector
  doc := none

/-- A macro such as `ATTACH_FUNCS`, which hands its parameters and any further arguments to a selector that
applies `one` to them. -/
def Registration.repeating (name : String) (params : List String) (selector one : String)
    (refs : List Nat) (doc : Option String) : Macro where
  name := name
  params := params ++ [Macro.ellipsis]
  body := Ladder.expanded (selector ++ "(" ++ Macro.commaList (one :: params ++ ["__VA_ARGS__"]) ++ ")")
  refs := refs
  role := .registration
  doc := doc

namespace Config

variable (c : Config)

/-- The names of the macros, by the configuration's stem. -/
def naming : Naming := ⟨c.stem⟩

/-- The texts of the configuration's variant. -/
def wording : Wording := Wording.of c.variant

/-- The highest level of the ladders, as a plain number. -/
def top : Nat := c.maxArity.toNat

end Config

namespace Header

variable (c : Config)

/-! ## Numbers -/

/-- The levels `FE_k` come right after `EXPAND`, which has the number 0. -/
def singleLadder : Ladder := ⟨List.range' 1 (c.top + 1)⟩

/-- The levels `FE2_k` come after the levels `FE_k`. -/
def doubleLadder : Ladder := ⟨List.range' (c.top + 2) (c.top + 1)⟩

/-- The number of `GET_MACRO`, which comes after the ladders. -/
def counterId : Nat :=
  match c.effectivePairPolicy with
  | none => c.top + 2
  | some _ => c.top + 2 + (c.top + 1)

/-- The number of `ATTACH_FUNC`, the first of the macros that servers use. -/
def registrationId : Nat :=
  counterId c + 2 + (if c.effectivePairPolicy.isSome then 1 else 0) + if c.wording.guarded then 2 else 0

/-! ## Parts -/

/-- The levels `FE_0` to `FE_top`. -/
def singlePart : List Macro := (List.range (c.top + 1)).map (Ladder.single c.naming 0 1)

/-- The levels `FE2_0` to `FE2_top`, if the variant pairs arguments. -/
def pairPart : List Macro :=
  match c.effectivePairPolicy with
  | none => []
  | some p => (List.range (c.top + 1)).map (Ladder.pair c.naming p 0 (c.top + 2))

/-- The selector `FOR_EACH`. -/
def forEachMacro : Macro :=
  Selector.listing c.naming.forEach c.naming.counter (((List.range (c.top + 1)).map c.naming.level).reverse)
    (0 :: counterId c :: (singleLadder c).descending)

/-- The selector `FOR_EACH2`. -/
def forEachPairMacro : Macro :=
  Selector.listing c.naming.forEachPair c.naming.counter
    (((List.range (c.top + 1)).map c.naming.pairLevel).reverse)
    (0 :: counterId c :: (doubleLadder c).descending)

/-- The counter `GET_MACRO` and the selectors it serves. -/
def tablePart : List Macro :=
  Selector.counterMacro c.naming c.top :: forEachMacro c ::
    if c.effectivePairPolicy.isSome then [forEachPairMacro c] else []

/-- The two definitions of `HEADER_FUNC`, for servers and for clients, in a variant with guards. -/
def headerFuncPart : List Macro :=
  if c.wording.guarded then [Registration.serverFunc c.naming, Registration.clientFunc c.naming] else []

/-- A macro for one function, such as `ATTACH_FUNC`, and the one that repeats it, such as `ATTACH_FUNCS`. -/
def familyPart (one : Macro) (many selector : String) (selectorId oneId : Nat) (doc : Option String) :
    List Macro :=
  [one, Registration.repeating many one.params selector one.name [0, selectorId, oneId] doc]

/-- The macro `ATTACH_FUNC` or `ATTACH_CACHED_FUNC`: a branch for the function under its own name. -/
def attachOne (cached : Bool) : Macro :=
  Registration.oneMacro (c.naming.attach cached) ["FUNCNAME"]
    (c.wording.branch "#FUNCNAME" "FUNCNAME" cached)
    (Registration.note c.wording (Registration.oneNote cached))

/-- The macros `ATTACH_FUNC` and `ATTACH_FUNCS`, or their cached forms, from the number `oneId` on. -/
def attachPart (cached : Bool) (oneId : Nat) : List Macro :=
  familyPart (attachOne c cached) (c.naming.attachMany cached) c.naming.forEach (counterId c + 1) oneId
    (Registration.note c.wording (Registration.manyNote cached))

/-- The macro `ALIAS_FUNC` or `ALIAS_CACHED_FUNC`: a branch for the function under the name `FUNC_ALIAS`. -/
def aliasOne (cached : Bool) : Macro :=
  Registration.oneMacro (c.naming.singleAlias cached) ["FUNCNAME", "FUNC_ALIAS"]
    (c.wording.branch "#FUNC_ALIAS" "FUNCNAME" cached)
    (Registration.note c.wording (Registration.aliasNote cached))

/-- The macro `ALIAS_FUNC` and what repeats it under the policy, `MULTI_ALIAS_FUNC` or `ALIAS_FUNCS`. -/
def aliasPart (p : PairPolicy) (cached : Bool) (oneId : Nat) : List Macro :=
  familyPart (aliasOne c cached) (Registration.aliasManyName c.naming p cached) c.naming.forEachPair
    (counterId c + 2) oneId (Registration.note c.wording (Registration.aliasManyNote p cached))

/-- The macros that attach functions under other names, if the variant pairs arguments. -/
def aliasesPart (firstId : Nat) : List Macro :=
  match c.effectivePairPolicy with
  | none => []
  | some p => aliasPart c p false firstId ++ aliasPart c p true (firstId + 2)

/-- The macros that servers use, from `ATTACH_FUNC` with the number `firstId` to `DEFAULT_DISPATCH`. -/
def registrationPart (firstId : Nat) : List Macro :=
  attachPart c false firstId ++ attachPart c true (firstId + 2) ++ aliasesPart c (firstId + 4) ++
    [Registration.defaultMacro c.naming c.wording 0 (firstId + 1)]

/-- The macros of a header in order. -/
def layout : List Macro :=
  Ladder.expandMacro :: (singlePart c ++ pairPart c ++ tablePart c ++ headerFuncPart c ++
    registrationPart c (registrationId c))

/-! ## Steps of writing -/

section

open Sheet (Entry)

/-- What stands before `EXPAND`: `#pragma once`, and the guard around the ladders in a variant with guards. -/
def openingEntries : List Entry :=
  [.directive "#pragma once", .blank] ++
    if c.wording.guarded then [.directive Wording.ladderGuard] else []

/-- The levels `FE2_k` with a blank line after them. -/
def pairEntries : List Entry :=
  match c.effectivePairPolicy with
  | none => []
  | some _ => (pairPart c).map .define ++ [.blank]

/-- In a variant with guards, what stands between the selectors and `ATTACH_FUNC`: the end of the first guard,
`HEADER_FUNC` for servers and for clients, and the guard around the macros that servers use. -/
def betweenEntries : List Entry :=
  if c.wording.guarded then
    [.directive Wording.endGuard, .blank,
      .directive Wording.serverGuard, .define (Registration.serverFunc c.naming),
      .directive Wording.clientGuard, .define (Registration.clientFunc c.naming),
      .directive Wording.endGuard, .blank, .directive Wording.serverGuard]
  else []

/-- The macros that attach functions under other names, each family with a blank line after it. -/
def aliasesEntries (firstId : Nat) : List Entry :=
  match c.effectivePairPolicy with
  | none => []
  | some p =>
    (aliasPart c p false firstId).map .define ++ [.blank] ++
      ((aliasPart c p true (firstId + 2)).map .define ++ [.blank])

/-- The macros that servers use, each family with a blank line after it. -/
def registrationEntries (firstId : Nat) : List Entry :=
  (attachPart c false firstId).map .define ++ [.blank] ++
    ((attachPart c true (firstId + 2)).map .define ++ [.blank]) ++ aliasesEntries c (firstId + 4) ++
    [.define (Registration.defaultMacro c.naming c.wording 0 (firstId + 1))]

/-- The end of the guard around the macros that servers use. -/
def closingEntries : List Entry :=
  if c.wording.guarded then [.directive Wording.endGuard] else []

/-- All steps of writing a header. -/
def entries : List Entry :=
  openingEntries c ++ [.define Ladder.expandMacro, .blank] ++ ((singlePart c).map .define ++ [.blank]) ++
    pairEntries c ++ ((tablePart c).map .define ++ [.blank]) ++ betweenEntries c ++
    registrationEntries c (registrationId c) ++ closingEntries c

end

/-! ## Numbers of the parts -/

/-- The numbers of `GET_MACRO` and the selectors, and the levels that each selector lists. -/
def tablesOf : Tables where
  counter := counterId c
  single := ⟨counterId c + 1, (singleLadder c).descending⟩
  pair := c.effectivePairPolicy.map fun _ => ⟨counterId c + 2, (doubleLadder c).descending⟩

/-- The numbers of the macros that servers use, when `ATTACH_FUNC` has the number `firstId`. -/
def registrationOf (firstId : Nat) : Registration where
  plain := ⟨firstId, firstId + 1⟩
  cached := ⟨firstId + 2, firstId + 3⟩
  aliases := c.effectivePairPolicy.map fun p =>
    ⟨p, ⟨firstId + 4, firstId + 5⟩, ⟨firstId + 6, firstId + 7⟩⟩
  defaultDispatch := firstId + if c.effectivePairPolicy.isSome then 8 else 4

end Header

/-! ## Emitting as writing -/

namespace Sheet

theorem named_emitAll (s : Sheet) (f : Nat → Macro) {k t : Nat} (hk : k < t) :
    (s.emitAll ((List.range t).map f)).Named (s.size + k) (f k).name := by
  refine ⟨f k, ?_, rfl⟩
  rw [toList_emitAll, size_eq, List.getElem?_append_right (Nat.le_add_right ..), Nat.add_sub_cancel_left,
    List.getElem?_map, List.getElem?_range hk]
  rfl

theorem emitSelector_eq {s : Sheet} {counter : Nat} {l : Ladder} {counterName : String}
    {listed : List String} (name : String) (expand : Nat) (hc : s.Named counter counterName)
    (hl : l.descending.map s.nameOf = listed) :
    s.emitSelector name counter expand l = (⟨s.size, l.descending⟩,
      s.emit (Selector.listing name counterName listed (expand :: counter :: l.descending))) := by
  rw [← hc.nameOf, ← hl]; rfl

theorem emitFamily_eq {s : Sheet} {selector : Nat} {selectorName : String} (one : Macro) (many : String)
    (doc : Option String) (h : s.Named selector selectorName) :
    s.emitFamily 0 selector one many doc = (⟨s.size, s.size + 1⟩,
      s.writeAll ((Header.familyPart one many selectorName selector s.size doc).map .define ++ [.blank])) := by
  rw [← (h.emit one).nameOf]
  have e := (named_emit s one).nameOf
  unfold emitFamily Header.familyPart
  rw [← e]
  rfl

theorem named_writeAll {s : Sheet} {es : List Entry} {id : Nat} {m : Macro}
    (h : (s.defs.toList ++ es.filterMap Entry.macro?)[id]? = some m) : (s.writeAll es).Named id m.name :=
  ⟨m, by rw [toList_writeAll, h], rfl⟩

theorem Named.writeAll {s : Sheet} {id : Nat} {name : String} (h : s.Named id name) (es : List Entry) :
    (s.writeAll es).Named id name :=
  h.mono (by rw [toList_writeAll]; exact List.prefix_append _ _)

theorem size_writeAll (s : Sheet) (es : List Entry) :
    (s.writeAll es).size = s.size + (es.filterMap Entry.macro?).length := by
  rw [size_eq, toList_writeAll, List.length_append, size_eq]

@[simp] theorem filterMap_blank : [Entry.blank].filterMap Entry.macro? = [] := rfl

theorem filterMap_defines (ms : List Macro) :
    (ms.map Entry.define).filterMap Entry.macro? = ms := by
  rw [List.filterMap_map]; exact List.filterMap_some

theorem descending_nameOf {s : Sheet} {base t : Nat} {name : Nat → String}
    (h : ∀ k < t, s.Named (base + k) (name k)) :
    (⟨List.range' base t⟩ : Ladder).descending.map s.nameOf = ((List.range t).map name).reverse := by
  rw [Ladder.descending, List.map_reverse, List.range'_eq_map_range, List.map_map]
  congr 1
  apply List.map_congr_left
  intro k hk
  exact (h k (List.mem_range.1 hk)).nameOf

end Sheet

namespace Header

open Sheet (Entry)

variable (c : Config)

theorem single_name (n : Naming) (expand base : Nat) : ∀ k, (Ladder.single n expand base k).name = n.level k
  | 0 | 1 | _ + 2 => rfl

theorem pair_name (n : Naming) (p : PairPolicy) (expand base : Nat) :
    ∀ k, (Ladder.pair n p expand base k).name = n.pairLevel k
  | 0 | 1 | 2 | _ + 3 => rfl

/-! ## The stages of a header -/

section

variable {c} {s : Sheet}

theorem opening_eq : opening c.wording = Sheet.empty.writeAll (openingEntries c) := by
  unfold opening openingEntries
  split <;> rfl

theorem emitLadder_eq (h : s.size = 1) :
    s.emitLadder c.naming 0 c.top = (singleLadder c, s.writeAll ((singlePart c).map .define)) := by
  rw [Sheet.emitLadder, Sheet.emitLevels, h, Sheet.writeAll_defines]; rfl

theorem emitPair_eq (h : s.size = c.top + 2) :
    emitPair s c.naming 0 c.top c.effectivePairPolicy =
      (c.effectivePairPolicy.map fun p => (p, doubleLadder c), s.writeAll (pairEntries c)) := by
  unfold pairEntries pairPart
  rcases c.effectivePairPolicy with _ | p
  · rfl
  · rw [Sheet.writeAll_append, Sheet.writeAll_defines]
    simp only [emitPair, Sheet.emitPairLadder, Sheet.emitLevels, h]
    rfl

theorem emitTables_eq (h : s.size = counterId c)
    (hl : ∀ k < c.top + 1, s.Named (1 + k) (c.naming.level k))
    (hp : c.effectivePairPolicy.isSome = true →
      ∀ k < c.top + 1, s.Named (c.top + 2 + k) (c.naming.pairLevel k)) :
    s.emitTables c.naming 0 c.top (singleLadder c)
        ((c.effectivePairPolicy.map fun p => (p, doubleLadder c)).map (·.2)) =
      (tablesOf c, s.writeAll ((tablePart c).map .define)) := by
  set m := Selector.counterMacro c.naming c.top with hm
  -- the selectors look up names that are in the sheet by then
  have hc : (s.emit m).Named (counterId c) c.naming.counter := h ▸ Sheet.named_emit s m
  have h1 := Sheet.emitSelector_eq c.naming.forEach 0 hc
    (Sheet.descending_nameOf fun k hk => (hl k hk).emit m)
  rw [Sheet.size_emit, h] at h1
  unfold Sheet.emitTables tablesOf tablePart
  rw [Sheet.emitCounter, h]
  simp only [← hm]
  rw [singleLadder, h1]
  rcases he : c.effectivePairPolicy with _ | p
  · rfl
  · have h2 := Sheet.emitSelector_eq c.naming.forEachPair 0 (hc.emit (forEachMacro c))
      (Sheet.descending_nameOf fun k hk => ((hp (by rw [he]; rfl) k hk).emit m).emit (forEachMacro c))
    rw [Sheet.size_emit, Sheet.size_emit, h] at h2
    exact congrArg (fun r : Selector × Sheet => ((⟨_, _, some r.1⟩ : Tables), r.2)) h2

theorem betweenParts_eq : betweenParts s c.naming c.wording = s.writeAll (betweenEntries c) := by
  unfold betweenParts betweenEntries
  split <;> rfl

theorem emitAttach_eq {first : Nat} (h : s.size = first) (hs : s.Named (counterId c + 1) c.naming.forEach)
    (cached : Bool) : s.emitAttach c.naming c.wording 0 (counterId c + 1) cached =
      (⟨first, first + 1⟩, s.writeAll ((attachPart c cached first).map .define ++ [.blank])) := by
  subst h
  exact Sheet.emitFamily_eq (attachOne c cached) _ _ hs

theorem emitAlias_eq {first : Nat} (h : s.size = first)
    (hs : s.Named (counterId c + 2) c.naming.forEachPair) (p : PairPolicy) (cached : Bool) :
    s.emitAlias c.naming c.wording p 0 (counterId c + 2) cached =
      (⟨first, first + 1⟩, s.writeAll ((aliasPart c p cached first).map .define ++ [.blank])) := by
  subst h
  exact Sheet.emitFamily_eq (aliasOne c cached) _ _ hs

theorem size_family (s : Sheet) (one : Macro) (many selector : String) (selectorId oneId : Nat)
    (doc : Option String) :
    (s.writeAll ((familyPart one many selector selectorId oneId doc).map .define ++ [.blank])).size =
      s.size + 2 := by
  rw [Sheet.size_writeAll]; rfl

theorem emitAliases_eq {first : Nat} (h : s.size = first)
    (hs : c.effectivePairPolicy.isSome = true → s.Named (counterId c + 2) c.naming.forEachPair) :
    s.emitAliases c.naming c.wording 0 (tablesOf c) c.effectivePairPolicy =
      (c.effectivePairPolicy.map fun p => ⟨p, ⟨first, first + 1⟩, ⟨first + 2, first + 3⟩⟩,
        s.writeAll (aliasesEntries c first)) := by
  unfold tablesOf aliasesEntries
  rcases he : c.effectivePairPolicy with _ | p
  · rfl
  · have hs := hs (by rw [he]; rfl)
    have h2 : (s.writeAll ((aliasPart c p false first).map .define ++ [.blank])).size = first + 2 := by
      rw [← h]; exact size_family ..
    simp only [Sheet.emitAliases, Option.map_some]
    rw [emitAlias_eq h hs]
    simp only
    rw [emitAlias_eq h2 (hs.writeAll _), ← Sheet.writeAll_append]

theorem emitRegistration_eq {first : Nat} (h : s.size = first)
    (hs : s.Named (counterId c + 1) c.naming.forEach)
    (hp : c.effectivePairPolicy.isSome = true → s.Named (counterId c + 2) c.naming.forEachPair) :
    s.emitRegistration c.naming c.wording 0 (tablesOf c) c.effectivePairPolicy =
      (registrationOf c first, s.writeAll (registrationEntries c first)) := by
  -- the sheets after each family, whose sizes are the numbers of the next
  set s1 := s.writeAll ((attachPart c false first).map .define ++ [.blank]) with h1
  set s2 := s1.writeAll ((attachPart c true (first + 2)).map .define ++ [.blank]) with h2
  set s3 := s2.writeAll (aliasesEntries c (first + 4)) with h3
  have e1 : s1.size = first + 2 := by rw [← h]; exact size_family ..
  have e2 : s2.size = first + 2 + 2 := by rw [← e1]; exact size_family ..
  have e3 : s3.size = (registrationOf c first).defaultDispatch := by
    rw [h3, Sheet.size_writeAll, e2]
    unfold aliasesEntries registrationOf
    rcases c.effectivePairPolicy with _ | p <;> rfl
  have hw : s.writeAll (registrationEntries c first) =
      s3.emit (Registration.defaultMacro c.naming c.wording 0 (first + 1)) := by
    rw [registrationEntries, Sheet.writeAll_append, Sheet.writeAll_append, Sheet.writeAll_append]; rfl
  rw [hw]
  unfold Sheet.emitRegistration
  simp only [tablesOf]
  rw [emitAttach_eq h hs]
  simp only
  rw [← h1, emitAttach_eq e1 (hs.writeAll _)]
  simp only
  rw [← h2]
  have ha := emitAliases_eq e2 fun he => ((hp he).writeAll _).writeAll _
  rw [tablesOf] at ha
  rw [ha]
  simp only
  rw [← h3, e3]
  rfl

theorem closing_eq : closing s c.wording = s.writeAll (closingEntries c) := by
  unfold closing closingEntries
  split <;> rfl

end

/-! ## The macros that are written -/

theorem filterMap_openingEntries : (openingEntries c).filterMap Entry.macro? = [] := by
  unfold openingEntries; split <;> rfl

theorem filterMap_pairEntries : (pairEntries c).filterMap Entry.macro? = pairPart c := by
  unfold pairEntries pairPart
  rcases c.effectivePairPolicy with _ | p
  · rfl
  · simp only [List.filterMap_append, Sheet.filterMap_defines, Sheet.filterMap_blank, List.append_nil]

theorem filterMap_betweenEntries : (betweenEntries c).filterMap Entry.macro? = headerFuncPart c := by
  unfold betweenEntries headerFuncPart; split <;> rfl

theorem filterMap_registrationEntries (firstId : Nat) :
    (registrationEntries c firstId).filterMap Entry.macro? = registrationPart c firstId := by
  unfold registrationEntries registrationPart aliasesEntries aliasesPart
  rcases c.effectivePairPolicy with _ | p
  all_goals
    simp only [List.filterMap_append, Sheet.filterMap_defines, Sheet.filterMap_blank, List.append_nil]
    rfl

theorem filterMap_closingEntries : (closingEntries c).filterMap Entry.macro? = [] := by
  unfold closingEntries; split <;> rfl

/-- The macros written by `entries` are those of `layout`, in the same order. -/
theorem filterMap_entries : (entries c).filterMap Entry.macro? = layout c := by
  simp only [entries, layout, List.filterMap_append, Sheet.filterMap_defines, filterMap_openingEntries,
    filterMap_pairEntries, filterMap_betweenEntries, filterMap_registrationEntries,
    filterMap_closingEntries, List.nil_append, List.append_nil,
    List.filterMap_cons, Entry.macro?, List.cons_append, List.append_assoc]

theorem length_singlePart : (singlePart c).length = c.top + 1 := by simp [singlePart]

theorem length_pairPart : (pairPart c).length = counterId c - (c.top + 2) := by
  unfold pairPart counterId
  rcases c.effectivePairPolicy with _ | p <;> simp

theorem length_tablePart :
    (tablePart c).length = 2 + if c.effectivePairPolicy.isSome then 1 else 0 := by
  unfold tablePart; split <;> rfl

theorem length_headerFuncPart : (headerFuncPart c).length = if c.wording.guarded then 2 else 0 := by
  unfold headerFuncPart; split <;> rfl

/-! ## The sheets between the stages -/

/-- The sheet after `EXPAND`. -/
def openingSheet : Sheet := Sheet.empty.writeAll (openingEntries c ++ [.define Ladder.expandMacro, .blank])

/-- The sheet after the levels `FE_k`. -/
def singleSheet : Sheet := (openingSheet c).writeAll ((singlePart c).map .define ++ [.blank])

/-- The sheet after the levels `FE2_k`. -/
def pairSheet : Sheet := (singleSheet c).writeAll (pairEntries c)

/-- The sheet after `GET_MACRO` and the selectors. -/
def tableSheet : Sheet := (pairSheet c).writeAll ((tablePart c).map .define ++ [.blank])

/-- The sheet before `ATTACH_FUNC`. -/
def betweenSheet : Sheet := (tableSheet c).writeAll (betweenEntries c)

theorem size_openingSheet : (openingSheet c).size = 1 := by
  rw [openingSheet, Sheet.size_writeAll, List.filterMap_append, filterMap_openingEntries]; rfl

theorem size_singleSheet : (singleSheet c).size = c.top + 2 := by
  rw [singleSheet, Sheet.size_writeAll, size_openingSheet, List.filterMap_append, Sheet.filterMap_defines,
    Sheet.filterMap_blank, List.append_nil, length_singlePart]
  omega

theorem size_pairSheet : (pairSheet c).size = counterId c := by
  rw [pairSheet, Sheet.size_writeAll, size_singleSheet, filterMap_pairEntries, length_pairPart]
  unfold counterId; split <;> omega

theorem size_betweenSheet : (betweenSheet c).size = registrationId c := by
  rw [betweenSheet, Sheet.size_writeAll, tableSheet, Sheet.size_writeAll, size_pairSheet,
    filterMap_betweenEntries, List.filterMap_append, Sheet.filterMap_defines, Sheet.filterMap_blank,
    List.append_nil, length_tablePart, length_headerFuncPart, registrationId]
  omega

theorem named_single {k : Nat} (hk : k < c.top + 1) : (pairSheet c).Named (1 + k) (c.naming.level k) := by
  rw [pairSheet, singleSheet, Sheet.writeAll_append, Sheet.writeAll_defines]
  apply Sheet.Named.writeAll
  apply Sheet.Named.writeAll
  have h := Sheet.named_emitAll (openingSheet c) (Ladder.single c.naming 0 1) hk
  rwa [size_openingSheet, single_name] at h

theorem named_pair (he : c.effectivePairPolicy.isSome = true) {k : Nat} (hk : k < c.top + 1) :
    (pairSheet c).Named (c.top + 2 + k) (c.naming.pairLevel k) := by
  obtain ⟨p, he⟩ := Option.isSome_iff_exists.1 he
  rw [pairSheet, pairEntries, he]
  simp only [pairPart, he]
  rw [Sheet.writeAll_append, Sheet.writeAll_defines]
  apply Sheet.Named.writeAll
  have h := Sheet.named_emitAll (singleSheet c) (Ladder.pair c.naming p 0 (c.top + 2)) hk
  rwa [size_singleSheet, pair_name] at h

theorem named_table {i : Nat} {m : Macro} (h : (tablePart c)[i]? = some m) :
    (betweenSheet c).Named (counterId c + i) m.name := by
  apply Sheet.Named.writeAll
  apply Sheet.named_writeAll
  rw [List.filterMap_append, Sheet.filterMap_defines, Sheet.filterMap_blank, List.append_nil,
    ← size_pairSheet c, Sheet.size_eq, List.getElem?_append_right (Nat.le_add_right ..),
    Nat.add_sub_cancel_left, h]

/-! ## The whole header -/

/-- Building a header writes `entries`, and gives each part the numbers it has in `layout`. -/
theorem build_eq : build c = ⟨c, Sheet.empty.writeAll (entries c), singleLadder c,
    c.effectivePairPolicy.map fun p => (p, doubleLadder c), tablesOf c,
    registrationOf c (registrationId c)⟩ := by
  have h1 : (opening c.wording).emitExpand =
      (0, Sheet.empty.writeAll (openingEntries c ++ [.define Ladder.expandMacro])) := by
    rw [opening_eq, Sheet.emitExpand, Sheet.size_writeAll, filterMap_openingEntries, Sheet.writeAll_append]
    rfl
  have b1 : (Sheet.empty.writeAll (openingEntries c ++ [.define Ladder.expandMacro])).blank =
      openingSheet c := by
    rw [openingSheet, Sheet.writeAll_append, Sheet.writeAll_append]; rfl
  have b2 : ((openingSheet c).writeAll ((singlePart c).map .define)).blank = singleSheet c := by
    rw [singleSheet, Sheet.writeAll_append]; rfl
  have b4 : ((pairSheet c).writeAll ((tablePart c).map .define)).blank = tableSheet c := by
    rw [tableSheet, Sheet.writeAll_append]; rfl
  have h3 : emitPair (singleSheet c) c.naming 0 c.top c.effectivePairPolicy = (_, pairSheet c) :=
    emitPair_eq (size_singleSheet c)
  have h5 : betweenParts (tableSheet c) c.naming c.wording = betweenSheet c := betweenParts_eq
  have h4 := emitTables_eq (size_pairSheet c) (fun k hk => named_single c hk)
    fun he k hk => named_pair c he hk
  have h6 := emitRegistration_eq (size_betweenSheet c) (named_table c (m := forEachMacro c) rfl)
    fun he => named_table c (m := forEachPairMacro c) (by rw [tablePart, if_pos he]; rfl)
  have hw : ((betweenSheet c).writeAll (registrationEntries c (registrationId c))).writeAll
      (closingEntries c) = Sheet.empty.writeAll (entries c) := by
    simp only [entries, betweenSheet, tableSheet, pairSheet, singleSheet, openingSheet,
      Sheet.writeAll_append]
  unfold build
  simp only [show (⟨c.stem⟩ : Naming) = c.naming from rfl, show Wording.of c.variant = c.wording from rfl,
    show c.maxArity.toNat = c.top from rfl, h1, b1, emitLadder_eq (size_openingSheet c), b2,
    h3, h4, b4, h5, h6, closing_eq, hw]

end Header

end NamedDispatch
