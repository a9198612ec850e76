/-
Headers that differ in the stem of their names only. They are laid out alike, and their macros differ in nothing
but names: the second has its own name in place of the first's, as the name of each macro and wherever a body
uses one.
-/
import NamedDispatch.Proofs.Header.Bodies
import NamedDispatch.Proofs.Header.Generated

namespace NamedDispatch

open Text (Kept)

/-! ## Lines -/

namespace Sheet

/-- What a step of writing writes, whichever the macro. -/
def Entry.kind : Entry → Line
  | define _ => .define 0
  | directive text => .directive text
  | blank => .blank

variable {s s' : Sheet}

theorem lines_write (hs : s.size = s'.size) (hl : s.lines = s'.lines) {e e' : Entry} (h : e.kind = e'.kind) :
    (s.write e).size = (s'.write e').size ∧ (s.write e).lines = (s'.write e').lines := by
  cases e <;> cases e' <;> cases h
  · exact ⟨by rw [write, write, size_emit, size_emit, hs], by rw [write, write, emit, emit, hs, hl]⟩
  · exact ⟨hs, by rw [write, write, directive, directive, hl]⟩
  · refine ⟨by rwa [write, write, size, size, defs_blank, defs_blank], ?_⟩
    rw [write, write, blank, blank, ← hl]
    split
    · exact hl
    · exact hl
    · rfl

/-- Which lines there are depends on what is written in which order only. -/
theorem lines_writeAll (hs : s.size = s'.size) (hl : s.lines = s'.lines) {es es' : List Entry}
    (h : es.map Entry.kind = es'.map Entry.kind) :
    (s.writeAll es).size = (s'.writeAll es').size ∧ (s.writeAll es).lines = (s'.writeAll es').lines := by
  induction es generalizing es' s s' with
  | nil =>
    obtain rfl := List.map_eq_nil_iff.1 h.symm
    exact ⟨hs, hl⟩
  | cons e es ih =>
    cases es' with
    | nil => cases h
    | cons e' es' =>
      obtain ⟨he, hes⟩ := List.cons.inj h
      obtain ⟨hs, hl⟩ := lines_write hs hl he
      exact ih hs hl hes

end Sheet

/-! ## Macros of two headers -/

/-- The macro `m'` is `m` in a header with the stem `q` in place of `p`: its name has the other stem, its body
the names that `f` gives for those it uses, and nothing else differs. -/
structure Macro.Renamed (p q : String) (f : String → String) (m m' : Macro) : Prop where
  name : m.name = expandName ∧ m'.name = expandName ∨ ∃ suffix, m.name = p ++ suffix ∧ m'.name = q ++ suffix
  role : m'.role = m.role
  params : m'.params = m.params
  refs : m'.refs = m.refs
  doc : m'.doc = m.doc
  body : m'.body = Text.rename f m.body

namespace Header

/-- The renaming `f` gives for each name of the header of `c` the name that the header with the stem `q` has
under the same number, and spares all other words. -/
structure Renames (c : Config) (q : String) (f : String → String) : Prop where
  spares : Naming.Spares f
  names : ∀ (id : Nat) m m', (layout c)[id]? = some m → (layout (c.withStem q))[id]? = some m' →
    m.role ≠ .headerFunc → f m.name = m'.name

namespace Renames

variable {c : Config} {q : String} {f : String → String} (h : Renames c q f)
include h

theorem level {k : Nat} (hk : k ≤ c.top) : f (c.naming.level k) = (c.withStem q).naming.level k := by
  have := h.names (1 + k) _ _ (layout_single c hk) (layout_single (c.withStem q) hk)
  rw [single_name, single_name] at this
  exact this (by match k with | 0 | 1 | _ + 2 => nofun)

theorem pairLevel {p : PairPolicy} (hp : c.effectivePairPolicy = some p) {k : Nat} (hk : k ≤ c.top) :
    f (c.naming.pairLevel k) = (c.withStem q).naming.pairLevel k := by
  have := h.names (c.top + 2 + k) _ _ (layout_pair c hp hk) (layout_pair (c.withStem q) hp hk)
  rw [pair_name, pair_name] at this
  exact this (by match k with | 0 | 1 | 2 | _ + 3 => nofun)

theorem counter : f c.naming.counter = (c.withStem q).naming.counter :=
  h.names (counterId c) _ _ (layout_table c (i := 0) rfl) (layout_table (c.withStem q) (i := 0) rfl) nofun

theorem forEach : f c.naming.forEach = (c.withStem q).naming.forEach :=
  h.names (counterId c + 1) _ _ (layout_table c (i := 1) rfl) (layout_table (c.withStem q) (i := 1) rfl) nofun

theorem forEachPair {p : PairPolicy} (hp : c.effectivePairPolicy = some p) :
    f c.naming.forEachPair = (c.withStem q).naming.forEachPair := by
  have third (c : Config) (hp : c.effectivePairPolicy = some p) :
      (layout c)[counterId c + 2]? = some (forEachPairMacro c) :=
    layout_table c (i := 2) (by rw [tablePart, hp]; rfl)
  exact h.names (counterId c + 2) _ _ (third c hp) (third (c.withStem q) hp)
    (show Role.selector ≠ .headerFunc by decide)

theorem registration {i : Nat} {m m' : Macro} (hm : (registrationPart c (registrationId c))[i]? = some m)
    (hm' : (registrationPart (c.withStem q) (registrationId c))[i]? = some m') : f m.name = m'.name := by
  refine h.names (registrationId c + i) m m' (layout_registration c hm) (layout_registration (c.withStem q) hm') ?_
  rw [role_registrationPart c _ m (List.mem_of_getElem? hm)]
  nofun

end Renames

/-! ## Parts -/

section

variable {c : Config} {q : String} {f : String → String} (h : Renames c q f)
include h

theorem renamed_single (hs : Text.isStem c.stem = true) {k : Nat} (hk : k ≤ c.top) :
    Macro.Renamed c.stem q f (Ladder.single c.naming 0 1 k) (Ladder.single (c.withStem q).naming 0 1 k) := by
  have name : ∃ suffix, (Ladder.single c.naming 0 1 k).name = c.stem ++ suffix ∧
      (Ladder.single (c.withStem q).naming 0 1 k).name = q ++ suffix := by
    rw [single_name, single_name]
    exact ⟨_, Naming.level_eq _ k, Naming.level_eq _ k⟩
  have nothing : Kept f "" := h.spares.kept_ofList (by decide)
  have applied : Kept f "WHAT(X)" := h.spares.kept_ofList (by decide)
  match k with
  | 0 => exact ⟨.inr name, rfl, rfl, rfl, rfl, nothing.symm⟩
  | 1 => exact ⟨.inr name, rfl, rfl, rfl, rfl, applied.symm⟩
  | k + 2 =>
    have below := ((Naming.proper_level (n := c.naming) hs (k + 1)).rename f).trans (h.level (by omega))
    exact ⟨.inr name, rfl, rfl, rfl, rfl, (h.spares.rename_levelBody below).symm⟩

theorem renamed_pair (hs : Text.isStem c.stem = true) {p : PairPolicy} (hp : c.effectivePairPolicy = some p) {k : Nat}
    (hk : k ≤ c.top) : Macro.Renamed c.stem q f (Ladder.pair c.naming p 0 (c.top + 2) k)
      (Ladder.pair (c.withStem q).naming p 0 (c.top + 2) k) := by
  have name : ∃ suffix, (Ladder.pair c.naming p 0 (c.top + 2) k).name = c.stem ++ suffix ∧
      (Ladder.pair (c.withStem q).naming p 0 (c.top + 2) k).name = q ++ suffix := by
    rw [pair_name, pair_name]
    exact ⟨_, Naming.pairLevel_eq _ k, Naming.pairLevel_eq _ k⟩
  have nothing : Kept f "" := h.spares.kept_ofList (by decide)
  have applied : Kept f "WHAT(X, Y)" := h.spares.kept_ofList (by decide)
  match k with
  | 0 | 1 => exact ⟨.inr name, rfl, rfl, rfl, rfl, nothing.symm⟩
  | 2 => exact ⟨.inr name, rfl, rfl, rfl, rfl, applied.symm⟩
  | k + 3 =>
    have below := ((Naming.proper_pairLevel (n := c.naming) hs (k + 3 - p.step)).rename f).trans
      (h.pairLevel hp (by omega))
    exact ⟨.inr name, rfl, rfl, rfl, rfl, (h.spares.rename_pairLevelBody below p).symm⟩

theorem renamed_listing (hs : Text.isStem c.stem = true) (suffix : String) {level level' : Nat → String}
    (hl : ∀ k, Naming.Proper (level k)) (hf : ∀ k < c.top + 1, f (level k) = level' k) (refs : List Nat) :
    Macro.Renamed c.stem q f
      (Selector.listing (c.stem ++ suffix) c.naming.counter ((List.range (c.top + 1)).map level).reverse refs)
      (Selector.listing (q ++ suffix) (c.withStem q).naming.counter
        ((List.range (c.top + 1)).map level').reverse refs) := by
  have counter := ((Naming.proper_counter (n := c.naming) hs).rename f).trans h.counter
  have listed : (((List.range (c.top + 1)).map level).reverse).map f =
      ((List.range (c.top + 1)).map level').reverse := by
    rw [List.map_reverse, List.map_map]
    exact congrArg List.reverse (List.map_congr_left fun k hk => hf k (List.mem_range.1 hk))
  refine ⟨.inr ⟨suffix, rfl, rfl⟩, rfl, rfl, rfl, rfl, ?_⟩
  rw [Selector.listing, Selector.listing, h.spares.rename_selectorBody counter fun w hw =>
    (proper_listed hl (c.top + 1) w hw).identifier, listed]

theorem renamed_tablePart (hs : Text.isStem c.stem = true) :
    List.Forall₂ (Macro.Renamed c.stem q f) (tablePart c) (tablePart (c.withStem q)) := by
  have result : Kept f "NAME" := h.spares.kept_ofList (by decide)
  have counter : Macro.Renamed c.stem q f (Selector.counterMacro c.naming c.top)
      (Selector.counterMacro (c.withStem q).naming c.top) :=
    ⟨.inr ⟨"GET_MACRO", rfl, rfl⟩, rfl, rfl, rfl, rfl, result.symm⟩
  have single : Macro.Renamed c.stem q f (forEachMacro c) (forEachMacro (c.withStem q)) :=
    renamed_listing h hs "FOR_EACH" (Naming.proper_level (n := c.naming) hs)
      (fun k hk => h.level (Nat.le_of_lt_succ hk)) _
  unfold tablePart
  rw [show (c.withStem q).effectivePairPolicy = c.effectivePairPolicy from rfl]
  rcases hp : c.effectivePairPolicy with _ | p
  · exact .cons counter (.cons single .nil)
  · have pair : Macro.Renamed c.stem q f (forEachPairMacro c) (forEachPairMacro (c.withStem q)) :=
      renamed_listing h hs "FOR_EACH2" (Naming.proper_pairLevel (n := c.naming) hs)
        (fun k hk => h.pairLevel hp (Nat.le_of_lt_succ hk)) _
    exact .cons counter (.cons single (.cons pair .nil))

theorem renamed_headerFuncPart :
    List.Forall₂ (Macro.Renamed c.stem q f) (headerFuncPart c) (headerFuncPart (c.withStem q)) := by
  have server : Kept f "extern RETURN (*FUNCNAME)(__VA_ARGS__)" := h.spares.kept_ofList (by decide)
  have client : Kept f "RETURN (*FUNCNAME)(__VA_ARGS__) = nullptr" := h.spares.kept_ofList (by decide)
  unfold headerFuncPart
  rw [show (c.withStem q).wording = c.wording from rfl]
  split
  · exact .cons ⟨.inr ⟨"HEADER_FUNC", rfl, rfl⟩, rfl, rfl, rfl, rfl, server.symm⟩
      (.cons ⟨.inr ⟨"HEADER_FUNC", rfl, rfl⟩, rfl, rfl, rfl, rfl, client.symm⟩ .nil)
  · exact .nil

/-! ### Macros that servers use -/

/-- A macro that runs one function in a branch, such as `ATTACH_FUNC`; its body names no macro. -/
theorem renamed_one {name name' matched : String} (hn : ∃ suffix, name = c.stem ++ suffix ∧ name' = q ++ suffix)
    (hm : Kept f matched) (params : List String) (cached : Bool) (doc : Option String) :
    Macro.Renamed c.stem q f
      (Registration.oneMacro name params (c.wording.branch matched "FUNCNAME" cached) doc)
      (Registration.oneMacro name' params (c.wording.branch matched "FUNCNAME" cached) doc) := by
  have func : Text.rename f "FUNCNAME" = "FUNCNAME" := h.spares.kept_ofList (by decide)
  have body := h.spares.rename_branch c.variant matched "FUNCNAME" cached
  rw [hm, func] at body
  exact ⟨.inr hn, rfl, rfl, rfl, rfl, body.symm⟩

omit h in
theorem renamed_familyPart (hf : Naming.Spares f) {one one' : Macro} {many many' selector selector' p : String}
    (hone : Macro.Renamed p q f one one') (hi : Text.isIdentifier one.name = true) (ho : f one.name = one'.name)
    (hp : one.params = ["FUNCNAME"] ∨ one.params = ["FUNCNAME", "FUNC_ALIAS"])
    (hn : ∃ suffix, many = p ++ suffix ∧ many' = q ++ suffix) (hs : Text.rename f selector = selector')
    (selectorId oneId : Nat) (doc : Option String) :
    List.Forall₂ (Macro.Renamed p q f) (familyPart one many selector selectorId oneId doc)
      (familyPart one' many' selector' selectorId oneId doc) := by
  have body := hf.rename_repeatingBody hs hi hp
  refine .cons hone (.cons ⟨.inr hn, rfl, ?_, rfl, rfl, ?_⟩ .nil)
  · rw [Registration.repeating, Registration.repeating, hone.params]
  · rw [Registration.repeating, Registration.repeating, hone.params, body, ho]

theorem renamed_attachPart (hs : Text.isStem c.stem = true) (cached : Bool)
    (ho : f (c.naming.attach cached) = (c.withStem q).naming.attach cached) (oneId : Nat) :
    List.Forall₂ (Macro.Renamed c.stem q f) (attachPart c cached oneId) (attachPart (c.withStem q) cached oneId) := by
  have matched : Kept f "#FUNCNAME" := h.spares.kept_ofList (by decide)
  have one : Macro.Renamed c.stem q f (attachOne c cached) (attachOne (c.withStem q) cached) :=
    renamed_one h ⟨_, Naming.attach_eq _ cached, Naming.attach_eq _ cached⟩ matched _ cached _
  exact renamed_familyPart h.spares one (Naming.proper_attach (n := c.naming) hs cached).identifier ho (.inl rfl)
    ⟨_, Naming.attachMany_eq _ cached, Naming.attachMany_eq _ cached⟩
    (((Naming.proper_forEach (n := c.naming) hs).rename f).trans h.forEach) _ oneId _

theorem renamed_aliasPart (hs : Text.isStem c.stem = true) {p : PairPolicy} (hp : c.effectivePairPolicy = some p)
    (cached : Bool) (ho : f (c.naming.singleAlias cached) = (c.withStem q).naming.singleAlias cached) (oneId : Nat) :
    List.Forall₂ (Macro.Renamed c.stem q f) (aliasPart c p cached oneId)
      (aliasPart (c.withStem q) p cached oneId) := by
  have matched : Kept f "#FUNC_ALIAS" := h.spares.kept_ofList (by decide)
  have one : Macro.Renamed c.stem q f (aliasOne c cached) (aliasOne (c.withStem q) cached) :=
    renamed_one h ⟨_, Naming.singleAlias_eq _ cached, Naming.singleAlias_eq _ cached⟩ matched _ cached _
  have many : ∃ suffix, Registration.aliasManyName c.naming p cached = c.stem ++ suffix ∧
      Registration.aliasManyName (c.withStem q).naming p cached = q ++ suffix := by
    cases p with
    | holdFirst => exact ⟨_, Naming.multiAlias_eq _ cached, Naming.multiAlias_eq _ cached⟩
    | advanceBoth => exact ⟨_, Naming.aliasPairs_eq _ cached, Naming.aliasPairs_eq _ cached⟩
  exact renamed_familyPart h.spares one (Naming.proper_singleAlias (n := c.naming) hs cached).identifier ho (.inr rfl)
    many (((Naming.proper_forEachPair (n := c.naming) hs).rename f).trans (h.forEachPair hp)) _ oneId _

theorem renamed_registrationPart (hs : Text.isStem c.stem = true) :
    List.Forall₂ (Macro.Renamed c.stem q f) (registrationPart c (registrationId c))
      (registrationPart (c.withStem q) (registrationId c)) := by
  have plain := renamed_attachPart h hs false (h.registration (i := 0) rfl rfl) (registrationId c)
  have cached := renamed_attachPart h hs true (h.registration (i := 2) rfl rfl) (registrationId c + 2)
  have aliases : List.Forall₂ (Macro.Renamed c.stem q f) (aliasesPart c (registrationId c + 4))
      (aliasesPart (c.withStem q) (registrationId c + 4)) := by
    have found (c : Config) {p : PairPolicy} (hp : c.effectivePairPolicy = some p) (first : Nat) :
        (registrationPart c first)[4]? = some (aliasOne c false) ∧
          (registrationPart c first)[6]? = some (aliasOne c true) := by
      rw [registrationPart, aliasesPart, hp]
      exact ⟨rfl, rfl⟩
    unfold aliasesPart
    rw [show (c.withStem q).effectivePairPolicy = c.effectivePairPolicy from rfl]
    rcases hp : c.effectivePairPolicy with _ | p
    · exact .nil
    · have first := found c hp (registrationId c)
      have second := found (c.withStem q) hp (registrationId c)
      exact List.rel_append (renamed_aliasPart h hs hp false (h.registration first.1 second.1) _)
        (renamed_aliasPart h hs hp true (h.registration first.2 second.2) _)
  have many : f (c.naming.attachMany false) = (c.withStem q).naming.attachMany false := h.registration (i := 1) rfl rfl
  have last : Macro.Renamed c.stem q f (Registration.defaultMacro c.naming c.wording 0 (registrationId c + 1))
      (Registration.defaultMacro (c.withStem q).naming c.wording 0 (registrationId c + 1)) :=
    ⟨.inr ⟨"DEFAULT_DISPATCH", rfl, rfl⟩, rfl, rfl, rfl, rfl, (h.spares.rename_defaultBody
      (((Naming.proper_attachMany (n := c.naming) hs false).rename f).trans many) c.variant).symm⟩
  exact List.rel_append (List.rel_append (List.rel_append plain cached) aliases) (.cons last .nil)

/-- Each macro of a header has its counterpart in the header with another stem. -/
theorem renamed_layout (hs : Text.isStem c.stem = true) :
    List.Forall₂ (Macro.Renamed c.stem q f) (layout c) (layout (c.withStem q)) := by
  have argument : Kept f "x" := h.spares.kept_ofList (by decide)
  have expand : Macro.Renamed c.stem q f Ladder.expandMacro Ladder.expandMacro :=
    ⟨.inl ⟨rfl, rfl⟩, rfl, rfl, rfl, rfl, argument.symm⟩
  have single : List.Forall₂ (Macro.Renamed c.stem q f) (singlePart c) (singlePart (c.withStem q)) := by
    rw [singlePart, singlePart, List.forall₂_map_left_iff, List.forall₂_map_right_iff]
    exact List.forall₂_same.2 fun k hk => renamed_single h hs (Nat.le_of_lt_succ (List.mem_range.1 hk))
  have pair : List.Forall₂ (Macro.Renamed c.stem q f) (pairPart c) (pairPart (c.withStem q)) := by
    unfold pairPart
    rw [show (c.withStem q).effectivePairPolicy = c.effectivePairPolicy from rfl]
    rcases hp : c.effectivePairPolicy with _ | p
    · exact .nil
    · refine List.forall₂_map_left_iff.2 (List.forall₂_map_right_iff.2 (List.forall₂_same.2 fun k hk => ?_))
      exact renamed_pair h hs hp (Nat.le_of_lt_succ (List.mem_range.1 hk))
  exact .cons expand (List.rel_append (List.rel_append (List.rel_append (List.rel_append single pair)
    (renamed_tablePart h hs)) (renamed_headerFuncPart h)) (renamed_registrationPart h hs))

end

/-! ## Lines of two headers -/

section

open Sheet (Entry)
open Sheet.Entry (kind)

/-- The stem has no part in what is written in which place. -/
theorem kind_entries (c : Config) (q : String) : (entries c).map kind = (entries (c.withStem q)).map kind := by
  have between : (betweenEntries c).map kind = (betweenEntries (c.withStem q)).map kind := by
    unfold betweenEntries
    rw [show (c.withStem q).wording = c.wording from rfl]
    split <;> rfl
  have pair : (pairEntries c).map kind = (pairEntries (c.withStem q)).map kind := by
    unfold pairEntries pairPart
    rw [show (c.withStem q).effectivePairPolicy = c.effectivePairPolicy from rfl]
    rcases c.effectivePairPolicy with _ | p
    · rfl
    · simp only [List.map_append, List.map_map]
      rfl
  have table : ((tablePart c).map Entry.define).map kind = ((tablePart (c.withStem q)).map Entry.define).map kind := by
    unfold tablePart
    rw [show (c.withStem q).effectivePairPolicy = c.effectivePairPolicy from rfl]
    split <;> rfl
  have registration (first : Nat) :
      (registrationEntries c first).map kind = (registrationEntries (c.withStem q) first).map kind := by
    unfold registrationEntries aliasesEntries
    rw [show (c.withStem q).effectivePairPolicy = c.effectivePairPolicy from rfl]
    rcases c.effectivePairPolicy with _ | p <;> rfl
  have single : ((singlePart c).map Entry.define).map kind =
      ((singlePart (c.withStem q)).map Entry.define).map kind := by
    simp only [singlePart, List.map_map]
    rfl
  simp only [entries, List.map_append, between, pair, table, single, registration]
  rfl

/-- Headers that differ in their stems have the same lines, and as many macros. -/
theorem lines_withStem (c : Config) (q : String) :
    (build (c.withStem q)).sheet.size = (build c).sheet.size ∧
      (build (c.withStem q)).sheet.lines = (build c).sheet.lines := by
  rw [build_eq, build_eq]
  exact Sheet.lines_writeAll rfl rfl (kind_entries c q).symm

end

/-! ## Two stems -/

/-- The name that `h'` has under the number of a name of `h`; any other word is its own counterpart. -/
def counterpart (h h' : Header) (name : String) : String :=
  match h.sheet.lookup name with
  | some id => h'.sheet.nameOf id
  | none => name

theorem renames_counterpart (c : Config) (q : String) :
    Renames c q (counterpart (build c) (build (c.withStem q))) where
  spares := {
    plain := fun w hw => by rw [counterpart, lookup_build_eq_none c hw]
    expand := by
      have hl : (build c).sheet.lookup expandName = some 0 := lookup_build c (layout_expand c) nofun
      rw [counterpart, hl]
      exact nameOf_build (c.withStem q) (layout_expand (c.withStem q)) }
  names id m m' hm hm' hr := by
    rw [counterpart, lookup_build c hm hr]
    exact nameOf_build (c.withStem q) hm'

/-- The headers of two legal stems and an otherwise equal configuration have the same lines and as many macros,
and under each number these have the same role, parameters, references and note. Their names are both `EXPAND`,
or else end alike after the stem of each, and the second's body is the first's with each word that names a macro
of the first header replaced by the name that this macro has in the second. -/
theorem stems_agree (c : Config) (hn : c.maxArity.toNat ≤ 4096) {p q : String} (hp : Text.isStem p = true)
    (hq : Text.isStem q = true) : ∃ h h', generate (c.withStem p) = .ok h ∧ generate (c.withStem q) = .ok h' ∧
      h'.sheet.lines = h.sheet.lines ∧ h'.sheet.size = h.sheet.size ∧
      ∀ (id : Nat) m m', h.sheet.defs[id]? = some m → h'.sheet.defs[id]? = some m' →
        Macro.Renamed p q (counterpart h h') m m' := by
  have generated {s : String} (hs : Text.isStem s = true) : generate (c.withStem s) = .ok (build (c.withStem s)) := by
    rw [generate_eq]
    exact (if_neg (Nat.not_lt.2 hn)).trans (if_pos hs)
  obtain ⟨size, lines⟩ := lines_withStem (c.withStem p) q
  refine ⟨_, _, generated hp, generated hq, lines, size, fun id m m' hm hm' => ?_⟩
  rw [← Array.getElem?_toList, toList_build] at hm hm'
  obtain ⟨hi, rfl⟩ := List.getElem?_eq_some_iff.1 hm
  obtain ⟨hi', rfl⟩ := List.getElem?_eq_some_iff.1 hm'
  exact (List.forall₂_iff_get.1 (renamed_layout (renames_counterpart (c.withStem p) q) hp)).2 id hi hi'

/-- The `classic` header, and the one with the stem `My2_`. -/
theorem stems_agree_classic : ∃ h h', generate ((Config.forVariant .classic).withStem "RPC_") = .ok h ∧
    generate ((Config.forVariant .classic).withStem "My2_") = .ok h' ∧ h'.sheet.lines = h.sheet.lines ∧
    ∀ (id : Nat) m m', h.sheet.defs[id]? = some m → h'.sheet.defs[id]? = some m' →
      m'.body = Text.rename (counterpart h h') m.body := by
  obtain ⟨h, h', hg, hg', lines, _, macros⟩ := stems_agree (Config.forVariant .classic) (by decide)
    (show Text.isStem "RPC_" = true by decide) (show Text.isStem "My2_" = true by decide)
  exact ⟨h, h', hg, hg', lines, fun id m m' hm hm' => (macros id m m' hm hm').body⟩

end Header

end NamedDispatch
