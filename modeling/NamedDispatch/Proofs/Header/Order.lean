/-
Macros are written after what they use. A sheet is in order when in every body the names are those of the
macros recorded and these come before it, and each stage that writes on a sheet keeps it in order, provided
that what the stage refers to is there already.
-/
import NamedDispatch.Proofs.Header.Audit

namespace NamedDispatch

open Naming (mentions isName)

/-! ## Names in bodies -/

theorem mentions_expanded (text : String) : mentions (Ladder.expanded text) = expandName :: mentions text := by
  rw [Ladder.expanded, Naming.mentions_append_of_startsApart _ (by decide),
    Naming.mentions_append_of_endsApart (by decide), show mentions (expandName ++ "(") = [expandName] by decide,
    show mentions ")" = [] by decide, List.append_nil]
  rfl

theorem isName_counterParams (t : Nat) : ∀ p ∈ Selector.counterParams t, isName p = false := by
  intro p hp
  rw [Selector.counterParams, List.mem_append] at hp
  rcases hp with hp | hp
  · obtain ⟨k, -, rfl⟩ := List.mem_map.1 hp
    -- once its digits are gone only the underscore is left
    have hd : List.dropWhile Char.isDigit ("_" ++ toString k).toList.reverse = ['_'] := by
      rw [String.toList_append, List.reverse_append, List.dropWhile_append_of_pos fun c hc =>
        isDigit_of_mem_toString (List.mem_reverse.1 hc)]
      rfl
    have he : ("_" ++ toString k == expandName) = false := by
      rw [beq_eq_false_iff_ne]
      intro h
      have := congrArg (fun s : String => s.toList.head?) h
      rw [String.toList_append] at this
      cases this
    rw [isName, he, Bool.false_or, Naming.endsLikeName, Naming.endsLike, hd]
    decide
  · revert p
    decide

theorem proper_listed {name : Nat → String} (h : ∀ k, Naming.Proper (name k)) (t : Nat) :
    ∀ w ∈ ((List.range t).map name).reverse, Naming.Proper w := by
  intro w hw
  obtain ⟨k, -, rfl⟩ := List.mem_map.1 (List.mem_reverse.1 hw)
  exact h k

/-- A selector mentions `EXPAND`, `GET_MACRO` and the levels it lists. -/
theorem mentions_selectorBody {counter : String} (hc : Naming.Proper counter) {listed : List String}
    (h : ∀ w ∈ listed, Naming.Proper w) :
    mentions (Selector.body counter listed) = expandName :: counter :: listed := by
  rw [Selector.body, mentions_expanded, Naming.mentions_append_of_startsApart _ (by decide),
    Naming.mentions_append_of_endsApart (Text.endsApart_append _ (by decide)),
    Naming.mentions_append_of_startsApart _ (by decide), hc.mentions, Macro.commaList, Naming.mentions_commaList h,
    show mentions "(_0, __VA_ARGS__, " = [] by decide, show mentions ")(ACTION, __VA_ARGS__)" = [] by decide,
    List.append_nil, List.append_nil]
  rfl

/-! ### Texts of the variants -/

namespace Wording

theorem mentions_dispatchExpr (v : Variant) (func : String) (cached : Bool) :
    mentions ((Wording.of v).dispatchExpr func cached) = mentions func := by
  cases v <;> cases cached
  all_goals
    exact Naming.mentions_around (by decide +kernel) (by decide +kernel)
      (Naming.mentions_ofList (by decide)) (Naming.mentions_ofList (by decide)) func

/-- A branch mentions the names in what it matches and in the function it runs. -/
theorem mentions_branch (v : Variant) (matched func : String) (cached : Bool) :
    mentions ((Wording.of v).branch matched func cached) = mentions matched ++ mentions func := by
  have opening : mentions ("if (func_name == " ++ matched ++ ") \x7b return ") = mentions matched :=
    Naming.mentions_around (by decide) (by decide) (Naming.mentions_ofList (by decide))
      (Naming.mentions_ofList (by decide)) matched
  have closing : mentions "; \x7d" = [] := Naming.mentions_ofList (by decide)
  calc
    _ = mentions ("if (func_name == " ++ matched ++ ") \x7b return " ++ (Wording.of v).dispatchExpr func cached) ++
        mentions "; \x7d" := Naming.mentions_append_of_startsApart _ (by decide)
    _ = mentions ("if (func_name == " ++ matched ++ ") \x7b return ") ++
        mentions ((Wording.of v).dispatchExpr func cached) := by
      rw [closing, List.append_nil]
      exact Naming.mentions_append_of_endsApart (Text.endsApart_append _ (by decide)) _
    _ = mentions matched ++ mentions func := by rw [opening, mentions_dispatchExpr]

set_option maxRecDepth 2000 in
theorem mentions_statements (v : Variant) {chain : String} (h : chain.isEmpty = false) :
    mentions ((Wording.of v).statements chain) = mentions chain := by
  have hd : mentions (Wording.of v).nameDecl = [] := by
    cases v <;> exact Naming.mentions_ofList (by decide +kernel)
  have hf : mentions (Wording.of v).fallback = [] := by
    cases v <;> exact Naming.mentions_ofList (by decide +kernel)
  have hs : mentions " " = [] := by decide
  rw [Wording.statements, h, if_neg (by decide), String.append_assoc]
  apply Naming.mentions_around (Text.endsApart_append _ (by decide)) (Text.startsApart_append (by decide) _)
  · rw [Naming.mentions_append_of_startsApart _ (by decide), hd, hs, List.append_nil]
  · rw [Naming.mentions_append_of_endsApart (by decide), hf, hs, List.append_nil]

/-- The text around the branches mentions no name. -/
theorem mentions_defaultDispatch (v : Variant) {chain : String} (h : chain.isEmpty = false) :
    mentions ((Wording.of v).defaultDispatch chain) = mentions chain := by
  rw [← mentions_statements v h]
  cases v with
  | templated =>
    apply Naming.mentions_around (Text.endsApart_append _ (by decide)) (by decide)
    · rw [Naming.mentions_append_of_startsApart _ (by decide)]
      exact congrArg (· ++ _) (Naming.mentions_ofList (by decide +kernel))
    · exact Naming.mentions_ofList (by decide)
  | legacy | classic | callback => rfl

end Wording

namespace Sheet

variable {s s' s'' : Sheet}

/-! ## Sheets in order -/

/-- Every macro is sound under its number and has a name that looks like one, and a name is found at the
first macro that has it. -/
structure Ordered (s : Sheet) : Prop where
  indexed : s.Indexed
  names : ∀ m ∈ s.defs.toList, isName m.name = true
  sound : ∀ (id : Nat) m, s.defs.toList[id]? = some m → s.Sound id m

theorem ordered_empty : empty.Ordered := ⟨indexed_empty, nofun, nofun⟩

theorem Ordered.checkMacros_ok (h : s.Ordered) : s.checkMacros 0 s.defs.toList = .ok () := by
  refine checkMacros_ok_iff.2 fun i m hi => ?_
  rw [Nat.zero_add]
  exact (h.sound i m hi).placed h.indexed h.names hi

/-- One sheet was written on to give another: it keeps its macros, and they stay in order. -/
structure Extends (s s' : Sheet) : Prop where
  kept : s.defs.toList <+: s'.defs.toList
  ordered : s.Ordered → s'.Ordered

namespace Extends

theorem refl (s : Sheet) : s.Extends s := ⟨List.prefix_refl _, id⟩

theorem trans (h : s.Extends s') (h' : s'.Extends s'') : s.Extends s'' :=
  ⟨h.kept.trans h'.kept, fun ho => h'.ordered (h.ordered ho)⟩

theorem getElem? (h : s.Extends s') {id : Nat} {m : Macro} (hm : s.defs.toList[id]? = some m) :
    s'.defs.toList[id]? = some m := by
  obtain ⟨ms, hms⟩ := h.kept
  rw [← hms, List.getElem?_append_left (List.getElem?_eq_some_iff.1 hm).1, hm]

theorem named (h : s.Extends s') {id : Nat} {name : String} (hn : s.Named id name) : s'.Named id name :=
  hn.mono h.kept

end Extends

/-- The macros of a ladder follow one another and have the given names, such as `FE_0`, `FE_1` and so on. -/
def NamedLevels (s : Sheet) (l : Ladder) (name : Nat → String) : Prop :=
  ∃ base t, l = ⟨List.range' base t⟩ ∧ ∀ k < t, s.Named (base + k) (name k)

theorem Extends.namedLevels {l : Ladder} {name : Nat → String} (h : s.Extends s') (hl : s.NamedLevels l name) :
    s'.NamedLevels l name := by
  obtain ⟨base, t, rfl, levels⟩ := hl
  exact ⟨base, t, rfl, fun k hk => h.named (levels k hk)⟩

/-! ### Single macros -/

theorem Named.lt {id : Nat} {name : String} (h : s.Named id name) : id < s.size := by
  obtain ⟨m, hm, -⟩ := h
  rw [size_eq]
  exact (List.getElem?_eq_some_iff.1 hm).1

/-- Under its number a macro is sound whose names are those recorded. -/
theorem sound_of (names : List String) {id : Nat} {m : Macro} (hb : mentions m.body = names)
    (hn : m.refs.map s.nameOf = names) (hr : ∀ r ∈ m.refs, r < id)
    (hp : (m.params.all fun p => !isName p) = true) : s.Sound id m :=
  ⟨hb.trans hn.symm, hr, fun p h => Bool.not_eq_true' _ ▸ List.all_eq_true.1 hp p h⟩

/-- A macro that mentions no other, such as `HEADER_FUNC`, is sound under any number. -/
theorem sound_plain (id : Nat) {m : Macro} (hb : mentions m.body = []) (hr : m.refs = [])
    (hp : (m.params.all fun p => !isName p) = true) : s.Sound id m :=
  sound_of [] hb (by rw [hr]; rfl) (by rw [hr]; nofun) hp

/-- What a macro uses has the same names in a sheet that was written on. -/
theorem Sound.mono {id : Nat} {m : Macro} (h : s.Sound id m) (hid : id ≤ s.size)
    (hp : s.defs.toList <+: s'.defs.toList) : s'.Sound id m := by
  refine ⟨?_, h.below, h.params⟩
  rw [h.names]
  refine List.map_congr_left fun r hr => ?_
  have hlt : r < s.defs.toList.length := size_eq s ▸ Nat.lt_of_lt_of_le (h.below r hr) hid
  have hget := List.getElem?_eq_getElem hlt
  obtain ⟨ms, hms⟩ := hp
  rw [nameOf_eq hget, nameOf_eq (s := s') (by rw [← hms, List.getElem?_append_left hlt, hget])]

theorem extends_write {e : Entry}
    (he : ∀ m, e.macro? = some m → isName m.name = true ∧ s.Sound s.size m) : s.Extends (s.write e) := by
  have hlist : (s.write e).defs.toList = s.defs.toList ++ e.macro?.toList := by
    rw [show s.write e = s.writeAll [e] from rfl, toList_writeAll]
    cases e <;> rfl
  have hp : s.defs.toList <+: (s.write e).defs.toList := hlist ▸ List.prefix_append ..
  refine ⟨hp, fun h => ⟨h.indexed.write e, ?_, ?_⟩⟩
  · intro m hm
    rw [hlist, List.mem_append, Option.mem_toList] at hm
    exact hm.elim (h.names m) fun hm => (he m hm).1
  · intro id m hm
    rw [hlist] at hm
    by_cases hid : id < s.defs.toList.length
    · rw [List.getElem?_append_left hid] at hm
      exact (h.sound id m hm).mono (by rw [size_eq]; omega) hp
    · -- only the macro that is written comes after those that were there
      rw [List.getElem?_append_right (by omega)] at hm
      have hlast : id = s.size ∧ e.macro? = some m := by
        cases hmac : e.macro? with
        | none =>
          rw [hmac] at hm
          cases hm
        | some m' =>
          rw [hmac, Option.toList_some, List.getElem?_singleton] at hm
          split at hm
          · rw [size_eq]
            exact ⟨by omega, hm⟩
          · cases hm
      obtain ⟨rfl, hmac⟩ := hlast
      exact (he m hmac).2.mono (Nat.le_refl _) hp

theorem extends_emit {m : Macro} (hn : isName m.name = true) (hm : s.Sound s.size m) : s.Extends (s.emit m) :=
  extends_write (e := .define m) (by rintro _ ⟨⟩; exact ⟨hn, hm⟩)

theorem extends_directive (s : Sheet) (text : String) : s.Extends (s.directive text) :=
  extends_write (e := .directive text) nofun

theorem extends_blank (s : Sheet) : s.Extends s.blank := extends_write (e := .blank) nofun

/-! ## Ladders -/

/-- Macros that are written one after the other, each sound once those before it are there. -/
theorem extends_emitAll {f : Nat → Macro} (hn : ∀ k, isName (f k).name = true)
    (hf : ∀ k s', s.Extends s' → (∀ j < k, s'.Named (s.size + j) (f j).name) → s'.Sound (s.size + k) (f k))
    (t : Nat) : s.Extends (s.emitAll ((List.range t).map f)) := by
  induction t with
  | zero => exact .refl s
  | succ t ih =>
    have hsize : (s.emitAll ((List.range t).map f)).size = s.size + t := by
      rw [size_eq, toList_emitAll, List.length_append, List.length_map, List.length_range, size_eq]
    have step : s.emitAll ((List.range (t + 1)).map f) = (s.emitAll ((List.range t).map f)).emit (f t) := by
      rw [List.range_succ, List.map_append, emitAll, List.foldl_append]
      rfl
    rw [step]
    exact ih.trans (extends_emit (hn t) (hsize ▸ hf t _ ih fun j hj => named_emitAll s f hj))

theorem extends_emitExpand (s : Sheet) : s.Extends s.emitExpand.2 :=
  extends_emit (by decide) (sound_plain _ (Naming.mentions_ofList (by decide)) rfl rfl)

section

variable {n : Naming} (hs : Text.isStem n.stem = true) {expand : Nat}
include hs

theorem sound_single {base k : Nat} (he : s.Named expand expandName) (hlt : expand < base)
    (hk : ∀ j < k, s.Named (base + j) (n.level j)) : s.Sound (base + k) (Ladder.single n expand base k) := by
  match k with
  | 0 | 1 => exact sound_plain _ (Naming.mentions_ofList (by decide)) rfl rfl
  | k + 2 =>
    refine sound_of [expandName, n.level (k + 1)] ?_ ?_ ?_ rfl
    · rw [Ladder.single, mentions_expanded]
      exact congrArg _ ((Naming.mentions_around (by decide) (by decide) (by decide) (by decide) _).trans
        (Naming.proper_level hs (k + 1)).mentions)
    · simp only [Ladder.single, List.map_cons, List.map_nil]
      rw [he.nameOf, (hk (k + 1) (by omega)).nameOf]
    · intro r hr
      simp only [Ladder.single, List.mem_cons, List.not_mem_nil, or_false] at hr
      omega

theorem sound_pair {p : PairPolicy} {base k : Nat} (he : s.Named expand expandName) (hlt : expand < base)
    (hk : ∀ j < k, s.Named (base + j) (n.pairLevel j)) : s.Sound (base + k) (Ladder.pair n p expand base k) := by
  match k with
  | 0 | 1 | 2 => exact sound_plain _ (Naming.mentions_ofList (by decide)) rfl rfl
  | k + 3 =>
    have hstep := p.step_bounds
    refine sound_of [expandName, n.pairLevel (k + 3 - p.step)] ?_ ?_ ?_ rfl
    · have hf : mentions ("(" ++ (Ladder.forwarded p ++ ")")) = [] := by cases p <;> decide
      have hb (l f : String) : "WHAT(X, Y)" ++ l ++ "(" ++ f ++ ")" = "WHAT(X, Y)" ++ l ++ ("(" ++ (f ++ ")")) := by
        simp only [String.append_assoc]
      rw [Ladder.pair, mentions_expanded, hb]
      exact congrArg _ ((Naming.mentions_around (by decide) (Text.startsApart_append (by decide) _)
        (by decide) hf _).trans (Naming.proper_pairLevel hs _).mentions)
    · simp only [Ladder.pair, List.map_cons, List.map_nil]
      rw [he.nameOf, (hk (k + 3 - p.step) (by omega)).nameOf]
    · intro r hr
      simp only [Ladder.pair, List.mem_cons, List.not_mem_nil, or_false] at hr
      omega

theorem extends_emitLadder (he : s.Named expand expandName) (top : Nat) :
    s.Extends (s.emitLadder n expand top).2 := by
  refine extends_emitAll (fun k => ?_) (fun k s' h levels => ?_) _
  · rw [Header.single_name]
    exact (Naming.proper_level hs k).name
  · exact sound_single hs (h.named he) he.lt fun j hj => Header.single_name n expand s.size j ▸ levels j hj

theorem extends_emitPairLadder (he : s.Named expand expandName) (p : PairPolicy) (top : Nat) :
    s.Extends (s.emitPairLadder n p expand top).2 := by
  refine extends_emitAll (fun k => ?_) (fun k s' h levels => ?_) _
  · rw [Header.pair_name]
    exact (Naming.proper_pairLevel hs k).name
  · exact sound_pair hs (h.named he) he.lt fun j hj => Header.pair_name n p expand s.size j ▸ levels j hj

omit hs in
theorem namedLevels_emitLadder (s : Sheet) (n : Naming) (expand top : Nat) :
    (s.emitLadder n expand top).2.NamedLevels (s.emitLadder n expand top).1 n.level := by
  refine ⟨s.size, top + 1, rfl, fun k hk => ?_⟩
  rw [← Header.single_name n expand s.size]
  exact named_emitAll s _ hk

omit hs in
theorem namedLevels_emitPairLadder (s : Sheet) (n : Naming) (p : PairPolicy) (expand top : Nat) :
    (s.emitPairLadder n p expand top).2.NamedLevels (s.emitPairLadder n p expand top).1 n.pairLevel := by
  refine ⟨s.size, top + 1, rfl, fun k hk => ?_⟩
  rw [← Header.pair_name n p expand s.size]
  exact named_emitAll s _ hk

/-! ## `GET_MACRO` and the selectors -/

theorem extends_emitCounter (maxArity : Nat) : s.Extends (s.emitCounter n maxArity).2 := by
  refine extends_emit (Naming.proper_counter hs).name (sound_plain _ (Naming.mentions_ofList (by decide)) rfl ?_)
  rw [List.all_eq_true]
  exact fun p hp => by rw [isName_counterParams maxArity p hp]; rfl

theorem extends_emitSelector {own : String} {counter : Nat} {l : Ladder} {name : Nat → String}
    (hown : isName own = true) (he : s.Named expand expandName) (hc : s.Named counter n.counter)
    (hn : ∀ k, Naming.Proper (name k)) (hl : s.NamedLevels l name) :
    s.Extends (s.emitSelector own counter expand l).2 := by
  obtain ⟨base, t, rfl, levels⟩ := hl
  rw [emitSelector_eq own expand hc (descending_nameOf levels)]
  have mentioned := mentions_selectorBody (Naming.proper_counter hs) (proper_listed hn t)
  refine extends_emit hown (sound_of _ mentioned ?_ ?_ rfl)
  · rw [Selector.listing, List.map_cons, List.map_cons, he.nameOf, hc.nameOf, descending_nameOf levels]
  · intro r hr
    simp only [Selector.listing, Ladder.descending, List.mem_cons, List.mem_reverse, List.mem_range'_1] at hr
    rcases hr with rfl | rfl | ⟨h1, h2⟩
    · exact he.lt
    · exact hc.lt
    · -- a number of the ladder is that of one of its levels
      have := (levels (r - base) (by omega)).lt
      rwa [Nat.add_sub_cancel' h1] at this

theorem extends_emitTables {l : Ladder} {pair : Option Ladder} (he : s.Named expand expandName)
    (hl : s.NamedLevels l n.level) (hp : ∀ l', pair = some l' → s.NamedLevels l' n.pairLevel) (maxArity : Nat) :
    s.Extends (s.emitTables n expand maxArity l pair).2 := by
  have counter : s.Extends (s.emitCounter n maxArity).2 := extends_emitCounter hs maxArity
  have hc : (s.emitCounter n maxArity).2.Named s.size n.counter := named_emit s (Selector.counterMacro n maxArity)
  have single : (s.emitCounter n maxArity).2.Extends
      ((s.emitCounter n maxArity).2.emitSelector n.forEach s.size expand l).2 :=
    extends_emitSelector hs (Naming.proper_forEach hs).name (counter.named he) hc (Naming.proper_level hs)
      (counter.namedLevels hl)
  have both := counter.trans single
  cases pair with
  | none => exact both
  | some l' =>
    exact both.trans (extends_emitSelector hs (Naming.proper_forEachPair hs).name (both.named he) (single.named hc)
      (Naming.proper_pairLevel hs) (both.namedLevels (hp l' rfl)))

omit hs in
theorem named_emitTables (s : Sheet) (n : Naming) (expand maxArity : Nat) (l : Ladder) (pair : Option Ladder) :
    (s.emitTables n expand maxArity l pair).2.Named (s.emitTables n expand maxArity l pair).1.single.id n.forEach ∧
      ∀ selector, (s.emitTables n expand maxArity l pair).1.pair = some selector →
        (s.emitTables n expand maxArity l pair).2.Named selector.id n.forEachPair := by
  have single := named_emit (s.emitCounter n maxArity).2
    (Selector.selectorMacro (s.emitCounter n maxArity).2 n.forEach s.size expand l)
  cases pair with
  | none => exact ⟨single, nofun⟩
  | some l' =>
    refine ⟨single.emit _, ?_⟩
    rintro selector ⟨⟩
    exact named_emit _ _

/-! ## Macros that servers use -/

omit hs in
theorem mentions_oneList {one : String} (h : mentions one = [one]) {params : List String}
    (hp : params = ["FUNCNAME"] ∨ params = ["FUNCNAME", "FUNC_ALIAS"]) :
    mentions (Macro.commaList (one :: params ++ ["__VA_ARGS__"])) = [one] := by
  rw [Macro.commaList]
  rcases hp with rfl | rfl
  all_goals
    simp only [List.cons_append, List.nil_append]
    rw [String.intercalate_cons_cons, String.append_assoc,
      Naming.mentions_append_of_startsApart _ (Text.startsApart_append (by decide) _), h,
      Naming.mentions_append_of_endsApart (by decide)]
    exact List.append_right_eq_self.2 (by decide +kernel)

omit hs in
/-- A macro that mentions no other, such as `ATTACH_FUNC`, and the macro that repeats it through a selector. -/
theorem extends_emitFamily {selector : Nat} {selectorName many : String} {one : Macro} {doc : Option String}
    (he : s.Named expand expandName) (hsel : s.Named selector selectorName) (hsel' : Naming.Proper selectorName)
    (hone : Naming.Proper one.name) (hmany : isName many = true) (hb : mentions one.body = []) (hr : one.refs = [])
    (hp : one.params = ["FUNCNAME"] ∨ one.params = ["FUNCNAME", "FUNC_ALIAS"]) :
    s.Extends (s.emitFamily expand selector one many doc).2 := by
  have hparams : (one.params.all fun p => !isName p) = true := by
    rcases hp with hp | hp <;> rw [hp] <;> decide
  have first : s.Extends (s.emit one) := extends_emit hone.name (sound_plain _ hb hr hparams)
  have hsel1 := first.named hsel
  have hone1 := named_emit s one
  refine (first.trans (extends_emit hmany ?_)).trans (extends_blank _)
  refine sound_of [expandName, selectorName, one.name] ?_ ?_ ?_ ?_
  · rw [Registration.manyMacro, mentions_expanded, hsel1.nameOf, hone1.nameOf,
      Naming.mentions_append_of_startsApart _ (by decide),
      Naming.mentions_append_of_endsApart (Text.endsApart_append _ (by decide)), mentions_oneList hone.mentions hp,
      Naming.mentions_append_of_startsApart _ (by decide), hsel'.mentions]
    rfl
  · simp only [Registration.manyMacro, List.map_cons, List.map_nil]
    rw [(first.named he).nameOf, hsel1.nameOf, hone1.nameOf]
  · intro r hr
    simp only [Registration.manyMacro, List.mem_cons, List.not_mem_nil, or_false] at hr
    rcases hr with rfl | rfl | rfl
    · exact (first.named he).lt
    · exact hsel1.lt
    · exact hone1.lt
  · rw [Registration.manyMacro, List.all_append, hparams]
    decide

omit hs in
theorem named_emitFamily {selector : Nat} {many : String} {one : Macro} {doc : Option String} :
    (s.emitFamily expand selector one many doc).2.Named (s.emitFamily expand selector one many doc).1.many many := by
  have hmany := named_emit (s.emit one) (Registration.manyMacro (s.emit one) many one.params expand selector s.size doc)
  rw [size_emit] at hmany
  exact (extends_blank _).named hmany

theorem extends_emitAttach (v : Variant) {selector : Nat} (he : s.Named expand expandName)
    (hsel : s.Named selector n.forEach) (cached : Bool) :
    s.Extends (s.emitAttach n (Wording.of v) expand selector cached).2 :=
  extends_emitFamily he hsel (Naming.proper_forEach hs) (Naming.proper_attach hs cached)
    (Naming.proper_attachMany hs cached).name ((Wording.mentions_branch v _ _ cached).trans (by decide)) rfl (.inl rfl)

theorem extends_emitAlias (v : Variant) {selector : Nat} (he : s.Named expand expandName)
    (hsel : s.Named selector n.forEachPair) (p : PairPolicy) (cached : Bool) :
    s.Extends (s.emitAlias n (Wording.of v) p expand selector cached).2 := by
  refine extends_emitFamily he hsel (Naming.proper_forEachPair hs) (Naming.proper_singleAlias hs cached) ?_
    ((Wording.mentions_branch v _ _ cached).trans (by decide)) rfl (.inr rfl)
  cases p with
  | holdFirst =>
    rw [Registration.aliasManyName, Naming.multiAlias_eq]
    cases cached <;> exact Naming.isName_append _ (by decide)
  | advanceBoth =>
    rw [Registration.aliasManyName, Naming.aliasPairs_eq]
    cases cached <;> exact Naming.isName_append _ (by decide)

theorem extends_emitAliases (v : Variant) {tables : Tables} (he : s.Named expand expandName)
    (hpair : ∀ selector, tables.pair = some selector → s.Named selector.id n.forEachPair)
    (policy : Option PairPolicy) : s.Extends (s.emitAliases n (Wording.of v) expand tables policy).2 := by
  unfold emitAliases
  cases policy with
  | none => exact .refl s
  | some p =>
    cases ht : tables.pair with
    | none => exact .refl s
    | some selector =>
      have plain := extends_emitAlias hs v he (hpair selector ht) p false
      exact plain.trans (extends_emitAlias hs v (plain.named he) (plain.named (hpair selector ht)) p true)

theorem sound_default (v : Variant) {manyId : Nat} (he : s.Named expand expandName)
    (hmany : s.Named manyId (n.attachMany false)) :
    s.Sound s.size (Registration.defaultMacro n (Wording.of v) expand manyId) := by
  refine sound_of [expandName, n.attachMany false] ?_ ?_ ?_ rfl
  · rw [Registration.defaultMacro, mentions_expanded, Wording.mentions_defaultDispatch,
      Naming.mentions_append_of_startsApart _ (by decide), (Naming.proper_attachMany hs false).mentions,
      show mentions "(FUNCNAME, __VA_ARGS__)" = [] from Naming.mentions_ofList (by decide), List.append_nil]
    rw [← Bool.not_eq_true, String.isEmpty_iff]
    intro h
    have := congrArg String.toList h
    rw [String.toList_append] at this
    exact absurd (List.append_eq_nil_iff.1 this).2 (by decide)
  · simp only [Registration.defaultMacro, List.map_cons, List.map_nil]
    rw [he.nameOf, hmany.nameOf]
  · intro r hr
    simp only [Registration.defaultMacro, List.mem_cons, List.not_mem_nil, or_false] at hr
    rcases hr with rfl | rfl
    · exact he.lt
    · exact hmany.lt

theorem extends_emitRegistration (v : Variant) {tables : Tables} (he : s.Named expand expandName)
    (hsingle : s.Named tables.single.id n.forEach)
    (hpair : ∀ selector, tables.pair = some selector → s.Named selector.id n.forEachPair)
    (policy : Option PairPolicy) : s.Extends (s.emitRegistration n (Wording.of v) expand tables policy).2 := by
  -- each part is written on what the parts before it gave
  have plain := extends_emitAttach hs v he hsingle false
  have hmany : (s.emitAttach n (Wording.of v) expand tables.single.id false).2.Named _ (n.attachMany false) :=
    named_emitFamily
  have cached := extends_emitAttach hs v (plain.named he) (plain.named hsingle) true
  have both := plain.trans cached
  have aliases := extends_emitAliases hs v (both.named he) (fun selector h => both.named (hpair selector h)) policy
  have all := both.trans aliases
  exact all.trans (extends_emit (Naming.isName_append n.stem (t := "DEFAULT_DISPATCH") (by decide))
    (sound_default hs v (all.named he) (aliases.named (cached.named hmany))))

/-! ## `HEADER_FUNC` -/

omit hs in
theorem extends_emitHeaderFunc (n : Naming) : s.Extends (s.emitHeaderFunc n) := by
  have hname : isName n.headerFunc = true := Naming.isName_append n.stem (t := "HEADER_FUNC") (by decide)
  have server {s : Sheet} : s.Extends (s.emit (Registration.serverFunc n)) :=
    extends_emit hname (sound_plain _ (Naming.mentions_ofList (by decide)) rfl rfl)
  have client {s : Sheet} : s.Extends (s.emit (Registration.clientFunc n)) :=
    extends_emit hname (sound_plain _ (Naming.mentions_ofList (by decide)) rfl rfl)
  exact ((((extends_directive s _).trans server).trans (extends_directive _ _)).trans client).trans
    (extends_directive _ _)

end

end Sheet

end NamedDispatch
