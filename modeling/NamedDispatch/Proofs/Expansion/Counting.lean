/-
How a selector counts. It hands `GET_MACRO` its own `_0`, the arguments of the caller and the names of its
ladder's levels from the top down, and `GET_MACRO` stands for the argument in its `NAME` slot. With one
argument more that slot falls on a level one higher, until the arguments themselves reach it.
-/
import NamedDispatch.Proofs.Expansion.Ladder

namespace NamedDispatch

open Token (word sign given joined enclosed call names Intact)

/-! ## What is passed to `GET_MACRO` -/

namespace Token

/-- The arguments of the first call of a name. -/
def firstCall (name : String) : List Token → Option (List (List Token))
  | [] => none
  | t :: ts =>
    if t = word name ∧ ts.head? = some (sign '(') then (arguments ts.tail).map (·.1) else firstCall name ts

theorem firstCall_call (name : String) {args : List (List Token)} (hne : args ≠ []) (hw : ∀ a ∈ args, Intact a)
    (ts : List Token) : firstCall name (call name args ++ ts) = some args := by
  have e : call name args ++ ts = word name :: sign '(' :: (joined args ++ sign ')' :: ts) := by
    simp [call, enclosed]
  rw [e, firstCall, if_pos ⟨rfl, rfl⟩, List.tail_cons, arguments_joined hne hw]
  rfl

theorem firstCall_cons {name : String} {t : Token} (h : t ≠ word name) (ts : List Token) :
    firstCall name (t :: ts) = firstCall name ts := by
  rw [firstCall, if_neg fun e => h e.1]

/-- A call that stands first in the argument of another one. -/
theorem firstCall_within {outer name : String} (ho : outer ≠ name) {args : List (List Token)} (hne : args ≠ [])
    (hw : ∀ a ∈ args, Intact a) (ts : List Token) : firstCall name (call outer [call name args ++ ts]) = some args := by
  have hword : word outer ≠ word name := fun h => ho (word.inj h)
  rw [call, firstCall_cons hword, enclosed, joined, List.cons_append, firstCall_cons (by simp), List.append_assoc,
    firstCall_call name hne hw]

end Token

namespace Header

/-- The selectors `FOR_EACH` and `FOR_EACH2`, each with the ladder it chooses from. -/
def selections (h : Header) : List (Selector × Ladder) :=
  (h.tables.single, h.ladder) ::
    match h.tables.pair, h.pairLadder with
    | some selector, some l => [(selector, l)]
    | _, _ => []

/-- What a selector that is called with an action and arguments passes to `GET_MACRO`. -/
def passed (h : Header) (selector : Selector) (action : List Token) (args : List (List Token)) :
    Option (List (List Token)) :=
  (h.sheet.defs[selector.id]?).bind fun m =>
    Token.firstCall (h.sheet.nameOf h.tables.counter) (m.filled (action :: args))

/-- The place of `NAME` among the parameters of `GET_MACRO`. -/
def nameSlot (h : Header) : Option Nat :=
  (h.sheet.defs[h.tables.counter]?).bind fun m => m.namedParams.idxOf? "NAME"

/-! ## Bodies of selectors -/

section

variable {name counter : String} {listed : List String} {refs : List Nat}
  (hc : Naming.Proper counter)
  (hl : ∀ w ∈ listed, Naming.Proper w)

include hc hl

theorem reads_listing (hne : listed ≠ []) : Token.Reads (Selector.listing name counter listed refs).body
    (call expandName [call counter ([word "_0"] :: [word Macro.furtherName] :: names listed) ++
      enclosed [[word "ACTION"], [word Macro.furtherName]]]) := by
  have hb : (Selector.listing name counter listed refs).body = Ladder.expanded
      (counter ++ ("(_0, __VA_ARGS__, " ++ (", ".intercalate listed ++ ")(ACTION, __VA_ARGS__)"))) := by
    simp only [← String.append_assoc]
    rfl
  have before : Token.Reads "(_0, __VA_ARGS__, "
      [sign '(', word "_0", sign ',', word Macro.furtherName, sign ','] := by decide
  have after : Token.Reads ")(ACTION, __VA_ARGS__)"
      (sign ')' :: enclosed [[word "ACTION"], [word Macro.furtherName]]) := by decide
  have within := before.append (.commaList_append (fun w hw => (hl w hw).1) (by decide) after)
  have inside : call counter ([word "_0"] :: [word Macro.furtherName] :: names listed) =
      word counter :: ([sign '(', word "_0", sign ',', word Macro.furtherName, sign ','] ++
        joined (names listed) ++ [sign ')']) := by
    have hn : names listed ≠ [] := by simpa [names] using hne
    rw [call, enclosed, Token.joined_cons _ (List.cons_ne_nil _ _), Token.joined_cons _ hn]
    rfl
  rw [hb, inside]
  have whole := (Token.Reads.word_append hc.1 (Text.startsApart_append (by decide) _) within).expanded
  simpa only [List.cons_append, List.nil_append, List.append_assoc] using whole

theorem filled_listing (hne : listed ≠ []) (action : List Token) {args : List (List Token)} (ha : args ≠ []) :
    (Selector.listing name counter listed refs).filled (action :: args) =
      call expandName [call counter ([word "_0"] :: (args ++ names listed)) ++ enclosed (action :: args)] := by
  set m := Selector.listing name counter listed refs with hm
  have stays {w : String} (h : Naming.isName w = true) : m.value (action :: args) w = none :=
    Macro.value_name h rfl _
  have slot : Token.fill (m.value (action :: args)) [word "_0"] = [word "_0"] := Token.fill_word rfl []
  have first : Token.fill (m.value (action :: args)) [word "ACTION"] = action :=
    (Token.fill_param (v := action) rfl []).trans (List.append_nil _)
  have further : Token.fill (m.value (action :: args)) [word Macro.furtherName] = joined args :=
    (Token.fill_param (v := joined args) rfl []).trans (List.append_nil _)
  have levels : (names listed).map (Token.fill (m.value (action :: args))) = names listed := by
    rw [names, List.map_map]
    exact List.map_congr_left fun w hw => Token.fill_word (stays (hl w hw).2) []
  rw [Macro.filled, hm, (reads_listing hc hl hne).tokens, ← hm, Token.fill_call (stays (by decide)), List.map_singleton,
    Token.fill_call_append (stays hc.2), Token.fill_enclosed]
  simp only [List.map_cons, List.map_nil, slot, first, further, levels]
  have all := Token.enclosed_joined [[word "_0"]] ha (names listed)
  have rest := Token.enclosed_joined [action] ha []
  simp only [List.cons_append, List.nil_append, List.append_nil] at all rest
  rw [call, call, call, call, all, rest]

end

/-! ## The place that is met -/

section

variable {c : Config}

/-- The parameter `NAME` of `GET_MACRO` comes after `_0` to `_t`. -/
theorem idxOf_name (t : Nat) : (Selector.counterMacro c.naming t).namedParams.idxOf? "NAME" = some (t + 1) := by
  rw [Selector.namedParams_counter, List.idxOf?, List.findIdx?_append, List.findIdx?_eq_none_iff.2, Option.none_or,
    List.length_map, List.length_range]
  · simp
  · intro p hp
    -- a numbered parameter begins with an underscore
    obtain ⟨k, -, rfl⟩ := List.mem_map.1 hp
    rw [beq_eq_false_iff_ne]
    intro h
    have := congrArg (fun s : String => s.toList.head?) h
    rw [String.toList_append] at this
    cases this

theorem nameSlot_build : (build c).nameSlot = some (c.top + 1) := by
  have ht : (build c).tables = tablesOf c := by rw [build_eq]
  rw [nameSlot, ht, ← Array.getElem?_toList, toList_build]
  show ((layout c)[counterId c]?).bind _ = _
  rw [show (layout c)[counterId c]? = some (Selector.counterMacro c.naming c.top) from
    layout_table c (i := 0) rfl, Option.bind_some, idxOf_name]

/-- With one argument more the `NAME` slot meets a level one higher, up to the top. -/
theorem getElem?_passed (t : Nat) (name : Nat → String) (args : List (List Token)) :
    ([word "_0"] :: (args ++ names (((List.range (t + 1)).map name).reverse)))[t + 1]? =
      if args.length ≤ t then some [word (name args.length)] else args[t]? := by
  rw [List.getElem?_cons_succ]
  split
  · -- the names run from the top down, so the one met is counted from their end
    rename_i hle
    have hlt : t - args.length < ((List.range (t + 1)).map name).length := by
      rw [List.length_map, List.length_range]
      omega
    rw [List.getElem?_append_right hle, names, List.getElem?_map, List.getElem?_reverse hlt,
      List.length_map, List.length_range, show t + 1 - 1 - (t - args.length) = args.length by omega,
      List.getElem?_map, List.getElem?_range (by omega)]
    rfl
  · -- the place is still among the arguments
    rename_i hlt
    exact List.getElem?_append_left (by omega)

theorem intact_passed {args : List (List Token)} (ws : List String) (hw : ∀ a ∈ args, Intact a) :
    ∀ a ∈ [word "_0"] :: (args ++ names ws), Intact a := by
  intro a h
  rcases List.mem_cons.1 h with rfl | h
  · exact Token.intact_word _
  · rcases List.mem_append.1 h with h | h
    · exact hw a h
    · obtain ⟨w, -, rfl⟩ := List.mem_map.1 h
      exact Token.intact_word w

/-- A selector passes on `_0`, the arguments of the caller and the names it lists. -/
theorem passed_build (hs : Text.isStem c.stem = true) {selector : Selector} {name : String}
    {listed : List String} {refs : List Nat}
    (hm : (layout c)[selector.id]? = some (Selector.listing name c.naming.counter listed refs))
    (hl : ∀ w ∈ listed, Naming.Proper w) (hne : listed ≠ [])
    (action : List Token) {args : List (List Token)} (ha : args ≠ []) (hw : ∀ a ∈ args, Intact a) :
    (build c).passed selector action args = some ([word "_0"] :: (args ++ names listed)) := by
  -- the call of `GET_MACRO` is the first one of that name, inside the call of `EXPAND`
  have hexp : expandName ≠ c.naming.counter := (Naming.append_ne_expandName c.stem (t := "GET_MACRO") (by decide)).symm
  have ht : (build c).tables.counter = counterId c := by rw [build_eq]; rfl
  rw [passed, ht, nameOf_counter, ← Array.getElem?_toList, toList_build, hm, Option.bind_some,
    filled_listing (Naming.proper_counter (n := c.naming) hs) hl hne action ha,
    Token.firstCall_within hexp (List.cons_ne_nil _ _) (intact_passed _ hw)]

/-- A selector expands to what the level for as many arguments as there are expands to. -/
theorem yields_selector (hs : Text.isStem c.stem = true) {own : String} {name : Nat → String} {refs : List Nat}
    (hown : (build c).sheet.macro? own = some (Selector.listing own c.naming.counter
      (((List.range (c.top + 1)).map name).reverse) refs))
    (hnames : ∀ k, Naming.Proper (name k))
    {action : List Token} (hact : Intact action) {args : List (List Token)} (ha : args ≠ [])
    (hw : ∀ a ∈ args, Intact a) (hk : args.length ≤ c.top) {done : List Token}
    (h : (build c).sheet.Yields (call (name args.length) (action :: args)) done) :
    (build c).sheet.Yields (call own (action :: args)) done := by
  set listed := ((List.range (c.top + 1)).map name).reverse with hlisted
  have hl := proper_listed hnames (c.top + 1)
  have hall := intact_passed listed hw
  have hact' : ∀ a ∈ action :: args, Intact a := List.forall_mem_cons.2 ⟨hact, hw⟩
  have hcounter : (build c).sheet.macro? c.naming.counter = some (Selector.counterMacro c.naming c.top) :=
    macro?_build (layout_table c (i := 0) rfl) nofun
  have hfill : (Selector.counterMacro c.naming c.top).filled ([word "_0"] :: (args ++ names listed)) =
      [word (name args.length)] := by
    have met : (Selector.counterMacro c.naming c.top).value ([word "_0"] :: (args ++ names listed)) "NAME" =
        some [word (name args.length)] := by
      rw [Macro.value, if_neg (by decide), idxOf_name, Option.bind_some, hlisted, getElem?_passed, if_pos hk]
    show Token.fill _ (Token.ofText "NAME") = _
    rw [show Token.ofText "NAME" = [word "NAME"] by decide, Token.fill_param met]
    rfl
  have htakes : (Selector.counterMacro c.naming c.top).takes ([word "_0"] :: (args ++ names listed)).length = true := by
    rw [Macro.takes, Selector.isVariadic_counter, if_pos rfl, Selector.namedParams_counter, decide_eq_true_eq]
    simp [names, hlisted]
  -- the call of `GET_MACRO` becomes the name of a level, which stands before the arguments again
  have hinner : (build c).sheet.Yields
      (call c.naming.counter ([word "_0"] :: (args ++ names listed)) ++ enclosed (action :: args)) done := by
    intro rest
    have hstep := Sheet.step_call hcounter (List.cons_ne_nil _ _) hall htakes (enclosed (action :: args) ++ rest)
    rw [hfill] at hstep
    rw [List.append_assoc]
    exact hstep.trans (h rest)
  have hwhole : Intact (call c.naming.counter ([word "_0"] :: (args ++ names listed)) ++ enclosed (action :: args)) :=
    (Token.intact_call hall).append (Token.stays_joined hact').enclosed
  refine Sheet.Yields.call ?_ hown (by simp) hact' ?_
  · rw [filled_listing (Naming.proper_counter (n := c.naming) hs) hl (by simp) action ha]
    exact yields_expand hwhole hinner
  · simp [Macro.takes, Macro.isVariadic, Macro.namedParams, Selector.listing, Macro.ellipsis]

theorem meets_build (hs : Text.isStem c.stem = true) {selector : Selector} {base : Nat} {name : Nat → String}
    {own : String} {refs : List Nat}
    (hm : (layout c)[selector.id]? = some (Selector.listing own c.naming.counter
      (((List.range (c.top + 1)).map name).reverse) refs))
    (hcand : selector.candidates = (⟨List.range' base (c.top + 1)⟩ : Ladder).descending)
    (hn : (⟨List.range' base (c.top + 1)⟩ : Ladder).descending.map (build c).sheet.nameOf =
      ((List.range (c.top + 1)).map name).reverse)
    (hlev : (build c).sheet.HasLevels base (c.top + 1))
    (hname : ∀ k ≤ c.top, (build c).sheet.nameOf (base + k) = name k)
    (hnames : ∀ k, Naming.Proper (name k))
    (action : String) {args : List String} (ha : args ≠ []) :
    ∃ place passed, (build c).nameSlot = some place ∧
      (build c).passed selector [given action] (args.map fun a => [given a]) = some passed ∧
      passed = [word "_0"] :: (args.map (fun a => [given a]) ++
        names (selector.candidates.map (build c).sheet.nameOf)) ∧
      (args.length ≤ c.top → ∃ id, (⟨List.range' base (c.top + 1)⟩ : Ladder).level? args.length = some id ∧
        (build c).sheet.levelOf id = some args.length ∧
        passed[place]? = some [word ((build c).sheet.nameOf id)]) ∧
      (c.top < args.length → ∃ a, args[c.top]? = some a ∧ passed[place]? = some [given a] ∧
        place ≤ args.length) := by
  have hl := proper_listed hnames (c.top + 1)
  have hw : ∀ a ∈ args.map (fun a => [given a]), Intact a := by
    intro a h
    obtain ⟨t, -, rfl⟩ := List.mem_map.1 h
    exact Token.intact_given t
  have hp := passed_build hs hm hl (by simp) [given action] (by simpa using ha) hw
  have met := getElem?_passed c.top name (args.map fun a => [given a])
  rw [List.length_map] at met
  refine ⟨c.top + 1, _, nameSlot_build, hp, by rw [hcand, hn], fun hle => ?_, fun hlt => ?_⟩
  · rw [if_pos hle] at met
    have hlt := Nat.lt_succ_of_le hle
    exact ⟨base + args.length, Sheet.level?_range' hlt, hlev _ hlt, by rw [met, hname _ hle]⟩
  · rw [if_neg (by omega), List.getElem?_map, List.getElem?_eq_getElem hlt] at met
    exact ⟨args[c.top], List.getElem?_eq_getElem hlt, met, hlt⟩

end

/-- In a generated header every selector passes on `_0`, the arguments of the caller and the names of its
candidates. In the `NAME` slot of `GET_MACRO` stands the level for as many arguments as there are; of too many
it is the first one beyond the limit, which stands before all candidates. -/
theorem selector_meets {c : Config} {h : Header} (hg : generate c = .ok h) {selector : Selector} {l : Ladder}
    (hsel : (selector, l) ∈ h.selections) (action : String) {args : List String} (ha : args ≠ []) :
    ∃ place passed, h.nameSlot = some place ∧
      h.passed selector [given action] (args.map fun a => [given a]) = some passed ∧
      passed = [word "_0"] :: (args.map (fun a => [given a]) ++ names (selector.candidates.map h.sheet.nameOf)) ∧
      (args.length ≤ c.maxArity.toNat → ∃ id, l.level? args.length = some id ∧
        h.sheet.levelOf id = some args.length ∧ passed[place]? = some [word (h.sheet.nameOf id)]) ∧
      (c.maxArity.toNat < args.length → ∃ a, args[c.maxArity.toNat]? = some a ∧
        passed[place]? = some [given a] ∧ place ≤ args.length) := by
  obtain ⟨rfl, hs⟩ := eq_build hg
  have hsel : (selector, l) = (⟨counterId c + 1, (singleLadder c).descending⟩, singleLadder c) ∨
      (∃ p, c.effectivePairPolicy = some p) ∧
        (selector, l) = (⟨counterId c + 2, (doubleLadder c).descending⟩, doubleLadder c) := by
    rw [selections, pairLadder, build_eq] at hsel
    simp only [tablesOf] at hsel
    cases hp : c.effectivePairPolicy with
    | none => simpa [hp] using hsel
    | some p => simpa [hp] using hsel
  rcases hsel with he | ⟨⟨p, hp⟩, he⟩
  · obtain ⟨rfl, rfl⟩ := Prod.mk.inj he
    exact meets_build hs (layout_table c (i := 1) rfl) rfl (descending_single c) hasLevels_single
      (fun k hk => nameOf_single c hk)
      (Naming.proper_level (n := c.naming) hs) action ha
  · obtain ⟨rfl, rfl⟩ := Prod.mk.inj he
    exact meets_build hs (layout_table c (i := 2) (m := forEachPairMacro c) (by rw [tablePart, hp]; rfl)) rfl
      (descending_double c hp) (hasLevels_pair hp) (fun k hk => nameOf_pair c hp hk)
      (Naming.proper_pairLevel (n := c.naming) hs) action ha

theorem selector_meets_third : ∃ place passed, (build ⟨2, .classic, none, "RPC_"⟩).nameSlot = some place ∧
    (build ⟨2, .classic, none, "RPC_"⟩).passed ⟨counterId ⟨2, .classic, none, "RPC_"⟩ + 2,
      (doubleLadder ⟨2, .classic, none, "RPC_"⟩).descending⟩ [given "w"] [[given "a"], [given "b"], [given "c"]] =
        some passed ∧ passed[place]? = some [given "c"] := by
  have hsel : (⟨counterId ⟨2, .classic, none, "RPC_"⟩ + 2, (doubleLadder ⟨2, .classic, none, "RPC_"⟩).descending⟩,
      doubleLadder ⟨2, .classic, none, "RPC_"⟩) ∈ (build ⟨2, .classic, none, "RPC_"⟩).selections := by
    rw [selections, pairLadder, build_eq]
    exact List.mem_cons_of_mem _ (List.mem_singleton_self _)
  have hargs : ["a", "b", "c"] ≠ [] := by decide
  obtain ⟨place, passed, hplace, hpassed, -, -, beyond⟩ :=
    selector_meets (c := ⟨2, .classic, none, "RPC_"⟩) (by rw [generate_eq]; rfl) hsel "w" hargs
  obtain ⟨a, ha, hget, -⟩ := beyond (by decide)
  cases ha
  exact ⟨place, passed, hplace, hpassed, hget⟩

end Header

end NamedDispatch
