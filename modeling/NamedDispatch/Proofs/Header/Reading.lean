/-
Lines as a preprocessor reads them, as far as conditionals and definitions go. A conditional is met by the
names that are defined where it stands; what is left of a text are the definitions that stand where every
conditional around them is met. What reading the lines of macros leaves is said once for a part between a
guard and its end.
-/
import NamedDispatch.Proofs.Header.Definitions

namespace NamedDispatch

/-! ## Conditions -/

/-- What a conditional asks of the names that are defined: `defined(NAME)` with `!`, `&&` and `||`. -/
inductive Condition where
  | defined (name : String)
  | not (c : Condition)
  | and (c d : Condition)
  | or (c d : Condition)
deriving DecidableEq, Repr

namespace Condition

/-- Whether a condition is met when the given names are defined. -/
def holds (names : List String) : Condition → Bool
  | defined name => names.contains name
  | not c => !c.holds names
  | and c d => c.holds names && d.holds names
  | or c d => c.holds names || d.holds names

/-- The characters from the first that is not a blank. -/
def skipBlanks (cs : List Char) : List Char := cs.dropWhile (· == ' ')

/-- Reads the name in parentheses that follows the word `defined`. -/
def readDefined (cs : List Char) : Option (Condition × List Char) :=
  match skipBlanks cs with
  | '(' :: cs =>
    match cs.dropWhile Text.isWordChar with
    | ')' :: rest => some (.defined (String.ofList (cs.takeWhile Text.isWordChar)), rest)
    | _ => none
  | _ => none

mutual

/-- Reads conditions with `||` between them, which binds weakest. The fuel bounds the depth. -/
def readOr : Nat → List Char → Option (Condition × List Char)
  | 0, _ => none
  | fuel + 1, cs => do
    let (c, rest) ← readAnd fuel cs
    match skipBlanks rest with
    | '|' :: '|' :: rest =>
      let (d, rest) ← readOr fuel rest
      return (.or c d, rest)
    | rest => return (c, rest)

/-- Reads conditions with `&&` between them. -/
def readAnd : Nat → List Char → Option (Condition × List Char)
  | 0, _ => none
  | fuel + 1, cs => do
    let (c, rest) ← readUnit fuel cs
    match skipBlanks rest with
    | '&' :: '&' :: rest =>
      let (d, rest) ← readAnd fuel rest
      return (.and c d, rest)
    | rest => return (c, rest)

/-- Reads a condition that is negated by `!`, in parentheses, or a `defined`. -/
def readUnit : Nat → List Char → Option (Condition × List Char)
  | 0, _ => none
  | fuel + 1, cs =>
    match skipBlanks cs with
    | '!' :: cs => do
      let (c, rest) ← readUnit fuel cs
      return (.not c, rest)
    | '(' :: cs => do
      let (c, rest) ← readOr fuel cs
      match skipBlanks rest with
      | ')' :: rest => return (c, rest)
      | _ => none
    | 'd' :: 'e' :: 'f' :: 'i' :: 'n' :: 'e' :: 'd' :: cs => readDefined cs
    | _ => none

end

/-- The condition that a whole text is. -/
def read? (cs : List Char) : Option Condition :=
  -- one character is read at three levels at most
  match readOr (3 * cs.length) cs with
  | some (c, rest) => if (skipBlanks rest).isEmpty then some c else none
  | none => none

end Condition

/-! ## Conditionals -/

/-- What a line is to the preprocessor, as far as conditionals and definitions go. -/
inductive Directive where
  | opening (condition : List Char)
  | otherwise (condition : List Char)
  | closing
  | definition
  | other
deriving DecidableEq, Repr

/-- The kind of a line by how it starts: `#if`, `#elif`, `#endif` or `#define`. -/
def Directive.of (cs : List Char) : Directive :=
  if ['#', 'i', 'f', ' '].isPrefixOf cs then .opening (cs.drop 4)
  else if ['#', 'e', 'l', 'i', 'f', ' '].isPrefixOf cs then .otherwise (cs.drop 6)
  else if cs == ['#', 'e', 'n', 'd', 'i', 'f'] then .closing
  else if Definition.mark.isPrefixOf cs then .definition
  else .other

/-- A conditional that is open: whether one of its conditions was met already, and whether its lines are read. -/
structure Conditional where
  met : Bool
  reading : Bool
deriving DecidableEq, Repr

/-- What evaluating lines leaves: the names defined, the conditionals that are open, innermost first, and the
lines of definitions met, each with whether it was read. -/
structure Reading where
  names : List String
  conditionals : List Conditional
  definitions : List (String × Bool)
deriving DecidableEq, Repr

namespace Reading

/-- Before the first line: no conditional is open and no definition was met. -/
def start (names : List String) : Reading := ⟨names, [], []⟩

/-- Whether the lines at this point are read. -/
def active (s : Reading) : Bool := s.conditionals.head?.all Conditional.reading

/-- Goes on by one line. There is no result for a condition that cannot be read, and none for an `#endif` or an
`#elif` when no conditional is open. -/
def step (s : Reading) (line : String) : Option Reading :=
  match Directive.of line.toList with
  | .opening condition =>
    -- what stands in a part that is not read counts for its nesting only
    if s.active then do
      let c ← Condition.read? condition
      return { s with conditionals := ⟨c.holds s.names, c.holds s.names⟩ :: s.conditionals }
    else some { s with conditionals := ⟨true, false⟩ :: s.conditionals }
  | .otherwise condition =>
    match s.conditionals with
    | [] => none
    | b :: bs =>
      if b.met then some { s with conditionals := ⟨true, false⟩ :: bs }
      else do
        let c ← Condition.read? condition
        return { s with conditionals := ⟨c.holds s.names, c.holds s.names⟩ :: bs }
  | .closing =>
    match s.conditionals with
    | [] => none
    | _ :: bs => some { s with conditionals := bs }
  | .definition => do
    let d ← Definition.read? line
    return { s with
      names := if s.active then d.name :: s.names else s.names
      definitions := s.definitions ++ [(line, s.active)] }
  | .other => some s

/-- The lines of definitions, each with whether it is left, if every conditional is closed at the end. -/
def evaluate (names lines : List String) : Option (List (String × Bool)) := do
  let s ← lines.foldlM step (start names)
  if s.conditionals.isEmpty then some s.definitions else none

end Reading

/-! ## Steps -/

namespace Reading

variable {s : Reading}

theorem of_eq_other {line : String} (h : Text.isDirective line = false) : Directive.of line.toList = .other := by
  rw [Text.isDirective, beq_eq_false_iff_ne] at h
  cases hl : line.toList with
  | nil => rfl
  | cons c cs =>
    rw [hl, List.head?_cons] at h
    have hc : ('#' == c) = false := beq_eq_false_iff_ne.2 fun e => h (congrArg some e.symm)
    have hc' : (c == '#') = false := beq_eq_false_iff_ne.2 fun e => h (congrArg some e)
    have hm : Definition.mark.isPrefixOf (c :: cs) = false := by
      rw [show Definition.mark = '#' :: "define ".toList from rfl, List.isPrefixOf_cons_cons, hc, Bool.false_and]
    simp only [Directive.of, hm, List.isPrefixOf_cons_cons, hc, List.cons_beq_cons, hc', Bool.false_and]
    rfl

/-- Only the lines that start with a `#` count. -/
theorem foldlM_filter (lines : List String) :
    (lines.filter Text.isDirective).foldlM step s = lines.foldlM step s := by
  induction lines generalizing s with
  | nil => rfl
  | cons line lines ih =>
    cases h : Text.isDirective line with
    | true =>
      rw [List.filter_cons_of_pos h, List.foldlM_cons, List.foldlM_cons]
      exact congrArg _ (funext fun s => ih)
    | false =>
      rw [List.filter_cons_of_neg (by rw [h]; decide), List.foldlM_cons,
        show step s line = some s by rw [step, of_eq_other h], ih]
      rfl

/-- What meeting the definitions of some macros leaves. -/
def meet (s : Reading) (ms : List Macro) : Reading where
  names := if s.active then (ms.map (·.name)).reverse ++ s.names else s.names
  conditionals := s.conditionals
  definitions := s.definitions ++ ms.map fun m => (m.line, s.active)

theorem step_line {m : Macro} (h : m.Legible) (hn : Text.isIdentifier m.name = true) :
    step s m.line = some (s.meet [m]) := by
  have kind : Directive.of m.line.toList = .definition := by
    rw [m.toList_line]
    rfl
  rw [step, kind]
  simp only [Definition.read?_line h hn]
  rfl

theorem meet_meet (ms ms' : List Macro) : (s.meet ms).meet ms' = s.meet (ms ++ ms') := by
  have same : (s.meet ms).active = s.active := rfl
  rw [meet, same]
  cases h : s.active <;> simp [meet, h]

theorem foldlM_lines {ms : List Macro} (h : ∀ m ∈ ms, m.Legible ∧ Text.isIdentifier m.name = true) :
    (ms.map Macro.line).foldlM step s = some (s.meet ms) := by
  induction ms generalizing s with
  | nil => simp [meet]
  | cons m ms ih =>
    obtain ⟨legible, name⟩ := h m (List.mem_cons_self ..)
    rw [List.map_cons, List.foldlM_cons, step_line legible name, Option.bind_eq_bind, Option.bind_some,
      ih fun m' hm' => h m' (List.mem_cons_of_mem _ hm')]
    exact congrArg some (meet_meet [m] ms)

/-! ### Directives -/

section

variable {cs condition : List Char} {c : Condition} {b : Conditional} {bs : List Conditional}

theorem step_opening (hk : Directive.of cs = .opening condition) (hc : Condition.read? condition = some c)
    (h : s.active = true) :
    step s (String.ofList cs) = some { s with
      conditionals := ⟨c.holds s.names, c.holds s.names⟩ :: s.conditionals } := by
  rw [step, String.toList_ofList, hk]
  simp only [h, hc]
  rfl

theorem step_otherwise (hk : Directive.of cs = .otherwise condition) (hc : Condition.read? condition = some c)
    (h : s.conditionals = b :: bs) : step s (String.ofList cs) = some { s with
      conditionals := (if b.met then ⟨true, false⟩ else ⟨c.holds s.names, c.holds s.names⟩) :: bs } := by
  rw [step, String.toList_ofList, hk]
  simp only [h, hc]
  split <;> rfl

theorem step_closing (hk : Directive.of cs = .closing) (h : s.conditionals = b :: bs) :
    step s (String.ofList cs) = some { s with conditionals := bs } := by
  rw [step, String.toList_ofList, hk]
  simp only [h]

theorem step_other (hk : Directive.of cs = .other) : step s (String.ofList cs) = some s := by
  rw [step, String.toList_ofList, hk]

end

/-- Asks for a server or a module: `defined(RPC_HPP_SERVER_IMPL) || defined(RPC_HPP_MODULE_IMPL)`. -/
def servingCondition : Condition := .or (.defined "RPC_HPP_SERVER_IMPL") (.defined "RPC_HPP_MODULE_IMPL")

/-- Whether a header is read by a server or a module. -/
def serving (names : List String) : Bool := servingCondition.holds names

/-- Whether a header is read by a client, with `RPC_HPP_CLIENT_IMPL` defined. -/
def calling (names : List String) : Bool := names.contains "RPC_HPP_CLIENT_IMPL"

theorem step_serverGuard (h : s.active = true) : step s Wording.serverGuard =
    some { s with conditionals := ⟨serving s.names, serving s.names⟩ :: s.conditionals } :=
  step_opening (c := servingCondition) rfl rfl h

theorem step_ladderGuard (h : s.active = true) (hd : "RPC_HPP_DOXYGEN_GEN" ∉ s.names) : step s Wording.ladderGuard =
    some { s with conditionals := ⟨serving s.names, serving s.names⟩ :: s.conditionals } := by
  have undocumented : (Condition.and (.not (.defined "RPC_HPP_DOXYGEN_GEN")) servingCondition).holds s.names =
      serving s.names := by
    rw [Condition.holds, Condition.holds, Condition.holds, List.contains_eq_mem, decide_eq_false hd]
    rfl
  rw [← undocumented]
  exact step_opening rfl rfl h

theorem step_clientGuard {b : Conditional} {bs : List Conditional} (h : s.conditionals = b :: bs) :
    step s Wording.clientGuard = some { s with
      conditionals := (if b.met then ⟨true, false⟩ else ⟨calling s.names, calling s.names⟩) :: bs } :=
  step_otherwise (c := .defined "RPC_HPP_CLIENT_IMPL") rfl rfl h

theorem step_endGuard {b : Conditional} {bs : List Conditional} (h : s.conditionals = b :: bs) :
    step s Wording.endGuard = some { s with conditionals := bs } :=
  step_closing rfl h

theorem step_pragma : step s "#pragma once" = some s := step_other rfl

/-! ### Names of macros -/

/-- The guards ask for no name of a macro, so that the names met on the way do not matter to them. -/
theorem holds_append {extra : List String} (he : ∀ x ∈ extra, Naming.isName x = true) (names : List String) :
    serving (extra ++ names) = serving names ∧ calling (extra ++ names) = calling names := by
  have other (name : String) (hn : Naming.isName name = false) :
      (extra ++ names).contains name = names.contains name := by
    rw [List.contains_eq_mem, List.contains_eq_mem, decide_eq_decide, List.mem_append]
    refine ⟨fun h => h.resolve_left fun hx => ?_, .inr⟩
    rw [he name hx] at hn
    cases hn
  have server := other "RPC_HPP_SERVER_IMPL" (by decide)
  have modules := other "RPC_HPP_MODULE_IMPL" (by decide)
  have client := other "RPC_HPP_CLIENT_IMPL" (by decide)
  simp only [serving, calling, servingCondition, Condition.holds, server, modules, client, and_self]

/-- Outside of all conditionals, with the guards holding as they do for the given names. -/
structure Outside (s : Reading) (names : List String) : Prop where
  conditionals : s.conditionals = []
  served : serving s.names = serving names
  called : calling s.names = calling names

theorem outside_start (names : List String) : (start names).Outside names := ⟨rfl, rfl, rfl⟩

theorem holds_meet {ms : List Macro} (h : ∀ m ∈ ms, Naming.isName m.name = true) :
    serving (s.meet ms).names = serving s.names ∧ calling (s.meet ms).names = calling s.names := by
  rw [meet]
  split
  · exact holds_append (by simpa using h) s.names
  · exact ⟨rfl, rfl⟩

section

variable {names : List String} (h : s.Outside names)
include h

theorem Outside.active : s.active = true := by
  rw [Reading.active, h.conditionals]
  rfl

/-- A part with definitions that stands between its guard and the end of it. -/
theorem Outside.part {guard : String} {b : Bool} {ms : List Macro}
    (hg : step s guard = some { s with conditionals := ⟨b, b⟩ :: s.conditionals })
    (hm : ∀ m ∈ ms, (m.Legible ∧ Text.isIdentifier m.name = true) ∧ Naming.isName m.name = true) :
    ∃ s' : Reading, (guard :: (ms.map Macro.line ++ [Wording.endGuard])).foldlM step s = some s' ∧
      s'.Outside names ∧ s'.definitions = s.definitions ++ ms.map fun m => (m.line, b) := by
  set opened : Reading := { s with conditionals := ⟨b, b⟩ :: s.conditionals } with hopened
  obtain ⟨served, called⟩ := holds_meet (s := opened) fun m hmem => (hm m hmem).2
  refine ⟨{ opened.meet ms with conditionals := s.conditionals }, ?_, ?_, rfl⟩
  · rw [List.foldlM_cons, hg, Option.bind_eq_bind, Option.bind_some, List.foldlM_append,
      foldlM_lines fun m hmem => (hm m hmem).1, Option.bind_eq_bind, Option.bind_some, List.foldlM_cons,
      step_endGuard (s := opened.meet ms) rfl]
    rfl
  · exact ⟨h.conditionals, served.trans h.served, called.trans h.called⟩

/-- The two definitions of `HEADER_FUNC`, of which one at most is read. -/
theorem Outside.functions (n : Naming) (hn : Text.isIdentifier n.headerFunc = true) : ∃ s' : Reading,
    [Wording.serverGuard, (Registration.serverFunc n).line, Wording.clientGuard, (Registration.clientFunc n).line,
      Wording.endGuard].foldlM step s = some s' ∧ s'.Outside names ∧
      s'.definitions = s.definitions ++ [((Registration.serverFunc n).line, serving names),
        ((Registration.clientFunc n).line, !serving names && calling names)] := by
  have name : Naming.isName n.headerFunc = true := Naming.isName_append n.stem (t := "HEADER_FUNC") (by decide)
  set server := Registration.serverFunc n with hserver
  set client := Registration.clientFunc n with hclient
  have serverLegible : server.Legible := Header.legible_serverFunc n
  have clientLegible : client.Legible := Header.legible_clientFunc n
  -- the readings after each line
  set t₁ : Reading := { s with conditionals := ⟨serving s.names, serving s.names⟩ :: s.conditionals } with h₁
  set t₂ := t₁.meet [server] with h₂
  set b : Conditional :=
    if serving s.names then ⟨true, false⟩ else ⟨calling t₂.names, calling t₂.names⟩ with hb
  set t₃ : Reading := { t₂ with conditionals := b :: s.conditionals } with h₃
  set t₄ := t₃.meet [client] with h₄
  obtain ⟨served₂, called₂⟩ := holds_meet (s := t₁)
    (List.forall_mem_singleton.2 (show Naming.isName server.name = true from name))
  obtain ⟨served₄, called₄⟩ := holds_meet (s := t₃)
    (List.forall_mem_singleton.2 (show Naming.isName client.name = true from name))
  refine ⟨{ t₄ with conditionals := s.conditionals }, ?_, ⟨h.conditionals, ?_, ?_⟩, ?_⟩
  · simp only [List.foldlM_cons, List.foldlM_nil, Option.bind_eq_bind]
    rw [step_serverGuard h.active, Option.bind_some, step_line serverLegible hn, Option.bind_some,
      step_clientGuard (s := t₂) rfl, Option.bind_some, step_line clientLegible hn, Option.bind_some,
      step_endGuard (s := t₄) rfl, Option.bind_some]
    rfl
  · exact served₄.trans (served₂.trans h.served)
  · exact called₄.trans (called₂.trans h.called)
  · have read : b.reading = (!serving names && calling names) := by
      rw [hb, called₂, show calling t₁.names = calling names from h.called, h.served]
      cases serving names <;> rfl
    have : t₄.definitions = s.definitions ++ [(server.line, serving s.names)] ++ [(client.line, b.reading)] := rfl
    rw [this, read, h.served, List.append_assoc]
    rfl

end

end Reading

end NamedDispatch
