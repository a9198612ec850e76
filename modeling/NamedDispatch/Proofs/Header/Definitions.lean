/-
Reading the `#define` lines of a header back. They are those of the macros, in the order of their numbers, and
`Definition.read?` gives back the name, the parameters and the body of each. Whatever word of a body is the
name of a macro, that name is defined on an earlier line.
-/
import NamedDispatch.Proofs.Header.Generated
import NamedDispatch.Proofs.Header.Render

namespace NamedDispatch

/-! ## Reading a definition -/

/-- What a `#define` line says. -/
structure Definition where
  name : String
  params : List String
  body : String
deriving DecidableEq, Repr

namespace Definition

/-- How the line of a definition starts. -/
def mark : List Char := "#define ".toList

/-- Whether a line is a `#define` line. -/
def startsOn (line : String) : Bool := mark.isPrefixOf line.toList

/-- The characters before the first occurrence of a sign, and those after it. -/
def cutAt (sign : Char) : List Char → Option (List Char × List Char)
  | [] => none
  | c :: cs => if c == sign then some ([], cs) else (cutAt sign cs).map fun (before, after) => (c :: before, after)

/-- The characters without a blank in front. -/
def dropBlank : List Char → List Char
  | ' ' :: cs => cs
  | cs => cs

/-- Reads a `#define` line: the name stands before the first parenthesis and the parameters before the first
closing one, with commas between them; the body is the rest of the line. -/
def read? (line : String) : Option Definition := do
  let (name, rest) ← cutAt '(' (line.toList.drop mark.length)
  let (params, body) ← cutAt ')' rest
  return ⟨String.ofList name, (params.splitOn ',').map fun p => String.ofList (dropBlank p),
    String.ofList (dropBlank body)⟩

/-- The names that lines define, in order. -/
def names (lines : List String) : List String :=
  (lines.filter startsOn).filterMap fun line => (read? line).map (·.name)

end Definition

/-- What the line of a macro says. -/
def Macro.definition (m : Macro) : Definition := ⟨m.name, m.params, m.body⟩

/-! ## Reading a macro back -/

namespace Definition

theorem cutAt_append {sign : Char} {cs : List Char} (h : sign ∉ cs) (ds : List Char) :
    cutAt sign (cs ++ sign :: ds) = some (cs, ds) := by
  induction cs with
  | nil => rw [List.nil_append, cutAt, if_pos (BEq.refl _)]
  | cons c cs ih =>
    rw [List.mem_cons, not_or] at h
    rw [List.cons_append, cutAt, if_neg (by rw [beq_iff_eq]; exact fun e => h.1 e.symm), ih h.2]
    rfl

theorem dropBlank_of_head {cs : List Char} (h : cs.head? ≠ some ' ') : dropBlank cs = cs := by
  unfold dropBlank
  split
  · exact absurd rfl h
  · rfl

theorem splitOn_commaList {p : String} {ps : List String} (h : ∀ q ∈ p :: ps, ',' ∉ q.toList) :
    (Macro.commaList (p :: ps)).toList.splitOn ',' = p.toList :: ps.map fun q => ' ' :: q.toList := by
  rw [Macro.commaList]
  induction ps generalizing p with
  | nil =>
    rw [String.intercalate_singleton]
    exact List.splitOn_eq_singleton (h p (List.mem_cons_self ..))
  | cons q ps ih =>
    have hp := h p (List.mem_cons_self ..)
    have hq := ih fun r hr => h r (List.mem_cons_of_mem _ hr)
    rw [String.intercalate_cons_cons, String.toList_append, String.toList_append, List.append_assoc,
      show ", ".toList = [',', ' '] from rfl, List.cons_append, List.splitOn_append_cons_self_of_not_mem hp,
      List.cons_append, List.nil_append, List.splitOn_cons_eq_if_modifyHead, if_neg (by decide), hq]
    rfl

variable {p : String}

/-- A parameter has no sign that ends one, and no blank in front. -/
theorem not_mem_param (h : Macro.isParam p = true) : ',' ∉ p.toList ∧ ')' ∉ p.toList ∧ p.toList.head? ≠ some ' ' := by
  rw [Macro.isParam, Bool.or_eq_true, beq_iff_eq] at h
  rcases h with h | rfl
  · have words := Text.all_isWordChar_of_isIdentifier h
    refine ⟨fun hc => ?_, fun hc => ?_, fun hc => ?_⟩
    · exact absurd (words _ hc) (by decide)
    · exact absurd (words _ hc) (by decide)
    · exact absurd (words _ (List.mem_of_head? hc)) (by decide)
  · decide

theorem startsOn_line (m : Macro) : startsOn m.line = true := by
  rw [startsOn, List.isPrefixOf_iff_prefix, m.toList_line]
  exact List.prefix_append _ _

/-- The line of a macro gives the macro back. -/
theorem read?_line {m : Macro} (h : m.Legible) (hn : Text.isIdentifier m.name = true) :
    read? m.line = some m.definition := by
  have name : '(' ∉ m.name.toList := fun hc =>
    absurd (Text.all_isWordChar_of_isIdentifier hn _ hc) (by decide)
  have params : ')' ∉ (Macro.commaList m.params).toList := fun hc => by
    rcases Macro.mem_commaList hc with h' | h' | ⟨p, hp, hc⟩
    · exact absurd h' (by decide)
    · exact absurd h' (by decide)
    · exact (not_mem_param (h.param p hp)).2.1 hc
  have listed : ((Macro.commaList m.params).toList.splitOn ',').map (fun p => String.ofList (dropBlank p)) =
      m.params := by
    rcases hps : m.params with _ | ⟨p, ps⟩
    · have := h.params
      rw [hps] at this
      cases this
    · have hp : ∀ q ∈ p :: ps, Macro.isParam q = true := hps ▸ h.param
      rw [splitOn_commaList fun q hq => (not_mem_param (hp q hq)).1, List.map_cons, List.map_map,
        dropBlank_of_head (not_mem_param (hp p (List.mem_cons_self ..))).2.2, String.ofList_toList]
      congr 1
      conv_rhs => rw [← List.map_id ps]
      exact List.map_congr_left fun q _ => String.ofList_toList
  have body : String.ofList (dropBlank (if m.body.isEmpty then [] else ' ' :: m.body.toList)) = m.body := by
    split
    · rename_i he
      rw [String.isEmpty_iff.1 he]
      rfl
    · exact String.ofList_toList
  have drop : m.line.toList.drop mark.length = m.name.toList ++ '(' ::
      ((Macro.commaList m.params).toList ++ ')' :: if m.body.isEmpty then [] else ' ' :: m.body.toList) := by
    rw [m.toList_line]
    exact List.drop_left
  simp only [read?, drop, cutAt_append name, Option.bind_eq_bind, Option.bind_some, cutAt_append params,
    listed, body, String.ofList_toList]
  rfl

theorem names_lines {ms : List Macro} (h : ∀ m ∈ ms, m.Legible ∧ Text.isIdentifier m.name = true) :
    names (ms.map Macro.line) = ms.map (·.name) := by
  rw [names, List.filter_eq_self.2 (by simpa using fun m _ => startsOn_line m), List.filterMap_map]
  induction ms with
  | nil => rfl
  | cons m ms ih =>
    obtain ⟨legible, name⟩ := h m (List.mem_cons_self ..)
    rw [List.filterMap_cons_some (by rw [Function.comp_apply, read?_line legible name]; rfl),
      ih fun m' hm' => h m' (List.mem_cons_of_mem _ hm')]
    rfl

end Definition

namespace Header

open Sheet (Entry)
open Definition (mark startsOn)

variable {c : Config}

/-! ## The text of a header -/

theorem filter_texts {es : List Entry} (h : ∀ text ∈ es.filterMap Entry.directive?, startsOn text = false) :
    (es.filterMap Entry.text?).filter startsOn = (es.filterMap Entry.macro?).map Macro.line := by
  induction es with
  | nil => rfl
  | cons e es ih =>
    cases e with
    | define m =>
      rw [List.filterMap_cons_some (show Entry.text? (.define m) = some m.line from rfl),
        List.filter_cons_of_pos (Definition.startsOn_line m), ih h]
      rfl
    | directive text =>
      have h : ∀ t ∈ text :: es.filterMap Entry.directive?, startsOn t = false := h
      rw [List.filterMap_cons_some (show Entry.text? (.directive text) = some text from rfl),
        List.filter_cons_of_neg (by rw [h text (List.mem_cons_self ..)]; decide),
        ih fun t ht => h t (List.mem_cons_of_mem _ ht)]
      rfl
    | blank => exact ih h

theorem startsOn_directives : ∀ text ∈ (entries c).filterMap Entry.directive?, startsOn text = false := by
  have other {cs : List Char} (h : mark.isPrefixOf cs = false) : startsOn (String.ofList cs) = false := by
    rwa [startsOn, String.toList_ofList]
  rw [directives_entries]
  split
  · simp only [List.forall_mem_cons, List.not_mem_nil, false_implies, implies_true, and_true]
    refine ⟨?_, ?_, ?_, ?_, ?_, ?_, ?_, ?_⟩ <;> exact other (by decide)
  · rw [List.forall_mem_singleton]
    exact other (by decide)

theorem isDirective_of_startsOn {line : String} (h : startsOn line = true) :
    Text.isDirective line = true := by
  rw [Definition.startsOn, List.isPrefixOf_iff_prefix] at h
  obtain ⟨cs, hcs⟩ := h
  rw [Text.isDirective, ← hcs]
  rfl

/-- The `#define` lines of a header are those of its macros, in the order of their numbers. -/
theorem definitionLines_build (hs : Text.isStem c.stem = true) :
    (Text.lines (build c).render).filter startsOn = (layout c).map Macro.line := by
  have both : (Text.lines (build c).render).filter startsOn =
      ((Text.lines (build c).render).filter Text.isDirective).filter startsOn := by
    rw [List.filter_filter]
    refine List.filter_congr fun line _ => ?_
    cases h : startsOn line
    · rfl
    · rw [isDirective_of_startsOn h]
      rfl
  rw [both, directiveLines_build hs, filter_texts startsOn_directives, filterMap_entries]

/-! ## Names on earlier lines -/

/-- A word of a body that is the name of a macro is that of a macro recorded. -/
theorem mem_refs_of_word (hs : Text.isStem c.stem = true) {id : Nat} {m : Macro} (hm : (layout c)[id]? = some m)
    {w : Text.Word} (hw : w ∈ Text.words m.body.toList)
    (hn : String.ofList w.chars ∈ (layout c).map (·.name)) :
    ∃ r < id, (build c).sheet.nameOf r = String.ofList w.chars := by
  obtain ⟨m', hm', hname⟩ := List.mem_map.1 hn
  have proper : Naming.isName (String.ofList w.chars) = true := hname ▸ isName_layout c m' hm'
  have identifier : Text.isIdentifier (String.ofList w.chars) = true := hname ▸ isIdentifier_layout hs m' hm'
  have sound := (ordered_build hs).sound id m (toList_build c ▸ hm)
  -- a name is not turned into a string, so that it is among those mentioned
  have word : w.isName = true := by
    rw [Text.Word.isName, Bool.and_eq_true, bne_iff_ne]
    refine ⟨Text.startsWord identifier, fun hb => ?_⟩
    have quoted := List.any_eq_false.1 (legible_layout hs m (List.mem_of_getElem? hm)).quotes w hw
    rw [Naming.isName, Naming.endsLikeName, String.toList_ofList, Bool.or_eq_true, beq_iff_eq] at proper
    rw [hb, BEq.refl, Bool.true_and, Bool.or_eq_true, beq_iff_eq] at quoted
    exact quoted (proper.symm.imp_right fun h => by rw [← h, String.toList_ofList])
  have mentioned : String.ofList w.chars ∈ Naming.mentions m.body :=
    List.mem_filter.2 ⟨List.mem_map.2 ⟨w, List.mem_filter.2 ⟨hw, word⟩, rfl⟩, proper⟩
  rw [sound.names] at mentioned
  obtain ⟨r, hr, hname⟩ := List.mem_map.1 mentioned
  exact ⟨r, sound.below r hr, hname⟩

/-- Read by `read?`, the `#define` lines of a header are those of its macros in the order of their numbers and
give back the name, the parameters and the body of each, and whatever word of a body is the name of a macro is
defined on an earlier line. -/
theorem definitions_readBack {c : Config} {h : Header} (hg : generate c = .ok h) :
    ((Text.lines h.render).filter startsOn).map Definition.read? =
      h.sheet.defs.toList.map (fun m => some ⟨m.name, m.params, m.body⟩) ∧
    ∀ (i : Nat) (line : String) (d : Definition), (Text.lines h.render)[i]? = some line →
      startsOn line = true → Definition.read? line = some d →
      ∀ w ∈ Text.words d.body.toList, String.ofList w.chars ∈ h.sheet.defs.toList.map (·.name) →
        String.ofList w.chars ∈ Definition.names ((Text.lines h.render).take i) := by
  obtain ⟨rfl, hs⟩ := eq_build hg
  have readable : ∀ m ∈ layout c, m.Legible ∧ Text.isIdentifier m.name = true :=
    fun m hm => ⟨legible_layout hs m hm, isIdentifier_layout hs m hm⟩
  rw [toList_build]
  constructor
  · rw [definitionLines_build hs, List.map_map]
    exact List.map_congr_left fun m hm => Definition.read?_line (readable m hm).1 (readable m hm).2
  · intro i line d hi hstart hd w hw hn
    -- the line is that of a macro, and the lines before it are those of the macros before
    obtain ⟨id, hid, htake⟩ := Text.take_filter hi hstart
    rw [definitionLines_build hs] at hid htake
    rw [List.getElem?_map] at hid
    obtain ⟨m, hm, rfl⟩ := Option.map_eq_some_iff.1 hid
    have hmem := readable m (List.mem_of_getElem? hm)
    rw [Definition.read?_line hmem.1 hmem.2] at hd
    obtain rfl := Option.some.inj hd
    obtain ⟨r, hr, hname⟩ := mem_refs_of_word hs hm hw hn
    have hlt : r < (layout c).length := Nat.lt_trans hr (List.getElem?_eq_some_iff.1 hm).1
    have hget := List.getElem?_eq_getElem hlt
    rw [nameOf_build c hget] at hname
    have before : Definition.names ((Text.lines (build c).render).take i) = ((layout c).take id).map (·.name) := by
      rw [← Definition.names_lines fun m hm => readable m (List.mem_of_mem_take hm), List.map_take, ← htake,
        Definition.names, Definition.names, List.filter_filter]
      simp only [Bool.and_self]
    rw [before, ← hname]
    exact List.mem_map_of_mem (List.mem_take_iff_getElem.2 ⟨r, by omega, rfl⟩)

theorem definitions_readBack_level : some ⟨"RPC_FE_2", ["WHAT", "X", "..."],
      "EXPAND(WHAT(X)RPC_FE_1(WHAT, __VA_ARGS__))"⟩ ∈
    ((Text.lines (build ⟨3, .classic, none, "RPC_"⟩).render).filter startsOn).map Definition.read? := by
  have hg : generate ⟨3, .classic, none, "RPC_"⟩ = .ok (build ⟨3, .classic, none, "RPC_"⟩) := by
    rw [generate_eq]
    rfl
  rw [(definitions_readBack hg).1, toList_build]
  exact List.mem_map.2 ⟨_, List.mem_of_getElem? (layout_single _ (k := 2) (by decide)), rfl⟩

end Header

end NamedDispatch
