/-
Headers that differ in the greatest number of arguments only. The macros of the lower one that do not
depend on its height are shown alike by the higher one, and so are its levels `FE_k` and `FE2_k`, although
those of the second kind have other numbers there; a selector of the lower one lists the last of the names
that the higher one lists.
-/
import Mathlib.Data.List.DropRight
import NamedDispatch.Proofs.Header.Generated

namespace NamedDispatch

/-- The macro without the numbers of those it refers to: all that the text of a header shows of it. -/
def Macro.unnumbered (m : Macro) : Macro := { m with refs := [] }

namespace Header

/-- What a header shows of the macros of a name, in order: their lines, with their notes. -/
def shown (h : Header) (name : String) : List (String × Option String) :=
  (h.sheet.defs.toList.filter fun m => m.name == name).map fun m => (m.line, m.doc)

/-- The macro that is a level of a ladder of the header. -/
def levelMacro (h : Header) (l : Ladder) (k : Nat) : Option Macro :=
  (l.level? k).bind fun id => h.sheet.defs[id]?

/-- The names that `FOR_EACH` and `FOR_EACH2` list, in order. -/
def candidateNames (h : Header) : List (List String) :=
  (h.tables.single :: h.tables.pair.toList).map fun s => s.candidates.map h.sheet.nameOf

/-- The names are the last `count` of the others. -/
structure LastNames (count : Nat) (names others : List String) : Prop where
  length : names.length = count
  last : names = others.rtake count

/-- A macro of the name is shown alike from the height `top` on: it is neither `GET_MACRO` nor a selector nor a
level above `top`. -/
structure Settled (n : Naming) (top : Nat) (name : String) : Prop where
  counter : name ≠ n.counter
  forEach : name ≠ n.forEach
  forEachPair : name ≠ n.forEachPair
  level : ∀ k, top < k → name ≠ n.level k
  pairLevel : ∀ k, top < k → name ≠ n.pairLevel k

/-! ## Macros without numbers -/

theorem line_unnumbered (m : Macro) : m.unnumbered.line = m.line := rfl

theorem unnumbered_pair (n : Naming) (p : PairPolicy) (base base' k : Nat) :
    (Ladder.pair n p 0 base k).unnumbered = (Ladder.pair n p 0 base' k).unnumbered := by
  match k with
  | 0 | 1 | 2 | _ + 3 => rfl

variable (c : Config) {m : UInt64}

theorem unnumbered_registrationPart (firstId firstId' : Nat) :
    (registrationPart c firstId).map Macro.unnumbered =
      (registrationPart (c.withMaxArity m) firstId').map Macro.unnumbered := by
  unfold registrationPart aliasesPart
  rw [show (c.withMaxArity m).effectivePairPolicy = c.effectivePairPolicy from rfl]
  rcases c.effectivePairPolicy with _ | p <;> rfl

/-! ## Macros of one name -/

/-- The macros of a name, without their numbers. -/
def named (name : String) (ms : List Macro) : List Macro :=
  (ms.map Macro.unnumbered).filter fun m => m.name == name

section

variable {name : String}

theorem named_append (ms ms' : List Macro) : named name (ms ++ ms') = named name ms ++ named name ms' := by
  rw [named, List.map_append, List.filter_append]
  rfl

theorem named_eq_nil {ms : List Macro} (h : ∀ m ∈ ms, name ≠ m.name) : named name ms = [] := by
  refine List.filter_eq_nil_iff.2 fun _ hu => ?_
  obtain ⟨m, hm, rfl⟩ := List.mem_map.1 hu
  rw [beq_iff_eq]
  exact (h m hm).symm

theorem shown_eq (h : Header) (name : String) :
    h.shown name = (named name h.sheet.defs.toList).map fun m => (m.line, m.doc) := by
  rw [shown, named, List.filter_map, List.map_map]
  rfl

/-- Of a higher ladder the levels that the name may have are those of the lower one. -/
theorem named_levels {level level' : Nat → Macro} {t t' : Nat} (ht : t ≤ t')
    (hs : ∀ k, (level k).unnumbered = (level' k).unnumbered) (hn : ∀ k, t ≤ k → name ≠ (level' k).name) :
    named name ((List.range t).map level) = named name ((List.range t').map level') := by
  obtain ⟨d, rfl⟩ := Nat.exists_eq_add_of_le ht
  have above : named name (((List.range d).map (t + ·)).map level') = [] := by
    refine named_eq_nil fun m hm => ?_
    rw [List.map_map] at hm
    obtain ⟨k, -, rfl⟩ := List.mem_map.1 hm
    exact hn _ (Nat.le_add_right ..)
  rw [List.range_add, List.map_append, named_append, above, List.append_nil, named, named, List.map_map, List.map_map]
  congr 1
  exact List.map_congr_left fun k _ => hs k

end

/-! ## Two heights -/

section

variable {c} {n : UInt64} (hnm : n ≤ m)
include hnm

theorem named_layout {name : String} (hs : Settled c.naming n.toNat name) :
    named name (layout (c.withMaxArity n)) = named name (layout (c.withMaxArity m)) := by
  have ht : (c.withMaxArity n).top + 1 ≤ (c.withMaxArity m).top + 1 := Nat.succ_le_succ (UInt64.le_iff_toNat_le.1 hnm)
  have singles : named name (singlePart (c.withMaxArity n)) = named name (singlePart (c.withMaxArity m)) :=
    named_levels ht (fun _ => rfl) fun k hk => by
      rw [single_name]
      exact hs.level k hk
  have pairs : named name (pairPart (c.withMaxArity n)) = named name (pairPart (c.withMaxArity m)) := by
    unfold pairPart
    rw [show (c.withMaxArity m).effectivePairPolicy = (c.withMaxArity n).effectivePairPolicy from rfl]
    rcases (c.withMaxArity n).effectivePairPolicy with _ | p
    · rfl
    · refine named_levels ht (unnumbered_pair c.naming p _ _) fun k hk => ?_
      rw [pair_name]
      exact hs.pairLevel k hk
  have tables (i : UInt64) : named name (tablePart (c.withMaxArity i)) = [] := by
    refine named_eq_nil fun macro_ hm => ?_
    unfold tablePart at hm
    split at hm
    all_goals
      simp only [List.mem_cons, List.not_mem_nil, or_false] at hm
      rcases hm with rfl | rfl | rfl
    exacts [hs.counter, hs.forEach, hs.forEachPair, hs.counter, hs.forEach]
  have registrations : named name (registrationPart (c.withMaxArity n) (registrationId (c.withMaxArity n))) =
      named name (registrationPart (c.withMaxArity m) (registrationId (c.withMaxArity m))) := by
    rw [named, named, unnumbered_registrationPart (c.withMaxArity n) _ _]
    rfl
  have parts (i : UInt64) : layout (c.withMaxArity i) = [Ladder.expandMacro] ++ (singlePart (c.withMaxArity i) ++
      pairPart (c.withMaxArity i) ++ tablePart (c.withMaxArity i) ++ headerFuncPart (c.withMaxArity i) ++
      registrationPart (c.withMaxArity i) (registrationId (c.withMaxArity i))) := rfl
  rw [parts, parts]
  simp only [named_append]
  rw [singles, pairs, tables, tables, registrations]
  rfl

omit hnm in
theorem levelMacro_single (c : Config) {k : Nat} (hk : k ≤ c.top) :
    (build c).levelMacro (singleLadder c) k = some (Ladder.single c.naming 0 1 k) := by
  rw [levelMacro, singleLadder, Sheet.level?_range' (Nat.lt_succ_of_le hk), Option.bind_some, ← Array.getElem?_toList,
    toList_build, layout_single c hk]

omit hnm in
theorem levelMacro_double {p : PairPolicy} (hp : c.effectivePairPolicy = some p) {k : Nat} (hk : k ≤ c.top) :
    (build c).levelMacro (doubleLadder c) k = some (Ladder.pair c.naming p 0 (c.top + 2) k) := by
  rw [levelMacro, doubleLadder, Sheet.level?_range' (Nat.lt_succ_of_le hk), Option.bind_some, ← Array.getElem?_toList,
    toList_build, layout_pair c hp hk]

/-- From the top down, the names of the lower levels come last. -/
theorem lastNames_levels (name : Nat → String) : LastNames (n.toNat + 1)
    ((List.range (n.toNat + 1)).map name).reverse ((List.range (m.toNat + 1)).map name).reverse := by
  refine ⟨by simp, ?_⟩
  rw [List.rtake_eq_reverse_take_reverse, List.reverse_reverse, ← List.map_take, List.take_range,
    Nat.min_eq_left (Nat.succ_le_succ (UInt64.le_iff_toNat_le.1 hnm))]

end

theorem candidateNames_build (c : Config) : (build c).candidateNames =
    ((List.range (c.top + 1)).map c.naming.level).reverse ::
      (if c.effectivePairPolicy.isSome then [((List.range (c.top + 1)).map c.naming.pairLevel).reverse] else []) := by
  rw [candidateNames, List.map_cons, show (build c).tables = tablesOf c by rw [build_eq]]
  refine congrArg₂ List.cons (descending_single c) ?_
  rw [tablesOf]
  cases hp : c.effectivePairPolicy with
  | none => rfl
  | some p => exact congrArg (fun names => [names]) (descending_double c hp)

/-- Of two headers that differ in their height, every macro of the lower one but `GET_MACRO` and the selectors
is shown alike by the higher one, each level `FE_k` and `FE2_k` of the lower one is a level there with the same
line, and each selector of the lower one lists the last of the names that the higher one lists. -/
theorem heights_agree {c : Config} {n m : UInt64} (hnm : n ≤ m) {h h' : Header}
    (hg : generate (c.withMaxArity n) = .ok h) (hg' : generate (c.withMaxArity m) = .ok h') :
    (∀ k ≤ n.toNat, ∃ low high, h.levelMacro h.ladder k = some low ∧ h'.levelMacro h'.ladder k = some high ∧
      low.name = c.naming.level k ∧ low.line = high.line) ∧
    h.pairLadder.isSome = h'.pairLadder.isSome ∧
    (∀ l l', h.pairLadder = some l → h'.pairLadder = some l' → ∀ k ≤ n.toNat, ∃ low high,
      h.levelMacro l k = some low ∧ h'.levelMacro l' k = some high ∧ low.name = c.naming.pairLevel k ∧
        low.line = high.line) ∧
    (∀ name, Settled c.naming n.toNat name → h.shown name = h'.shown name) ∧
    List.Forall₂ (LastNames (n.toNat + 1)) h.candidateNames h'.candidateNames := by
  obtain ⟨rfl, -⟩ := eq_build hg
  obtain ⟨rfl, -⟩ := eq_build hg'
  have hle : n.toNat ≤ m.toNat := UInt64.le_iff_toNat_le.1 hnm
  have ladder (c : Config) : (build c).ladder = singleLadder c := by rw [build_eq]
  have pairLadder (c : Config) : (build c).pairLadder = c.effectivePairPolicy.map fun _ => doubleLadder c := by
    rw [Header.pairLadder, build_eq, Option.map_map]
    rfl
  refine ⟨fun k hk => ?_, ?_, fun l l' hl hl' k hk => ?_, fun name hs => ?_, ?_⟩
  · exact ⟨_, _, by rw [ladder]; exact levelMacro_single _ hk,
      by rw [ladder]; exact levelMacro_single _ (hk.trans hle), single_name .., rfl⟩
  · rw [pairLadder, pairLadder, Option.isSome_map, Option.isSome_map]
    rfl
  · rw [pairLadder] at hl hl'
    obtain ⟨p, hp, rfl⟩ := Option.map_eq_some_iff.1 hl
    obtain ⟨-, -, rfl⟩ := Option.map_eq_some_iff.1 hl'
    refine ⟨_, _, levelMacro_double hp hk, levelMacro_double (c := c.withMaxArity m) hp (hk.trans hle),
      pair_name .., ?_⟩
    rw [← line_unnumbered, unnumbered_pair _ p _ ((c.withMaxArity m).top + 2) k]
    rfl
  · rw [shown_eq, shown_eq, toList_build, toList_build, named_layout hnm hs]
  · rw [candidateNames_build, candidateNames_build,
      show (c.withMaxArity m).effectivePairPolicy = (c.withMaxArity n).effectivePairPolicy from rfl]
    refine .cons (lastNames_levels hnm _) ?_
    split
    · exact .cons (lastNames_levels hnm _) .nil
    · exact .nil

theorem heights_agree_four : ∃ low high, (build ⟨2, .templated, none, "RPC_"⟩).levelMacro
      (build ⟨2, .templated, none, "RPC_"⟩).ladder 2 = some low ∧
    (build ⟨4, .templated, none, "RPC_"⟩).levelMacro (build ⟨4, .templated, none, "RPC_"⟩).ladder 2 = some high ∧
    low.name = "RPC_FE_2" ∧ low.line = high.line := by
  have hg : generate ((⟨0, .templated, none, "RPC_"⟩ : Config).withMaxArity 2) =
      .ok (build ⟨2, .templated, none, "RPC_"⟩) := by
    rw [generate_eq]
    rfl
  have hg' : generate ((⟨0, .templated, none, "RPC_"⟩ : Config).withMaxArity 4) =
      .ok (build ⟨4, .templated, none, "RPC_"⟩) := by
    rw [generate_eq]
    rfl
  exact (heights_agree (by decide) hg hg').1 2 (by decide)

end Header

end NamedDispatch
