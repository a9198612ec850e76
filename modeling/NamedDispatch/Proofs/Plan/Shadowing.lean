/-
Branches that are never taken. The search for them remembers where each name was seen first, which at any
branch is where the first branch of the name stands, if that is one before. So a branch is reported just if
it is not the first of its name. What is left has one branch for each name, and a name finds there what it
finds among all branches.
-/
import Mathlib.Data.List.Dedup
import NamedDispatch.Plan.Basic

namespace NamedDispatch.Plan

/-! ## First positions -/

/-- Where the first branch of a name stands. -/
def first? (bs : List Branch) (name : String) : Option Nat := bs.findIdx? fun b => b.name == name

theorem first?_eq_some_iff {bs : List Branch} {name : String} {i : Nat} : first? bs name = some i ↔
    (bs[i]?.map Branch.name = some name) ∧ ∀ j < i, bs[j]?.map Branch.name ≠ some name := by
  rw [first?, List.findIdx?_eq_some_iff_getElem]
  constructor
  · rintro ⟨hi, hn, hlt⟩
    refine ⟨by rw [List.getElem?_eq_getElem hi, Option.map_some, beq_iff_eq.1 hn], fun j hj he => ?_⟩
    rw [List.getElem?_eq_getElem (Nat.lt_trans hj hi), Option.map_some] at he
    exact hlt j hj (beq_iff_eq.2 (Option.some.inj he))
  · rintro ⟨hn, hlt⟩
    obtain ⟨b, hb, rfl⟩ := Option.map_eq_some_iff.1 hn
    obtain ⟨hi, rfl⟩ := List.getElem?_eq_some_iff.1 hb
    refine ⟨hi, beq_iff_eq.2 rfl, fun j hj he => hlt j hj ?_⟩
    rw [List.getElem?_eq_getElem (Nat.lt_trans hj hi), Option.map_some, beq_iff_eq.1 he]

/-- Every branch has a first one of its name, which does not stand after it. -/
theorem exists_first {bs : List Branch} {b : Branch} {i : Nat} (h : bs[i]? = some b) :
    ∃ first, first? bs b.name = some first ∧ first ≤ i := by
  cases hf : first? bs b.name with
  | none =>
    have hn := List.findIdx?_eq_none_iff.1 hf b (List.mem_of_getElem? h)
    rw [beq_self_eq_true] at hn
    cases hn
  | some first =>
    refine ⟨first, rfl, Nat.le_of_not_lt fun hlt => (first?_eq_some_iff.1 hf).2 i hlt ?_⟩
    rw [h, Option.map_some]

/-- What is reported for the branch at a position: nothing for the first one of its name. -/
def report? (bs : List Branch) (b : Branch × Nat) : Option Shadowed :=
  (first? bs b.1.name).bind fun first => if first < b.2 then some ⟨b.1.name, b.2, first⟩ else none

theorem report?_eq_some_iff {bs : List Branch} {b : Branch × Nat} {s : Shadowed} : report? bs b = some s ↔
    s.name = b.1.name ∧ s.position = b.2 ∧ first? bs s.name = some s.first ∧ s.first < s.position := by
  rw [report?, Option.bind_eq_some_iff]
  constructor
  · rintro ⟨first, hf, hs⟩
    split at hs
    · next hlt =>
      cases hs
      exact ⟨rfl, rfl, hf, hlt⟩
    · cases hs
  · obtain ⟨name, position, first⟩ := s
    rintro ⟨rfl, rfl, hf, hlt⟩
    exact ⟨first, hf, if_pos hlt⟩

/-! ## The search -/

/-- From any branch on, `shadowedFrom` gives what is to be reported if it remembers the first positions of
the names before. -/
theorem shadowedFrom_eq {seen : List (String × Nat)} (done : List Branch)
    (hs : ∀ name, seen.lookup name = first? done name) (rest : List Branch) :
    shadowedFrom seen done.length rest = (rest.zipIdx done.length).filterMap (report? (done ++ rest)) := by
  induction rest generalizing seen done with
  | nil => rfl
  | cons b rest ih =>
    have hall : done ++ b :: rest = (done ++ [b]) ++ rest := List.append_cons ..
    have hlen : (done ++ [b]).length = done.length + 1 := List.length_append
    -- the first one of the name is remembered, or it is the branch itself
    have hfirst : first? (done ++ b :: rest) b.name = (seen.lookup b.name).or (some done.length) := by
      rw [hs, first?, List.findIdx?_append, List.findIdx?_cons, beq_self_eq_true, if_pos rfl, Option.map_some,
        Nat.zero_add]
      rfl
    rw [List.zipIdx_cons, List.filterMap_cons, shadowedFrom, report?, hfirst]
    cases hl : seen.lookup b.name with
    | some first =>
      have hlt : first < done.length := by
        rw [hs] at hl
        exact (List.findIdx?_eq_some_iff_findIdx_eq.1 hl).1
      have hs' (name : String) : seen.lookup name = first? (done ++ [b]) name := by
        rw [first?, List.findIdx?_append, ← first?, ← hs]
        cases hn : seen.lookup name with
        | some i => rfl
        | none =>
          have hne : (b.name == name) = false := beq_eq_false_iff_ne.2 fun he => by
            rw [← he, hl] at hn
            cases hn
          rw [List.findIdx?_singleton, hne]
          rfl
      have hrest := ih _ hs'
      rw [hlen, ← hall] at hrest
      simp only [Option.some_or, Option.bind_some, if_pos hlt, hrest]
    | none =>
      have hs' (name : String) : ((b.name, done.length) :: seen).lookup name = first? (done ++ [b]) name := by
        rw [first?, List.findIdx?_append, ← first?, ← hs, List.lookup_cons, BEq.comm, List.findIdx?_singleton]
        cases he : b.name == name with
        | true =>
          rw [← beq_iff_eq.1 he, hl]
          simp
        | false => simp
      have hrest := ih _ hs'
      rw [hlen, ← hall] at hrest
      simp only [Option.none_or, Option.bind_some, Nat.lt_irrefl, if_false, hrest]

theorem shadowed_eq (p : Plan) : p.shadowed = p.branches.zipIdx.filterMap (report? p.branches) :=
  shadowedFrom_eq [] (fun _ => rfl) p.branches

theorem mem_shadowed_iff {p : Plan} {s : Shadowed} : s ∈ p.shadowed ↔
    p.branches[s.position]?.map Branch.name = some s.name ∧ first? p.branches s.name = some s.first ∧
      s.first < s.position := by
  rw [shadowed_eq, List.mem_filterMap]
  constructor
  · rintro ⟨b, hb, hs⟩
    obtain ⟨hn, hp, hf, hlt⟩ := report?_eq_some_iff.1 hs
    refine ⟨?_, hf, hlt⟩
    rw [hp, List.mem_zipIdx_iff_getElem?.1 hb, Option.map_some, hn]
  · rintro ⟨hb, hf, hlt⟩
    obtain ⟨b, hb, hn⟩ := Option.map_eq_some_iff.1 hb
    exact ⟨(b, s.position), List.mem_zipIdx_iff_getElem?.2 hb, report?_eq_some_iff.2 ⟨hn.symm, rfl, hf, hlt⟩⟩

/-! ## Positions -/

/-- The positions that `shadowed` reports: those of branches that are never taken. -/
def deadPositions (p : Plan) : List Nat := p.shadowed.map Shadowed.position

theorem pairwise_deadPositions (p : Plan) : p.deadPositions.Pairwise (· < ·) := by
  have hz : p.branches.zipIdx.Pairwise fun a b => a.2 < b.2 := by
    rw [← List.pairwise_map (f := Prod.snd) (R := (· < ·)), List.zipIdx_map_snd]
    exact List.pairwise_lt_range' 1
  rw [deadPositions, shadowed_eq, List.pairwise_map]
  refine hz.filterMap _ fun a b hab s hs t ht => ?_
  rwa [(report?_eq_some_iff.1 hs).2.1, (report?_eq_some_iff.1 ht).2.1]

/-- A position is dead just if it is not the first one of its branch's name. -/
theorem mem_deadPositions_iff {p : Plan} {b : Branch} {i : Nat} (h : p.branches[i]? = some b) :
    i ∈ p.deadPositions ↔ first? p.branches b.name ≠ some i := by
  rw [deadPositions, List.mem_map]
  constructor
  · rintro ⟨s, hs, rfl⟩ hf
    obtain ⟨hn, hfs, hlt⟩ := mem_shadowed_iff.1 hs
    rw [h, Option.map_some, Option.some.injEq] at hn
    rw [hn, hfs] at hf
    exact Nat.ne_of_lt hlt (Option.some.inj hf)
  · intro hne
    obtain ⟨first, hf, hle⟩ := exists_first h
    have hlt : first < i := Nat.lt_of_le_of_ne hle fun he => hne (he ▸ hf)
    exact ⟨⟨b.name, i, first⟩, mem_shadowed_iff.2 ⟨by rw [h, Option.map_some], hf, hlt⟩, rfl⟩

/-! ## Branches that are left -/

/-- The branches that may be taken, each with its position. -/
def live (p : Plan) : List (Branch × Nat) := p.branches.zipIdx.filter fun b => b.2 ∉ p.deadPositions

theorem mem_live_iff {p : Plan} {b : Branch × Nat} : b ∈ p.live ↔
    p.branches[b.2]? = some b.1 ∧ first? p.branches b.1.name = some b.2 := by
  rw [live, List.mem_filter, List.mem_zipIdx_iff_getElem?, decide_eq_true_iff]
  refine and_congr_right fun h => ?_
  rw [mem_deadPositions_iff h, not_not]

/-- No two branches that are left have one name. -/
theorem nodup_live (p : Plan) : (p.live.map fun b => b.1.name).Nodup := by
  have hpos : p.live.Pairwise fun a b => a.2 ≠ b.2 := by
    refine List.Pairwise.filter _ ?_
    rw [← List.pairwise_map (f := Prod.snd) (R := (· ≠ ·)), List.zipIdx_map_snd]
    exact List.nodup_range'
  rw [List.nodup_iff_pairwise_ne, List.pairwise_map]
  refine hpos.imp_of_mem fun ha hb hne he => hne ?_
  have hfirst := (mem_live_iff.1 ha).2
  rw [he, (mem_live_iff.1 hb).2] at hfirst
  exact (Option.some.inj hfirst).symm

theorem mem_live_names_iff (p : Plan) (name : String) :
    name ∈ p.live.map (fun b => b.1.name) ↔ name ∈ p.branches.map Branch.name := by
  rw [List.mem_map, List.mem_map]
  constructor
  · rintro ⟨b, hb, rfl⟩
    exact ⟨b.1, List.mem_of_getElem? (mem_live_iff.1 hb).1, rfl⟩
  · rintro ⟨b, hb, rfl⟩
    obtain ⟨i, hi⟩ := List.getElem?_of_mem hb
    obtain ⟨first, hf, -⟩ := exists_first hi
    obtain ⟨b', hb', hn⟩ := Option.map_eq_some_iff.1 (first?_eq_some_iff.1 hf).1
    exact ⟨(b', first), mem_live_iff.2 ⟨hb', by rw [hn, hf]⟩, hn⟩

theorem length_live (p : Plan) : p.live.length = (p.branches.map Branch.name).dedup.length := by
  have hp : (p.live.map fun b => b.1.name).Perm (p.branches.map Branch.name).dedup :=
    (List.perm_ext_iff_of_nodup p.nodup_live (List.nodup_dedup _)).2 fun name => by
      rw [List.mem_dedup, p.mem_live_names_iff]
  rw [← hp.length_eq, List.length_map]

/-- Leaving out elements that are not found first changes nothing that is found. -/
theorem find?_filter_of_find? {α : Type} {p q : α → Bool} : ∀ {l : List α},
    (∀ a, l.find? p = some a → q a = true) → (l.filter q).find? p = l.find? p
  | [], _ => rfl
  | a :: l, h => by
    rw [List.find?_cons] at h ⊢
    cases hp : p a with
    | true =>
      rw [hp] at h
      rw [List.filter_cons_of_pos (h a rfl), List.find?_cons, hp]
    | false =>
      rw [hp] at h
      have hl := find?_filter_of_find? h
      cases hq : q a with
      | true => rw [List.filter_cons_of_pos hq, List.find?_cons, hp, hl]
      | false => rw [List.filter_cons_of_neg (by rw [hq]; decide), hl]

theorem first?_of_find? {bs : List Branch} {name : String} {b : Branch × Nat}
    (h : bs.zipIdx.find? (fun b => b.1.name == name) = some b) :
    bs[b.2]? = some b.1 ∧ first? bs b.1.name = some b.2 := by
  obtain ⟨hn, i, hi, rfl, hlt⟩ := List.find?_eq_some_iff_getElem.1 h
  rw [List.length_zipIdx] at hi
  simp only [List.getElem_zipIdx, Nat.zero_add] at hn hlt ⊢
  obtain rfl := beq_iff_eq.1 hn
  refine ⟨List.getElem?_eq_getElem hi, List.findIdx?_eq_some_iff_getElem.2 ⟨hi, hn, fun j hj he => ?_⟩⟩
  have := hlt j hj
  rw [he] at this
  cases this

/-- A name finds the same branch at the same position whether or not the branches that are never taken are
left out. -/
theorem find?_live (p : Plan) (name : String) :
    p.live.find? (fun b => b.1.name == name) = p.branches.zipIdx.find? fun b => b.1.name == name :=
  find?_filter_of_find? fun b hb => by
    obtain ⟨hi, hf⟩ := first?_of_find? hb
    rw [decide_eq_true_iff, mem_deadPositions_iff hi, not_not, hf]

/-! ## Every plan -/

/-- A plan's `shadowed` reports a branch just if an earlier one has its name, in the order of the positions and
each once, with the first position of the name, which is itself not reported. There are as many branches left as
there are names, and every name finds the same branch with the others left out. -/
theorem shadowed_exactly (p : Plan) :
    (∀ i, i ∈ p.shadowed.map Shadowed.position ↔
      ∃ b, p.branches[i]? = some b ∧ ∃ j < i, p.branches[j]?.map Branch.name = some b.name) ∧
    (p.shadowed.map Shadowed.position).Pairwise (· < ·) ∧
    (∀ s ∈ p.shadowed, p.branches[s.position]?.map Branch.name = some s.name ∧
      p.branches[s.first]?.map Branch.name = some s.name ∧
      (∀ j < s.first, p.branches[j]?.map Branch.name ≠ some s.name) ∧
      s.first ∉ p.shadowed.map Shadowed.position) ∧
    p.live.length = (p.branches.map Branch.name).dedup.length ∧
    ∀ name, p.live.find? (fun b => b.1.name == name) = p.branches.zipIdx.find? fun b => b.1.name == name := by
  refine ⟨fun i => ?_, p.pairwise_deadPositions, fun s hs => ?_, p.length_live, p.find?_live⟩
  · constructor
    · intro hi
      obtain ⟨s, hs, rfl⟩ := List.mem_map.1 hi
      obtain ⟨hn, hf, hlt⟩ := mem_shadowed_iff.1 hs
      obtain ⟨b, hb, hname⟩ := Option.map_eq_some_iff.1 hn
      exact ⟨b, hb, s.first, hlt, by rw [hname, (first?_eq_some_iff.1 hf).1]⟩
    · rintro ⟨b, hb, j, hj, hname⟩
      exact (mem_deadPositions_iff hb).2 fun hf => (first?_eq_some_iff.1 hf).2 j hj hname
  · obtain ⟨hn, hf, -⟩ := mem_shadowed_iff.1 hs
    obtain ⟨hfirst, hlt⟩ := first?_eq_some_iff.1 hf
    obtain ⟨b, hb, hname⟩ := Option.map_eq_some_iff.1 hfirst
    refine ⟨hn, hfirst, hlt, fun hdead => (mem_deadPositions_iff hb).1 hdead ?_⟩
    rw [hname, hf]

/-- A name within one invocation twice, and again as an alias. -/
example : Plan.shadowed ⟨[⟨.attachMany ["Sum", "Mul", "Sum"], false⟩, ⟨.singleAlias "Div" "Mul", true⟩]⟩ =
    [⟨"Sum", 2, 0⟩, ⟨"Mul", 3, 1⟩] := by decide

end NamedDispatch.Plan
