/-
The lines of a text. Lines that are written one after the other, each with its end, are read back, and line
ends that are added at the end of a text add empty lines only.
-/

namespace NamedDispatch.Text

/-- The lines of a text: the pieces between its line ends. -/
def lines (s : String) : List String := (s.toList.splitOn '\n').map String.ofList

/-- After the end of the last line there is nothing left. -/
theorem splitOn_lines {ls : List String} (h : ∀ l ∈ ls, '\n' ∉ l.toList) :
    (ls.flatMap fun l => l.toList ++ ['\n']).splitOn '\n' = ls.map String.toList ++ [[]] := by
  induction ls with
  | nil => rfl
  | cons l ls ih =>
    rw [List.flatMap_cons, List.append_assoc, List.singleton_append,
      List.splitOn_append_cons_self_of_not_mem (h l (List.mem_cons_self ..)),
      ih fun l' hl' => h l' (List.mem_cons_of_mem _ hl')]
    rfl

theorem splitOn_append_ends (cs : List Char) (k : Nat) :
    (cs ++ List.replicate k '\n').splitOn '\n' = cs.splitOn '\n' ++ List.replicate k [] := by
  induction k with
  | zero => rw [List.replicate_zero, List.append_nil, List.replicate_zero, List.append_nil]
  | succ k ih =>
    rw [List.replicate_succ', ← List.append_assoc, List.splitOn_append_cons_self, ih, List.append_assoc,
      List.splitOn_nil, ← List.replicate_succ']

/-- Only empty lines come with more line ends. -/
theorem filter_splitOn_ends {p : List Char → Bool} (hp : p [] = false) (cs : List Char) (k : Nat) :
    ((cs ++ List.replicate k '\n').splitOn '\n').filter p = (cs.splitOn '\n').filter p := by
  rw [splitOn_append_ends, List.filter_append, List.filter_replicate_of_neg (by rw [hp]; decide), List.append_nil]

/-- The lines before one that is kept, and the place of that one among those kept. -/
theorem take_filter {α : Type} {p : α → Bool} {l : List α} {i : Nat} {a : α} (h : l[i]? = some a) (hp : p a = true) :
    ∃ j, (l.filter p)[j]? = some a ∧ (l.take i).filter p = (l.filter p).take j := by
  obtain ⟨hi, rfl⟩ := List.getElem?_eq_some_iff.1 h
  have split : l.filter p = (l.take i).filter p ++ l[i] :: (l.drop (i + 1)).filter p := by
    rw [← List.filter_cons_of_pos (p := p) hp, ← List.filter_append, ← List.drop_eq_getElem_cons hi,
      List.take_append_drop]
  exact ⟨((l.take i).filter p).length, by rw [split, List.getElem?_append_right (Nat.le_refl _), Nat.sub_self]; rfl,
    by rw [split, List.take_left]⟩

end NamedDispatch.Text
