/-
What is seen of a table in use: the calls, what each is answered and which handlers ran for it, and where
kept results are dropped. The runs are noted by the handlers themselves: they get a list to write them to,
and a table of such handlers does otherwise what it did before.
-/
import NamedDispatch.Proofs.Table.Run

namespace NamedDispatch

variable {σ : Type}

/-! ## Handlers that note their runs -/

/-- A run of a handler: the position of its binding, the arguments, and what came of it. -/
structure HandlerRun where
  position : Nat
  args : List Json
  outcome : Except DispatchFault Json

namespace Binding

/-- The binding with a handler that notes each of its runs. -/
def noting (i : Nat) (b : Binding σ) : Binding (σ × List HandlerRun) where
  target := b.target
  arity := b.arity
  handler args s := ((b.handler args s.1).1, (b.handler args s.1).2, s.2 ++ [⟨i, args, (b.handler args s.1).1⟩])
  cache := b.cache

variable {b : Binding σ} {args : List Json}

/-- Where a result is kept, no handler runs. -/
theorem invoke_noting_kept {r : Json} (h : b.kept? args = some r) (i : Nat) (s : σ) (runs : List HandlerRun) :
    (b.noting i).invoke args (s, runs) =
      ((b.invoke args s).1, (b.invoke args s).2.1.noting i, (b.invoke args s).2.2, runs) := by
  have h' : (b.noting i).kept? args = some r := h
  rw [invoke, invoke, h, h']

/-- Where no result is kept, the handler runs once, and the call comes to what the run does. -/
theorem invoke_noting_missing (h : b.kept? args = none) (i : Nat) (s : σ) (runs : List HandlerRun) :
    (b.noting i).invoke args (s, runs) = ((b.invoke args s).1, (b.invoke args s).2.1.noting i,
      (b.invoke args s).2.2, runs ++ [⟨i, args, (b.invoke args s).1⟩]) := by
  have h' : (b.noting i).kept? args = none := h
  have hr : (b.noting i).handler args (s, runs) =
    ((b.handler args s).1, (b.handler args s).2, runs ++ [⟨i, args, (b.handler args s).1⟩]) := rfl
  rw [invoke, invoke, h, h', hr]
  obtain ⟨outcome, s'⟩ := b.handler args s
  cases outcome <;> rfl

end Binding

/-- The answer says what a call of a name comes to: by itself, or in a response, or in the text of one. -/
def Answer.Tells (name : String) (outcome : Except DispatchFault Json) (a : Answer) : Prop :=
  a = .outcome outcome ∨ a = .response (.ofOutcome name outcome) ∨
    a = .reply (Response.ofOutcome name outcome).toText

namespace Table

/-- The table with handlers that note each of their runs, with the positions of their bindings. -/
def noting (t : Table σ) : Table (σ × List HandlerRun) := ⟨t.names, t.bindings.mapIdx Binding.noting⟩

variable {t : Table σ} {name : String} {i : Nat} {b : Binding σ}

theorem find?_noting_eq_none (h : t.find? name = none) : t.noting.find? name = none := by
  rw [find?, Option.bind_eq_none_iff] at h ⊢
  intro i hi
  rw [noting, List.getElem?_mapIdx, h i hi, Option.map_none]

theorem getElem?_noting (hb : t.bindings[i]? = some b) : t.noting.bindings[i]? = some (b.noting i) := by
  rw [noting, List.getElem?_mapIdx, hb, Option.map_some]

theorem noting_set (t : Table σ) (i : Nat) (b : Binding σ) :
    noting { t with bindings := t.bindings.set i b } =
      { t.noting with bindings := t.noting.bindings.set i (b.noting i) } := by
  rw [noting, noting, List.mapIdx_set]

/-- Handlers that note their runs answer a call as before and leave the same; what is noted is nothing, or
one run for the call. -/
theorem dispatch_noting (t : Table σ) (name : String) (args : List Json) (s : σ) (runs : List HandlerRun) :
    ∃ more, t.noting.dispatch name args (s, runs) = ((t.dispatch name args s).1,
        (t.dispatch name args s).2.1.noting, (t.dispatch name args s).2.2, runs ++ more) ∧
      (more = [] ∨ ∃ i, t.names.lookup name = some i ∧ more = [⟨i, args, (t.dispatch name args s).1⟩]) := by
  rcases t.find?_cases name with h | ⟨i, b, hn, hb⟩
  · refine ⟨[], ?_, .inl rfl⟩
    rw [dispatch_unbound h, dispatch_unbound (find?_noting_eq_none h), List.append_nil]
  · rw [dispatch_bound hn hb, dispatch_bound (t := t.noting) hn (getElem?_noting hb), noting_set]
    cases hk : b.kept? args with
    | some r => exact ⟨[], by rw [Binding.invoke_noting_kept hk, List.append_nil], .inl rfl⟩
    | none => exact ⟨_, by rw [Binding.invoke_noting_missing hk], .inr ⟨i, hn, rfl⟩⟩

/-! ## Calls -/

/-- A call: the name called and the position of its binding, if it has one, the arguments, what the call
comes to, the runs of handlers it led to, and the answer given. -/
structure Call where
  name : String
  position : Option Nat
  args : List Json
  outcome : Except DispatchFault Json
  runs : List HandlerRun
  answer : Answer
  own : runs = [] ∨ ∃ i, position = some i ∧ runs = [⟨i, args, outcome⟩]
  told : answer.Tells name outcome

/-- What happens to kept results: a call, that they are dropped, or neither. -/
inductive Event where
  | called (c : Call)
  | cleared
  | other

variable {op : Operation σ} {args : List Json}

theorem perform_tells (h : op.call? = some (name, args)) (t : Table σ) (s : σ) :
    (t.perform s op).1.Tells name (t.dispatch name args s).1 := by
  cases op with
  | dispatch name' args' =>
    cases h
    exact .inl rfl
  | handle r =>
    cases h
    exact .inr (.inl rfl)
  | handleBytes bytes =>
    rw [Operation.call?] at h
    split at h
    · rename_i r hr
      cases h
      refine .inr (.inr ?_)
      rw [perform, handleBytes, hr]
      rfl
    · cases h
  | _ => cases h

/-- The call that an operation is, seen on the table whose handlers note their runs. -/
def call (t : Table σ) (s : σ) (op : Operation σ) (h : op.call? = some (name, args)) : Call where
  name := name
  position := t.names.lookup name
  args := args
  outcome := (t.dispatch name args s).1
  runs := (t.noting.dispatch name args (s, [])).2.2.2
  answer := (t.perform s op).1
  own := by
    obtain ⟨more, he, hm⟩ := t.dispatch_noting name args s []
    rw [he]
    exact hm
  told := perform_tells h t s

/-- A call of a bound name comes to what its binding answers. -/
theorem call_outcome (h : op.call? = some (name, args)) (hn : t.names.lookup name = some i)
    (hb : t.bindings[i]? = some b) (s : σ) : (t.call s op h).outcome = (b.invoke args s).1 :=
  congrArg Prod.fst (dispatch_bound hn hb args s)

theorem call_runs (h : op.call? = some (name, args)) (hn : t.names.lookup name = some i)
    (hb : t.bindings[i]? = some b) (s : σ) :
    (t.call s op h).runs = ((b.noting i).invoke args (s, [])).2.2.2 :=
  congrArg (fun o => o.2.2.2) (dispatch_bound (t := t.noting) hn (getElem?_noting hb) args (s, []))

/-- What an operation does to kept results, seen on the table whose handlers note their runs. -/
def event (t : Table σ) (s : σ) (op : Operation σ) : Event :=
  match h : op.call? with
  | some (_, _) => .called (t.call s op h)
  | none => if op.clears then .cleared else .other

/-- The events of a run. -/
def trace (t : Table σ) (s : σ) : List (Operation σ) → List Event
  | [] => []
  | op :: ops => t.event s op :: trace (t.perform s op).2.1 (t.perform s op).2.2 ops

theorem event_called (h : op.call? = some (name, args)) (t : Table σ) (s : σ) :
    t.event s op = .called (t.call s op h) := by
  rw [event]
  split
  · rename_i h'
    cases h.symm.trans h'
    rfl
  · rename_i h'
    cases h.symm.trans h'

theorem event_other (h : op.call? = none) (t : Table σ) (s : σ) :
    t.event s op = if op.clears then .cleared else .other := by
  rw [event]
  split
  · rename_i h'
    cases h.symm.trans h'
  · rfl

theorem trace_concat (t : Table σ) (s : σ) (ops : List (Operation σ)) (op : Operation σ) :
    t.trace s (ops ++ [op]) = t.trace s ops ++ [(t.run s ops).2.1.event (t.run s ops).2.2 op] := by
  induction ops generalizing t s with
  | nil => rfl
  | cons first ops ih => exact congrArg (List.cons _) (ih (t.perform s first).2.1 (t.perform s first).2.2)

/-! ## Periods -/

/-- The calls since results were last dropped, when there is one more event. -/
def Event.extend (calls : List Call) : Event → List Call
  | called c => calls ++ [c]
  | cleared => []
  | other => calls

/-- The calls since results were last dropped. -/
def sinceCleared (events : List Event) : List Call := events.foldl Event.extend []

theorem sinceCleared_concat (events : List Event) (e : Event) :
    sinceCleared (events ++ [e]) = e.extend (sinceCleared events) := by
  rw [sinceCleared, List.foldl_append]
  rfl

/-- The calls of the binding at a position. A position is of one binding only, from when that is made. -/
def callsOf (i : Nat) (calls : List Call) : List Call := calls.filter fun c => c.position == some i

theorem callsOf_concat (i : Nat) (calls : List Call) (c : Call) :
    callsOf i (calls ++ [c]) = if c.position = some i then callsOf i calls ++ [c] else callsOf i calls := by
  rw [callsOf, callsOf, List.filter_append]
  split
  · next h => rw [List.filter_cons_of_pos (by simp [h]), List.filter_nil]
  · next h => rw [List.filter_cons_of_neg (by simpa using h), List.filter_nil, List.append_nil]

end Table

end NamedDispatch
