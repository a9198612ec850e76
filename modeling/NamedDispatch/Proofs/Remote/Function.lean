/-
Calls of a typed function. The number of arguments is compared first; then each argument is decoded by the
parameter at its position, up to the first that does not fit; and only when all fit does the function run, once,
and its result is encoded. So a call fails by the number of its arguments, by one of them or by the result, and
never because a function is missing.
-/
import NamedDispatch.Remote.Function

namespace NamedDispatch

variable {σ : Type} {func : String} {args : List Json} {e : DispatchFault} {ps : List Parameter} {index : Nat}

/-! ## Arguments by position -/

/-- The value for the parameter at a position. -/
def Arguments.get : {ps : List Parameter} → Arguments ps → (i : Fin ps.length) → (ps.get i).Value
  | _ :: _, (a, _), ⟨0, _⟩ => a
  | _ :: _, (_, rest), ⟨i + 1, h⟩ => get rest ⟨i, Nat.lt_of_succ_lt_succ h⟩

/-- Every value is what the parameter at its position decodes from the document there. -/
def Arguments.Decoded (docs : List Json) (a : Arguments ps) : Prop :=
  ∀ i : Fin ps.length, ∃ j, docs[i.val]? = some j ∧ (ps.get i).decode j = .ok (a.get i)

/-- The document at a position is the first that the parameter at its position does not decode. -/
structure FirstUnfit (ps : List Parameter) (docs : List Json) (i : Fin ps.length) (cause : Json.Cause) : Prop where
  unfit : ∃ j, docs[i.val]? = some j ∧ (ps.get i).decode j = .error cause
  before : ∀ k < i, ∃ j v, docs[k.val]? = some j ∧ (ps.get k).decode j = .ok v

section

variable {p : Parameter} {docs : List Json} {j : Json} {a : p.Value} {cause : Json.Cause}

theorem Arguments.Decoded.cons {rest : Arguments ps} (hd : docs.head? = some j) (ha : p.decode j = .ok a)
    (h : rest.Decoded docs.tail) : @Decoded (p :: ps) docs (a, rest) := by
  intro i
  cases i using Fin.cases with
  | zero => exact ⟨j, by rw [← hd, List.head?_eq_getElem?]; rfl, ha⟩
  | succ i =>
    obtain ⟨j, hj, hr⟩ := h i
    exact ⟨j, by rw [← hj, List.getElem?_tail]; rfl, hr⟩

theorem FirstUnfit.here (hd : docs.head? = some j) (hc : p.decode j = .error cause) :
    FirstUnfit (p :: ps) docs ⟨0, Nat.succ_pos _⟩ cause :=
  ⟨⟨j, by rw [← hd, List.head?_eq_getElem?], hc⟩, fun k hk => absurd hk (Nat.not_lt_zero k.val)⟩

theorem FirstUnfit.further {i : Fin ps.length} (hd : docs.head? = some j) (ha : p.decode j = .ok a)
    (h : FirstUnfit ps docs.tail i cause) : FirstUnfit (p :: ps) docs i.succ cause := by
  obtain ⟨j', hj, hc⟩ := h.unfit
  refine ⟨⟨j', by rw [← hj, List.getElem?_tail]; rfl, hc⟩, fun k hk => ?_⟩
  cases k using Fin.cases with
  | zero => exact ⟨j, a, by rw [← hd, List.head?_eq_getElem?]; rfl, ha⟩
  | succ k =>
    obtain ⟨j', v, hj, hv⟩ := h.before k (Fin.succ_lt_succ_iff.1 hk)
    exact ⟨j', v, by rw [← hj, List.getElem?_tail]; rfl, hv⟩

end

/-! ## No two ways to decode -/

theorem Arguments.ext : ∀ {ps : List Parameter} {a a' : Arguments ps}, (∀ i, a.get i = a'.get i) → a = a'
  | [], (), (), _ => rfl
  | _ :: _, (_, _), (_, _), h => Prod.ext (h ⟨0, Nat.succ_pos _⟩) (ext fun i => h i.succ)

theorem Arguments.Decoded.unique {docs : List Json} {a a' : Arguments ps} (h : a.Decoded docs) (h' : a'.Decoded docs) :
    a = a' := by
  refine Arguments.ext fun i => ?_
  obtain ⟨j, hj, ha⟩ := h i
  obtain ⟨j', hj', ha'⟩ := h' i
  cases hj.symm.trans hj'
  exact Except.ok.inj (ha.symm.trans ha')

namespace FirstUnfit

variable {docs : List Json} {i i' : Fin ps.length} {cause cause' : Json.Cause}

theorem not_decoded (h : FirstUnfit ps docs i cause) {a : Arguments ps} : ¬ a.Decoded docs := by
  intro ha
  obtain ⟨j, hj, hc⟩ := h.unfit
  obtain ⟨j', hj', hv⟩ := ha i
  cases hj.symm.trans hj'
  cases hc.symm.trans hv

theorem le (h : FirstUnfit ps docs i cause) (h' : FirstUnfit ps docs i' cause') : i' ≤ i := by
  refine Fin.not_lt.1 fun hlt => ?_
  obtain ⟨j, hj, hc⟩ := h.unfit
  obtain ⟨j', v, hj', hv⟩ := h'.before i hlt
  cases hj.symm.trans hj'
  cases hc.symm.trans hv

theorem unique (h : FirstUnfit ps docs i cause) (h' : FirstUnfit ps docs i' cause') : i = i' ∧ cause = cause' := by
  obtain rfl : i = i' := Fin.le_antisymm (h'.le h) (h.le h')
  obtain ⟨j, hj, hc⟩ := h.unfit
  obtain ⟨j', hj', hc'⟩ := h'.unfit
  cases hj.symm.trans hj'
  exact ⟨rfl, Except.error.inj (hc.symm.trans hc')⟩

end FirstUnfit

/-! ## Decoding from a position on -/

/-- Where there is a document, nothing is decoded in its place. -/
theorem decodeArgument_eq {α : Type} {decode : Json → Except Json.Cause α} {j : Json} (h : args[index]? = some j) :
    decodeArgument decode func args index = (decode j).mapError (.argument func index) := by
  rw [decodeArgument, h, Option.getD_some]

/-- If there is a document for each parameter, all are decoded by position, or the fault is of the first that does
not fit. -/
theorem decodeFrom_cases : ∀ {ps : List Parameter} {index : Nat}, index + ps.length ≤ args.length →
    (∃ a : Arguments ps, a.Decoded (args.drop index) ∧ decodeFrom func args index ps = .ok a) ∨
    ∃ i cause, FirstUnfit ps (args.drop index) i cause ∧
      decodeFrom func args index ps = .error (.argument func (index + i) cause)
  | [], index, _ => .inl ⟨(), nofun, rfl⟩
  | p :: ps, index, hl => by
    rw [List.length_cons] at hl
    have hi : index < args.length := by omega
    have hd : (args.drop index).head? = some args[index] := by rw [List.head?_drop, List.getElem?_eq_getElem hi]
    have ht : (args.drop index).tail = args.drop (index + 1) := List.tail_drop
    rw [decodeFrom, decodeArgument_eq (List.getElem?_eq_getElem hi)]
    cases ha : p.decode args[index] with
    | error cause => exact .inr ⟨⟨0, Nat.succ_pos _⟩, cause, .here hd ha, rfl⟩
    | ok a =>
      show _ ∨ ∃ i cause, _ ∧ (do let rest ← decodeFrom func args (index + 1) ps; return (a, rest)) = _
      have hl' : index + 1 + ps.length ≤ args.length := by omega
      rcases decodeFrom_cases hl' with ⟨rest, hr, he⟩ | ⟨i, cause, hr, he⟩
      · exact .inl ⟨(a, rest), .cons hd ha (ht ▸ hr), congrArg (fun r => do let rest ← r; return (a, rest)) he⟩
      · -- the fault tells the position among all arguments, not among those left
        refine .inr ⟨i.succ, cause, .further hd ha (ht ▸ hr), ?_⟩
        rw [he, Fin.val_succ, Nat.add_right_comm]
        rfl

/-- Documents after those for the parameters are not looked at. -/
theorem decodeFrom_append (more : List Json) : ∀ {ps : List Parameter} {index : Nat}, index + ps.length ≤ args.length →
    decodeFrom func (args ++ more) index ps = decodeFrom func args index ps
  | [], _, _ => rfl
  | p :: ps, index, hl => by
    rw [List.length_cons] at hl
    have hi : index < args.length := by omega
    rw [decodeFrom, decodeFrom, decodeArgument, decodeArgument, List.getElem?_append_left hi,
      decodeFrom_append more (by omega)]

/-! ## Calls -/

namespace RemoteFunction

variable {f : RemoteFunction σ} {s : σ}

theorem decode_misfit (h : args.length ≠ f.arity) : f.decode func args = .error (.arity func f.arity args.length) := by
  rw [decode, checkArity, if_neg h]
  rfl

theorem decode_fit (h : args.length = f.arity) : f.decode func args = decodeFrom func args 0 f.parameters := by
  rw [decode, checkArity, if_pos h]
  rfl

/-- As many arguments as parameters are all decoded by position, or the fault is of the first that does not fit. -/
theorem decode_cases (func : String) (h : args.length = f.arity) :
    (∃ a : Arguments f.parameters, a.Decoded args ∧ f.decode func args = .ok a) ∨
    ∃ i cause, FirstUnfit f.parameters args i cause ∧ f.decode func args = .error (.argument func i cause) := by
  have hl : 0 + f.parameters.length ≤ args.length := by
    rw [Nat.zero_add]
    exact Nat.le_of_eq h.symm
  have hc := @decodeFrom_cases func args f.parameters 0 hl
  simp only [Nat.zero_add, List.drop_zero] at hc
  rwa [decode_fit h]

theorem decode_of_decoded (h : args.length = f.arity) {a : Arguments f.parameters} (ha : a.Decoded args) :
    f.decode func args = .ok a := by
  rcases decode_cases func h with ⟨a', ha', he⟩ | ⟨i, cause, hu, -⟩
  · rw [he, ha.unique ha']
  · exact absurd ha hu.not_decoded

theorem decode_of_firstUnfit (h : args.length = f.arity) {i : Fin f.parameters.length} {cause : Json.Cause}
    (hu : FirstUnfit f.parameters args i cause) : f.decode func args = .error (.argument func i cause) := by
  rcases decode_cases func h with ⟨a, ha, -⟩ | ⟨i', cause', hu', he⟩
  · exact absurd ha hu.not_decoded
  · obtain ⟨rfl, rfl⟩ := hu.unique hu'
    exact he

theorem call_of_error (h : f.decode func args = .error e) (s : σ) : f.call func args s = (.error e, s) := by
  rw [call, h]

theorem call_of_ok {a : Arguments f.parameters} (h : f.decode func args = .ok a) (s : σ) :
    f.call func args s = (encodeResult f.encode func (f.run a s).1, (f.run a s).2) := by
  rw [call, h]

theorem mapError_error {α ε ε' : Type} {x : Except ε α} {f : ε → ε'} {e : ε'} (h : x.mapError f = .error e) :
    ∃ cause, e = f cause := by
  cases x with
  | ok a => cases h
  | error cause =>
    cases h
    exact ⟨cause, rfl⟩

/-- The faults of a call. -/
theorem call_error (h : (f.call func args s).1 = .error e) :
    (args.length ≠ f.arity ∧ e = .arity func f.arity args.length) ∨
    args.length = f.arity ∧ ((∃ i cause, e = .argument func i cause) ∨ ∃ cause, e = .result func cause) := by
  by_cases hl : args.length = f.arity
  · refine .inr ⟨hl, ?_⟩
    rcases decode_cases func hl with ⟨a, -, hd⟩ | ⟨i, cause, -, hd⟩
    · rw [call_of_ok hd] at h
      exact .inr (mapError_error h)
    · rw [call_of_error hd] at h
      cases h
      exact .inl ⟨i, cause, rfl⟩
  · rw [call_of_error (decode_misfit hl)] at h
    cases h
    exact .inl ⟨hl, rfl⟩

theorem call_kind (h : (f.call func args s).1 = .error e) : e.kind ≠ .functionMissing := by
  rcases call_error h with ⟨-, rfl⟩ | ⟨-, ⟨i, cause, rfl⟩ | ⟨cause, rfl⟩⟩ <;> nofun

/-! ## Every call -/

/-- The function, noting the arguments of each of its runs. -/
def noting (f : RemoteFunction σ) : RemoteFunction (σ × List (Arguments f.parameters)) :=
  ⟨f.parameters, f.Result, fun a s => ((f.run a s.1).1, (f.run a s.1).2, s.2 ++ [a]), f.encode, f.few⟩

/-- A function that notes its runs does otherwise what it did before. -/
theorem call_noting (f : RemoteFunction σ) (func : String) (args : List Json) (s : σ)
    (runs : List (Arguments f.parameters)) :
    (f.noting.call func args (s, runs)).1 = (f.call func args s).1 ∧
      (f.noting.call func args (s, runs)).2.1 = (f.call func args s).2 := by
  have hn : f.noting.decode func args = f.decode func args := rfl
  cases h : f.decode func args with
  | error e =>
    rw [call_of_error h, call_of_error (hn.trans h)]
    exact ⟨rfl, rfl⟩
  | ok a =>
    rw [call_of_ok h, call_of_ok (hn.trans h)]
    exact ⟨rfl, rfl⟩

/-- A call is refused with `signatureMismatch` if and only if the number of its arguments is not that of the
parameters. Else, if a document does not fit the parameter at its position, the fault `argument` tells the first
such position, and the function does not run. Otherwise it runs once, on the values decoded by position, and the
call comes to its result, encoded, or to the fault `result` if this cannot be encoded. No document is decoded
but those given. -/
theorem call_by_position (f : RemoteFunction σ) (func : String) (args : List Json) (s : σ)
    (runs : List (Arguments f.parameters)) :
    let call := f.noting.call func args (s, runs)
    (call.1 = (f.call func args s).1 ∧ call.2.1 = (f.call func args s).2) ∧
    ((∃ e, call.1 = .error e ∧ e.kind = .signatureMismatch) ↔ args.length ≠ f.arity) ∧
    (args.length ≠ f.arity → call = (.error (.arity func f.arity args.length), s, runs)) ∧
    (args.length = f.arity →
      ((∃ a : Arguments f.parameters, a.Decoded args) ∨ ∃ i cause, FirstUnfit f.parameters args i cause) ∧
      (∀ i cause, FirstUnfit f.parameters args i cause → call = (.error (.argument func i cause), s, runs)) ∧
      (∀ a : Arguments f.parameters, a.Decoded args →
        call.2 = ((f.run a s).2, runs ++ [a]) ∧
        (∀ j, f.encode (f.run a s).1 = .ok j → call.1 = .ok j) ∧
        ∀ cause, f.encode (f.run a s).1 = .error cause → call.1 = .error (.result func cause)) ∧
      ∀ more, decodeFrom func (args ++ more) 0 f.parameters = decodeFrom func args 0 f.parameters) := by
  intro call
  have hn : f.noting.decode func args = f.decode func args := rfl
  have misfit (h : args.length ≠ f.arity) : call = (.error (.arity func f.arity args.length), s, runs) :=
    call_of_error (hn.trans (decode_misfit h)) (s, runs)
  refine ⟨f.call_noting func args s runs, ⟨?_, fun h => ⟨_, congrArg Prod.fst (misfit h), rfl⟩⟩, misfit,
    fun h => ⟨?_, fun i cause hu => ?_, fun a ha => ?_, fun more => decodeFrom_append more ?_⟩⟩
  · rintro ⟨e, he, hk⟩
    rcases call_error he with ⟨hl, -⟩ | ⟨-, ⟨i, cause, rfl⟩ | ⟨cause, rfl⟩⟩
    · exact hl
    · cases hk
    · cases hk
  · exact (decode_cases func h).imp (fun ⟨a, ha, _⟩ => ⟨a, ha⟩) fun ⟨i, cause, hu, _⟩ => ⟨i, cause, hu⟩
  · exact call_of_error (hn.trans (decode_of_firstUnfit h hu)) (s, runs)
  · have hc : call = (encodeResult f.encode func (f.run a s).1, (f.run a s).2, runs ++ [a]) :=
      call_of_ok (hn.trans (decode_of_decoded h ha)) (s, runs)
    refine ⟨congrArg Prod.snd hc, fun j hj => ?_, fun cause hj => ?_⟩ <;> rw [hc, encodeResult, hj] <;> rfl
  · rw [Nat.zero_add]
    exact Nat.le_of_eq h.symm

end RemoteFunction

end NamedDispatch
