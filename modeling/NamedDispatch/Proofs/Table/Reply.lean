/-
What a client reads in the reply to the bytes of a request is what the table answers to a call. Bytes that
are no request are answered with a fault and change nothing. A reply can be read back because what travels
in it is a value, which holds of all that handlers return and so of all that is kept.
-/
import NamedDispatch.Proofs.Remote.Message
import NamedDispatch.Proofs.Table.Run

namespace NamedDispatch

variable {σ : Type}

/-- What the handler returns is a value: in every object the members are sorted, each name
once, as they are in a map. -/
def Handler.ReturnsValues (h : Handler σ) : Prop := ∀ args s r, (h args s).1 = .ok r → r.value = r

/-! ## Values only -/

/-- Nothing but values comes from a binding, be it from the handler or from what is kept. -/
structure Binding.Valued (b : Binding σ) : Prop where
  returned : b.handler.ReturnsValues
  kept : ∀ kept ∈ b.cache, ∀ p ∈ kept, p.2.value = p.2

namespace Binding.Valued

variable {b : Binding σ}

theorem clear (h : b.Valued) : b.clear.Valued := by
  refine ⟨h.returned, fun kept hk => ?_⟩
  obtain ⟨_, _, rfl⟩ := Option.map_eq_some_iff.1 hk
  nofun

theorem keep (h : b.Valued) (args : List Json) {r : Json} (hr : r.value = r) : (b.keep args r).Valued := by
  refine ⟨h.returned, fun kept hk => ?_⟩
  obtain ⟨before, hb, rfl⟩ := Option.map_eq_some_iff.1 hk
  exact List.forall_mem_cons.2 ⟨hr, h.kept before hb⟩

theorem invoke (h : b.Valued) (args : List Json) (s : σ) :
    (b.invoke args s).2.1.Valued ∧ ∀ r, (b.invoke args s).1 = .ok r → r.value = r := by
  rcases b.invoke_cases args s with ⟨r, hr, he⟩ | ⟨_, ⟨r, hr, he⟩ | ⟨e, hr, he⟩⟩ <;> rw [he]
  · refine ⟨h, fun r' hr' => ?_⟩
    obtain ⟨kept, hc, hl⟩ := Option.bind_eq_some_iff.1 hr
    obtain ⟨before, after, rfl, _⟩ := List.lookup_eq_some_iff.1 hl
    cases hr'
    exact h.kept _ hc (key args, r) (List.mem_append_right _ (List.mem_cons_self ..))
  · have hv := h.returned args s r hr
    refine ⟨h.keep args hv, fun r' hr' => ?_⟩
    cases hr'
    exact hv
  · exact ⟨h, nofun⟩

end Binding.Valued

theorem Operation.valued_binding {op : Operation σ} {b : Binding σ} (hb : op.binding? = some b)
    (h : b.handler.ReturnsValues) : b.Valued := by
  refine ⟨h, fun kept hk => ?_⟩
  rw [fresh_binding hb kept hk]
  nofun

namespace Table

variable {t : Table σ}

/-- Where handlers return values, every binding of a reachable table has values only. -/
theorem valued_run {ops : List (Operation σ)} (h : ∀ op ∈ ops, ∀ b ∈ op.binding?, b.handler.ReturnsValues) (s : σ) :
    ∀ b ∈ ((empty : Table σ).run s ops).2.1.bindings, b.Valued :=
  run_bindings (fun _ args s hb => (hb.invoke args s).1) (fun _ hb => hb.clear)
    (fun op ho b hb => Operation.valued_binding hb (h op ho b hb)) s

theorem value_of_dispatch (h : ∀ b ∈ t.bindings, b.Valued) {name : String} {args : List Json} {s : σ} {r : Json}
    (hr : (t.dispatch name args s).1 = .ok r) : r.value = r := by
  rcases t.find?_cases name with hn | ⟨i, b, hn, hb⟩
  · rw [dispatch_unbound hn] at hr
    cases hr
  · rw [dispatch_bound hn hb] at hr
    exact ((h b (List.mem_of_getElem? hb)).invoke args s).2 r hr

/-! ## Replies -/

theorem perform_handleBytes_error {bytes : List UInt8} {cause : Json.Fault} (h : Request.ofBytes bytes = .error cause)
    (t : Table σ) (s : σ) :
    t.perform s (.handleBytes bytes) = (.reply (Response.fault "" (.request cause)).toText, t, s) := by
  rw [perform, handleBytes, h]

theorem perform_handleBytes_ok {bytes : List UInt8} {r : Request} (h : Request.ofBytes bytes = .ok r)
    (t : Table σ) (s : σ) :
    t.perform s (.handleBytes bytes) = (.reply (t.handle r s).1.toText, (t.dispatch r.func r.args s).2) := by
  rw [perform, handleBytes, h]
  rfl

/-- Over a reachable table, `handleBytes` answers bytes that are no request with a `serverReceive` fault and
changes nothing. The reply to the bytes of a request is read back as what `dispatch` answers, under the name
called and with the outcome of the call, and leaves what the call leaves. -/
theorem handleBytes_agrees {ops : List (Operation σ)}
    (hv : ∀ op ∈ ops, ∀ b ∈ op.binding?, b.handler.ReturnsValues) (s₀ s : σ) (bytes : List UInt8) :
    let t := ((empty : Table σ).run s₀ ops).2.1
    (∀ cause, Request.ofBytes bytes = .error cause → (DispatchFault.request cause).kind = .serverReceive ∧
      t.perform s (.handleBytes bytes) = (.reply (Response.fault "" (.request cause)).toText, t, s)) ∧
    ∀ r, Request.ofBytes bytes = .ok r → ∃ reply,
      t.perform s (.handleBytes bytes) = (.reply reply, (t.dispatch r.func r.args s).2) ∧
      ((∀ v, (t.dispatch r.func r.args s).1 = .ok v → v.isFloatFree = true) →
        (t.handle r s).1.toJson.depth ≤ Json.Reader.nestingLimit →
          Response.ofBytes reply.toUTF8.data.toList = .ok (t.handle r s).1) ∧
      (t.handle r s).1.func = r.func ∧ (t.handle r s).1.outcome = (t.dispatch r.func r.args s).1 := by
  intro t
  refine ⟨fun cause h => ⟨rfl, perform_handleBytes_error h t s⟩, fun r hr => ?_⟩
  have hh : (t.handle r s).1 = .ofOutcome r.func (t.dispatch r.func r.args s).1 := rfl
  refine ⟨(t.handle r s).1.toText, perform_handleBytes_ok hr t s, fun hf hd => ?_, ?_, ?_⟩
  · have hvalue : (t.handle r s).1.value = (t.handle r s).1 :=
      Response.value_ofOutcome fun v => value_of_dispatch (valued_run hv s₀)
    exact (Response.ofBytes_toText (Response.isFloatFree_ofOutcome hf) hd).trans (congrArg Except.ok hvalue)
  · rw [hh, Response.func_ofOutcome]
  · rw [hh, Response.outcome_ofOutcome]

/-- What is answered with a quote, a line break and a list in it. -/
def greeting : Json := .obj [("en", .str "\"hi\"\n"), ("fr", .arr [.str "salut", .null])]

/-- A handler whose results are kept, under two names. -/
def greeter : List (Operation Unit) :=
  [.attachRaw "greet" 0 true fun _ s => (.ok greeting, s), .addAlias "Greet" "greet"]

theorem handleBytes_agrees_greeter : (∀ op ∈ greeter, ∀ b ∈ op.binding?, b.handler.ReturnsValues) ∧
    let t := ((empty : Table Unit).run () greeter).2.1
    ∃ reply, (t.perform () (.handleBytes (Request.mk "Greet" []).toText.toUTF8.data.toList)).1 = .reply reply ∧
      Response.ofBytes reply.toUTF8.data.toList = .ok (.result "Greet" greeting) := by
  have hv : ∀ op ∈ greeter, ∀ b ∈ op.binding?, b.handler.ReturnsValues := by
    have hg : Handler.ReturnsValues fun (_ : List Json) (s : Unit) => (.ok greeting, s) := by
      intro _ _ r hr
      cases hr
      rfl
    simpa [greeter, Operation.binding?, Binding.ofHandler] using hg
  have hd : (((empty : Table Unit).run () greeter).2.1.dispatch "Greet" [] ()).1 = .ok greeting := rfl
  have hread := Request.ofBytes_toText (r := ⟨"Greet", []⟩) rfl (by decide)
  obtain ⟨reply, hp, hr, _⟩ := (handleBytes_agrees hv () () _).2 _ hread
  have hh : (((empty : Table Unit).run () greeter).2.1.handle ⟨"Greet", []⟩ ()).1 = .result "Greet" greeting :=
    congrArg (Response.ofOutcome "Greet") hd
  refine ⟨hv, reply, congrArg Prod.fst hp, (hr (fun v h => ?_) ?_).trans (congrArg Except.ok hh)⟩
  · cases hd.symm.trans h
    rfl
  · exact hh ▸ (by decide : (Response.result "Greet" greeting).toJson.depth ≤ Json.Reader.nestingLimit)

end Table

end NamedDispatch
