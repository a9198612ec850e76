/-
What `ATTACH_FUNC` and `ALIAS_FUNC` expand to: the branch that a plan writes for the function. A branch is read
as fixed tokens around what it matches and the function it runs.
-/
import NamedDispatch.Plan.Basic
import NamedDispatch.Proofs.Expansion.Ladder
import NamedDispatch.Proofs.Header.Wording

namespace NamedDispatch

open Token (word literal sign given joined enclosed call Intact)

/-! ## Names between quotes -/

namespace Token

theorem read_quoted {w : List Char} (hw : ∀ c ∈ w, Text.isWordChar c = true) (ds : List Char) :
    ∀ run, read (.quoted run) (w ++ '"' :: ds) = literal (String.ofList (run.reverse ++ w)) :: read .idle ds ∧
      (Mode.quoted run).after (w ++ '"' :: ds) = Mode.idle.after ds := by
  induction w with
  | nil =>
    intro run
    rw [List.append_nil]
    exact ⟨rfl, rfl⟩
  | cons c w ih =>
    intro run
    have hc := hw c (List.mem_cons_self ..)
    -- no character of a word ends the literal or escapes the next one
    have hq : (c == '"') = false := by
      rw [beq_eq_false_iff_ne]
      rintro rfl
      cases hc
    have hb : (c == '\\') = false := by
      rw [beq_eq_false_iff_ne]
      rintro rfl
      cases hc
    obtain ⟨ih1, ih2⟩ := ih (fun d hd => hw d (List.mem_cons_of_mem _ hd)) (c :: run)
    have hnext : (Mode.quoted run).next c = ([], .quoted (c :: run)) := by simp [Mode.next, hq, hb]
    rw [List.cons_append, read, Mode.after, hnext]
    refine ⟨?_, ih2⟩
    rw [List.nil_append, ih1, List.reverse_cons, List.append_assoc]
    rfl

/-- A name between quotes is one literal. -/
theorem reads_quoted {name : String} (hn : ∀ c ∈ name.toList, Text.isWordChar c = true) :
    Reads ("\"" ++ name ++ "\"") [literal name] := by
  have ht : ("\"" ++ name ++ "\"").toList = '"' :: (name.toList ++ ['"']) := by
    rw [String.toList_append, String.toList_append]
    rfl
  obtain ⟨h1, h2⟩ := read_quoted hn [] []
  constructor
  · rw [settles, ht]
    exact beq_iff_eq.2 h2
  · rw [ofText, ht]
    refine Eq.trans h1 ?_
    rw [List.reverse_nil, List.nil_append, String.ofList_toList]
    rfl

/-! ## Tokens without parameters -/

/-- No token is a parameter or a `#`. -/
def Still (value : String → Option (List Token)) (ts : List Token) : Prop :=
  ∀ t ∈ ts, t ≠ sign '#' ∧ ∀ w, t = word w → value w = none

theorem fill_still {value : String → Option (List Token)} {ts : List Token} (h : Still value ts)
    (us : List Token) : fill value (ts ++ us) = ts ++ fill value us := by
  induction ts with
  | nil => rfl
  | cons t ts ih =>
    obtain ⟨hash, hw⟩ := h t (List.mem_cons_self ..)
    have hr := ih fun u hu => h u (List.mem_cons_of_mem _ hu)
    rw [List.cons_append, List.cons_append, ← hr]
    cases t with
    | word w => exact fill_word (hw w rfl) _
    | sign c => exact fill_sign (fun e => hash (congrArg sign e)) _
    | literal s => rfl
    | given s => rfl

end Token

/-! ## Branches as tokens -/

namespace Wording

/-- The tokens of a call before its function and after it. -/
def callTokens : Variant → Bool → List Token × List Token
  | .legacy, false | .classic, false =>
    ([word "this", sign '-', sign '>', word "dispatch_func", sign '('], [sign ',', word "serial_obj", sign ')'])
  | .legacy, true | .classic, true =>
    ([word "this", sign '-', sign '>', word "dispatch_cached_func", sign '('],
      [sign ',', word "serial_obj", sign ')'])
  | .templated, false =>
    ([word "dispatch_func", sign '<', word "Serial", sign '>', sign '('], [sign ',', word "serial_obj", sign ')'])
  | .templated, true =>
    ([word "dispatch_func", sign '<', word "Serial", sign '>', sign '('],
      [sign ',', word "serial_obj", sign ',', word "true", sign ')'])
  | .callback, false =>
    ([word "this", sign '-', sign '>', word "dispatch_callback", sign '('], [sign ',', word "rpc_obj", sign ')'])
  | .callback, true =>
    ([word "this", sign '-', sign '>', word "dispatch_callback", sign '('],
      [sign ',', word "rpc_obj", sign ',', word "true", sign ')'])

theorem reads_callOf (v : Variant) (cached : Bool) :
    Token.Reads ((of v).callOf cached).before (callTokens v cached).1 ∧
      Token.Reads ((of v).callOf cached).after (callTokens v cached).2 := by
  cases v <;> cases cached <;>
    exact ⟨Token.reads_ofList (by decide) (by decide), Token.reads_ofList (by decide) (by decide)⟩

theorem reads_middle (v : Variant) (cached : Bool) : Token.Reads ((of v).middle cached)
    ([sign ')', sign '\x7b', word "return"] ++ (callTokens v cached).1) :=
  .append (Token.reads_ofList (by decide) (by decide)) (reads_callOf v cached).1

theorem reads_finish (v : Variant) (cached : Bool) : Token.Reads ((of v).finish cached)
    ((callTokens v cached).2 ++ [sign ';', sign '\x7d']) :=
  .append (reads_callOf v cached).2 (Token.reads_ofList (by decide) (by decide))

theorem startsApart_finish (v : Variant) (cached : Bool) : Text.startsApart ((of v).finish cached) = true :=
  Text.startsApart_append (callOf_apart v cached).2 _

/-- The tokens of a branch around what it matches and the function it runs. -/
def branchTokens (w : Wording) (cached : Bool) (matched func : List Token) : List Token :=
  Token.ofText "if (func_name == " ++ (matched ++ (Token.ofText (w.middle cached) ++
    (func ++ Token.ofText (w.finish cached))))

theorem branchTokens_eq (v : Variant) (cached : Bool) (matched func : List Token) :
    (of v).branchTokens cached matched func = [word "if", sign '(', word "func_name", sign '=', sign '='] ++
      (matched ++ ([sign ')', sign '\x7b', word "return"] ++ (callTokens v cached).1 ++
        (func ++ ((callTokens v cached).2 ++ [sign ';', sign '\x7d'])))) := by
  have opening : Token.Reads "if (func_name == " [word "if", sign '(', word "func_name", sign '=', sign '='] :=
    Token.reads_ofList (by decide) (by decide)
  rw [branchTokens, opening.tokens, (reads_middle v cached).tokens, (reads_finish v cached).tokens]

theorem reads_branch (v : Variant) (cached : Bool) {matched func : String} (hm : Token.inCode matched = true)
    (hf : Token.inCode func = true) : Token.Reads ((of v).branch matched func cached)
      ((of v).branchTokens cached (Token.ofText matched) (Token.ofText func)) := by
  have middle := reads_middle v cached
  have finish := reads_finish v cached
  have apart : Text.startsApart ((of v).middle cached ++ (func ++ (of v).finish cached)) = true :=
    Text.startsApart_append (Text.startsApart_append (by decide) _) _
  have called := Token.Reads.apart_append hf (startsApart_finish v cached) finish
  rw [branch_eq, branchTokens, middle.tokens, finish.tokens]
  exact .append ⟨by decide, rfl⟩ (.apart_append hm apart (.append middle called))

/-- The words of parameters that stand in a branch: `FUNCNAME`, `FUNC_ALIAS` and `__VA_ARGS__`. -/
def branchParams : List String := ["FUNCNAME", "FUNC_ALIAS", Macro.furtherName]

/-- The token is no parameter, no `#` and no name. -/
def isFixed : Token → Bool
  | .word w => !branchParams.contains w && !Naming.isName w
  | t => t != sign '#'

end Wording

namespace Header

variable {c : Config}

theorem wording_fixed (cached : Bool) :
    ∀ t ∈ Token.ofText "if (func_name == " ++ (Token.ofText (c.wording.middle cached) ++
      Token.ofText (c.wording.finish cached)), Wording.isFixed t = true := by
  rw [← List.all_eq_true, Config.wording, (Wording.reads_middle c.variant cached).tokens,
    (Wording.reads_finish c.variant cached).tokens]
  cases c.variant <;> cases cached <;> decide +kernel

theorem fill_branchTokens {value : String → Option (List Token)} {cached : Bool} {p : String}
    {v u : List Token} (hnone : ∀ w, w ∉ Wording.branchParams → value w = none) (hp : value p = some v)
    (hu : value "FUNCNAME" = some u) :
    Token.fill value (c.wording.branchTokens cached [sign '#', word p] [word "FUNCNAME"]) =
      c.wording.branchTokens cached [Token.quoted v] u := by
  have still {ts : List Token} (h : ∀ t ∈ ts, Wording.isFixed t = true) : Token.Still value ts := by
    intro t ht
    have ht := h t ht
    constructor
    · rintro rfl
      cases ht
    · rintro w rfl
      apply hnone
      intro hm
      simp [Wording.isFixed, hm] at ht
  have hfix := wording_fixed (c := c) cached
  simp only [List.forall_mem_append] at hfix
  obtain ⟨h1, h2, h3⟩ := hfix
  have last : Token.fill value (Token.ofText (c.wording.finish cached)) = Token.ofText (c.wording.finish cached) := by
    have := Token.fill_still (still h3) []
    rwa [List.append_nil, Token.fill_nil, List.append_nil] at this
  rw [Wording.branchTokens, Token.fill_still (still h1), List.cons_append, List.singleton_append,
    Token.fill_quoted hp, Token.fill_still (still h2), List.singleton_append, Token.fill_param hu, last]
  rfl

/-- A branch is nothing more to expand. -/
theorem yields_branchTokens (cached : Bool) (s : String) {func : List Token}
    (hf : ∀ t ∈ func, (build c).sheet.Plain t) :
    (build c).sheet.Yields (c.wording.branchTokens cached [literal s] func)
      (c.wording.branchTokens cached [literal s] func) := by
  have plain {ts : List Token} (h : ∀ t ∈ ts, Wording.isFixed t = true) : ∀ t ∈ ts, (build c).sheet.Plain t := by
    intro t ht
    have ht := h t ht
    cases t with
    | word w =>
      rw [Wording.isFixed, Bool.and_eq_true, Bool.not_eq_true', Bool.not_eq_true'] at ht
      exact macro?_eq_none ht.2
    | literal | sign | given => trivial
  have hfix := wording_fixed (c := c) cached
  simp only [List.forall_mem_append] at hfix
  obtain ⟨h1, h2, h3⟩ := hfix
  apply Sheet.yields_plain
  rw [Wording.branchTokens]
  simp only [List.forall_mem_append, List.forall_mem_singleton]
  exact ⟨plain h1, trivial, plain h2, hf, plain h3⟩

/-- The call of a branch has as many tokens before its function as that of any other, and an argument after. -/
theorem wording_shape (cached : Bool) :
    (Token.ofText (c.wording.middle cached)).length = (Token.ofText (c.wording.middle false)).length ∧
      (Token.ofText (c.wording.finish cached)).head? = some (sign ',') ∧
      3 ≤ (Token.ofText (c.wording.finish cached)).length := by
  rw [Config.wording, (Wording.reads_middle c.variant cached).tokens, (Wording.reads_middle c.variant false).tokens,
    (Wording.reads_finish c.variant cached).tokens]
  cases c.variant <;> cases cached <;> decide

/-- Calls that keep results are told apart by their name or by what follows their first argument. -/
theorem wording_marks {cached cached' : Bool}
    (hm : Token.ofText (c.wording.middle cached) = Token.ofText (c.wording.middle cached'))
    (hf : (Token.ofText (c.wording.finish cached)).take 3 = (Token.ofText (c.wording.finish cached')).take 3) :
    cached = cached' := by
  have apart : ¬(Token.ofText (c.wording.middle false) = Token.ofText (c.wording.middle true) ∧
      (Token.ofText (c.wording.finish false)).take 3 = (Token.ofText (c.wording.finish true)).take 3) := by
    simp only [Config.wording, (Wording.reads_middle c.variant _).tokens, (Wording.reads_finish c.variant _).tokens]
    cases c.variant <;> decide
  cases cached <;> cases cached'
  · rfl
  · exact absurd ⟨hm, hf⟩ apart
  · exact absurd ⟨hm.symm, hf.symm⟩ apart
  · rfl

/-- A branch is read back from its tokens, whatever follows them. -/
theorem branchTokens_inj {cached cached' : Bool} {a a' : String} {f f' ts ts' : List Token}
    (hf : f = [] ∨ ∃ w, f = [word w]) (hf' : f' = [] ∨ ∃ w, f' = [word w])
    (h : c.wording.branchTokens cached [literal a] f ++ ts =
      c.wording.branchTokens cached' [literal a'] f' ++ ts') :
    (cached = cached' ∧ a = a' ∧ f = f') ∧ ts = ts' := by
  obtain ⟨hlen, hhead, hthree⟩ := wording_shape (c := c) cached
  obtain ⟨hlen', hhead', hthree'⟩ := wording_shape (c := c) cached'
  simp only [Wording.branchTokens, List.append_assoc, List.cons_append, List.nil_append] at h
  obtain ⟨ha, h⟩ := List.cons.inj (List.append_cancel_left h)
  obtain ⟨hmid, h⟩ := List.append_inj h (hlen.trans hlen'.symm)
  -- a comma follows the function, so what stands before it is the function
  have same : f = f' ∧
      Token.ofText (c.wording.finish cached) ++ ts = Token.ofText (c.wording.finish cached') ++ ts' := by
    obtain ⟨us, hus⟩ := List.head?_eq_some_iff.1 hhead
    obtain ⟨us', hus'⟩ := List.head?_eq_some_iff.1 hhead'
    rw [hus, hus'] at h ⊢
    rcases hf with rfl | ⟨w, rfl⟩ <;> rcases hf' with rfl | ⟨w', rfl⟩
    · exact ⟨rfl, h⟩
    · cases (List.cons.inj h).1
    · cases (List.cons.inj h).1
    · obtain ⟨hw, h⟩ := List.cons.inj h
      exact ⟨congrArg (fun t => [t]) hw, h⟩
  obtain ⟨hff, hrest⟩ := same
  have htake := congrArg (List.take 3) hrest
  rw [List.take_append_of_le_length hthree, List.take_append_of_le_length hthree'] at htake
  obtain rfl := wording_marks hmid htake
  injection ha with ha
  exact ⟨⟨rfl, ha, hff⟩, List.append_cancel_left hrest⟩

/-! ## Macros for one function -/

theorem reads_body (matched : String) (hm : Token.inCode matched = true) (cached : Bool) :
    Token.Reads (c.wording.branch matched "FUNCNAME" cached)
      (c.wording.branchTokens cached (Token.ofText matched) [word "FUNCNAME"]) := by
  have func : Token.inCode "FUNCNAME" = true := by decide
  exact Wording.reads_branch c.variant cached hm func

theorem filled_attachOne (cached : Bool) (f : List Token) :
    (attachOne c cached).filled [f] = c.wording.branchTokens cached [Token.quoted f] f := by
  have hnone : ∀ w, w ∉ Wording.branchParams → (attachOne c cached).value [f] w = none := by
    intro w hw
    simp only [Wording.branchParams, List.mem_cons, not_or] at hw
    exact Macro.value_eq_none hw.2.2.1 (by simpa [attachOne, Registration.oneMacro] using hw.1) _
  show Token.fill _ (Token.ofText (c.wording.branch "#FUNCNAME" "FUNCNAME" cached)) = _
  rw [(reads_body _ (by decide) cached).tokens, show Token.ofText "#FUNCNAME" = [sign '#', word "FUNCNAME"] by decide]
  exact fill_branchTokens hnone rfl rfl

theorem filled_aliasOne (cached : Bool) (f a : List Token) :
    (aliasOne c cached).filled [f, a] = c.wording.branchTokens cached [Token.quoted a] f := by
  have hnone : ∀ w, w ∉ Wording.branchParams → (aliasOne c cached).value [f, a] w = none := by
    intro w hw
    simp only [Wording.branchParams, List.mem_cons, not_or] at hw
    exact Macro.value_eq_none hw.2.2.1 (by simp [aliasOne, Registration.oneMacro, hw.1, hw.2.1]) _
  show Token.fill _ (Token.ofText (c.wording.branch "#FUNC_ALIAS" "FUNCNAME" cached)) = _
  rw [(reads_body _ (by decide) cached).tokens,
    show Token.ofText "#FUNC_ALIAS" = [sign '#', word "FUNC_ALIAS"] by decide]
  exact fill_branchTokens hnone rfl rfl

theorem macro?_registration {m : Macro} (h : m ∈ registrationPart c (registrationId c)) :
    (build c).sheet.macro? m.name = some m := by
  obtain ⟨i, hi⟩ := List.getElem?_of_mem h
  exact macro?_build (layout_registration c hi) (by rw [role_registrationPart c _ m h]; decide)

theorem mem_attachPart (cached : Bool) {m : Macro}
    (h : m ∈ attachPart c cached (registrationId c + if cached then 2 else 0)) :
    m ∈ registrationPart c (registrationId c) := by
  cases cached <;> simp [registrationPart] at h ⊢ <;> tauto

theorem mem_aliasPart {p : PairPolicy} (hp : c.effectivePairPolicy = some p) (cached : Bool) {m : Macro}
    (h : m ∈ aliasPart c p cached (registrationId c + 4 + if cached then 2 else 0)) :
    m ∈ registrationPart c (registrationId c) := by
  cases cached <;> simp [registrationPart, aliasesPart, hp] at h ⊢ <;> tauto

/-- A call of `ATTACH_FUNC` gives the branch that matches the name of its argument and runs it. -/
theorem yields_attach (cached : Bool) {f : List Token} (hw : Intact f) (hf : ∀ t ∈ f, (build c).sheet.Plain t) :
    (build c).sheet.Yields (call (c.naming.attach cached) [f])
      (c.wording.branchTokens cached [Token.quoted f] f) := by
  have hm : (build c).sheet.macro? (c.naming.attach cached) = some (attachOne c cached) :=
    macro?_registration (mem_attachPart cached (List.mem_cons_self ..))
  refine Sheet.Yields.call ?_ hm (by simp) (by simpa using hw) rfl
  rw [filled_attachOne]
  exact yields_branchTokens cached _ hf

/-- A call of `ALIAS_FUNC` gives the branch that matches the name of its second argument and runs the first. -/
theorem yields_alias {p : PairPolicy} (hp : c.effectivePairPolicy = some p) (cached : Bool) {f a : List Token}
    (hw : Intact f) (ha : Intact a) (hf : ∀ t ∈ f, (build c).sheet.Plain t) :
    (build c).sheet.Yields (call (c.naming.singleAlias cached) [f, a])
      (c.wording.branchTokens cached [Token.quoted a] f) := by
  have hm : (build c).sheet.macro? (c.naming.singleAlias cached) = some (aliasOne c cached) :=
    macro?_registration (mem_aliasPart hp cached (List.mem_cons_self ..))
  refine Sheet.Yields.call ?_ hm (by simp) (by simp [hw, ha]) rfl
  rw [filled_aliasOne]
  exact yields_branchTokens cached _ hf

end Header

end NamedDispatch
