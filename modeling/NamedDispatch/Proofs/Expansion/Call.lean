/-
How the preprocessor expands tokens with the macros of a sheet. A call binds the named parameters to
the leading arguments and `__VA_ARGS__` to the others, puts the arguments into the body and reads on at
its start. A call that is not closed, or that has a number of arguments the macro does not take, is a
fault.
-/
import NamedDispatch.Header.Sheet
import NamedDispatch.Proofs.Expansion.Token

namespace NamedDispatch

open Token (word literal sign given joined)

/-! ## Arguments -/

namespace Token

/-- The arguments of a call up to the parenthesis that closes it and the tokens after that, with the
parentheses open inside the call and the argument read so far, in reverse. Only commas outside these
parentheses separate arguments. -/
def argumentsFrom : Nat → List Token → List Token → Option (List (List Token) × List Token)
  | _, _, [] => none
  | depth, run, t :: ts =>
    if t = sign '(' then argumentsFrom (depth + 1) (t :: run) ts
    else if t = sign ')' then
      if depth = 0 then some ([run.reverse], ts) else argumentsFrom (depth - 1) (t :: run) ts
    else if t = sign ',' ∧ depth = 0 then
      (argumentsFrom 0 [] ts).map fun r => (run.reverse :: r.1, r.2)
    else argumentsFrom depth (t :: run) ts

/-- The arguments of a call, from after the parenthesis that opens it, and the tokens after the one that closes it. -/
def arguments (ts : List Token) : Option (List (List Token) × List Token) := argumentsFrom 0 [] ts

/-- Arguments with commas between them, in parentheses. -/
def enclosed (args : List (List Token)) : List Token := sign '(' :: joined args ++ [sign ')']

/-- A call of the macro `name`. -/
def call (name : String) (args : List (List Token)) : List Token := word name :: enclosed args

/-- A token as it is written. -/
def spelling : Token → String
  | word w => w
  | literal s => "\"" ++ s ++ "\""
  | sign c => String.singleton c
  | given s => s

/-- The literal that `#` makes of the tokens of an argument. -/
def quoted (ts : List Token) : Token := literal (String.join (ts.map spelling))

/-- A `#` that was read and has no parameter after it stays. -/
def kept (hash : Bool) : List Token := if hash then [sign '#'] else []

/-- Puts values in the place of parameters; the value of a parameter after a `#` becomes a literal. The flag
says that a `#` was read last. -/
def fillFrom (value : String → Option (List Token)) : Bool → List Token → List Token
  | hash, [] => kept hash
  | hash, word w :: ts =>
    (match value w with
      | none => kept hash ++ [word w]
      | some v => if hash then [quoted v] else v) ++ fillFrom value false ts
  | hash, t :: ts => kept hash ++ if t = sign '#' then fillFrom value true ts else t :: fillFrom value false ts

/-- Puts values in the place of parameters in a body. -/
def fill (value : String → Option (List Token)) (ts : List Token) : List Token := fillFrom value false ts

/-! ### Arguments that stay whole -/

/-- The tokens stay in one argument wherever at least so many parentheses are open. -/
def Stays (least : Nat) (a : List Token) : Prop :=
  ∀ depth run ts, least ≤ depth → argumentsFrom depth run (a ++ ts) = argumentsFrom depth (a.reverse ++ run) ts

/-- The tokens are one argument: its parentheses are closed, and its commas stand between them. -/
abbrev Intact (a : List Token) : Prop := Stays 0 a

theorem Stays.mono {least least' : Nat} {a : List Token} (h : Stays least a) (hle : least ≤ least') :
    Stays least' a := fun depth run ts hd => h depth run ts (Nat.le_trans hle hd)

theorem stays_nil (least : Nat) : Stays least [] := fun _ _ _ _ => rfl

theorem Stays.append {least : Nat} {a b : List Token} (ha : Stays least a) (hb : Stays least b) :
    Stays least (a ++ b) := by
  intro depth run ts hd
  rw [List.append_assoc, ha depth run _ hd, hb depth _ ts hd, List.reverse_append, List.append_assoc]

theorem stays_token {t : Token} (ho : t ≠ sign '(') (hc : t ≠ sign ')') (hs : t ≠ sign ',') (least : Nat) :
    Stays least [t] := by
  intro depth run ts _
  rw [List.singleton_append, argumentsFrom, if_neg ho, if_neg hc, if_neg fun h => hs h.1]
  rfl

theorem stays_comma : Stays 1 [sign ','] := by
  intro depth run ts hd
  rw [List.singleton_append, argumentsFrom, if_neg (by decide), if_neg (by decide), if_neg (by omega)]
  rfl

/-- Between parentheses commas do not matter. -/
theorem Stays.enclosed {a : List Token} (h : Stays 1 a) : Intact (sign '(' :: a ++ [sign ')']) := by
  -- inside at least one parenthesis is open, and the last one closes it again
  intro depth run ts _
  rw [List.cons_append, List.cons_append, List.append_assoc, argumentsFrom, if_pos rfl,
    h (depth + 1) _ _ (by omega), List.singleton_append, argumentsFrom, if_neg (by decide), if_pos rfl,
    if_neg (Nat.succ_ne_zero depth)]
  simp

theorem intact_word (w : String) : Intact [word w] := stays_token (by simp) (by simp) (by simp) 0

theorem intact_given (s : String) : Intact [given s] := stays_token (by simp) (by simp) (by simp) 0

theorem stays_joined {as : List (List Token)} (h : ∀ a ∈ as, Intact a) : Stays 1 (joined as) := by
  induction as with
  | nil => exact stays_nil 1
  | cons a as ih =>
    have ha : Stays 1 a := (h a (List.mem_cons_self ..)).mono (Nat.zero_le 1)
    have hr := ih fun b hb => h b (List.mem_cons_of_mem _ hb)
    cases as with
    | nil => exact ha
    | cons b as => exact ha.append (stays_comma.append hr)

theorem intact_call {name : String} {args : List (List Token)} (h : ∀ a ∈ args, Intact a) :
    Intact (call name args) := (intact_word name).append (stays_joined h).enclosed

/-- What is joined inside a list of arguments is more of them. -/
theorem enclosed_joined (as : List (List Token)) {bs : List (List Token)} (hb : bs ≠ []) (cs : List (List Token)) :
    enclosed (as ++ joined bs :: cs) = enclosed (as ++ (bs ++ cs)) := by
  rw [enclosed, joined_joined as hb]
  rfl

theorem argumentsFrom_close (run ts : List Token) :
    argumentsFrom 0 run (sign ')' :: ts) = some ([run.reverse], ts) := by
  rw [argumentsFrom, if_neg (by decide), if_pos rfl, if_pos rfl]

theorem argumentsFrom_comma (run ts : List Token) : argumentsFrom 0 run (sign ',' :: ts) =
    (argumentsFrom 0 [] ts).map fun r => (run.reverse :: r.1, r.2) := by
  rw [argumentsFrom, if_neg (by decide), if_neg (by decide), if_pos ⟨rfl, rfl⟩]

/-- Arguments that are one each are those of a call with commas between them. -/
theorem arguments_joined {as : List (List Token)} (hne : as ≠ []) (h : ∀ a ∈ as, Intact a) (ts : List Token) :
    arguments (joined as ++ sign ')' :: ts) = some (as, ts) := by
  unfold arguments
  induction as with
  | nil => exact absurd rfl hne
  | cons a as ih =>
    -- the first argument is gone through as one, up to the sign that ends it
    have ha := h a (List.mem_cons_self ..)
    cases as with
    | nil =>
      show argumentsFrom 0 [] (a ++ sign ')' :: ts) = _
      rw [ha 0 [] _ (Nat.zero_le _), argumentsFrom_close, List.append_nil, List.reverse_reverse]
    | cons b as =>
      have hr := ih (by simp) fun c hc => h c (List.mem_cons_of_mem _ hc)
      rw [joined_cons a (by simp), List.append_assoc, List.cons_append, ha 0 [] _ (Nat.zero_le _),
        argumentsFrom_comma, hr, List.append_nil, List.reverse_reverse]
      rfl

/-! ### Filling in -/

section

variable {value : String → Option (List Token)}

@[simp] theorem fill_nil : fill value [] = [] := rfl

theorem fill_param {w : String} {v : List Token} (h : value w = some v) (ts : List Token) :
    fill value (word w :: ts) = v ++ fill value ts := by
  rw [fill, fillFrom, h]; rfl

theorem fill_word {w : String} (h : value w = none) (ts : List Token) :
    fill value (word w :: ts) = word w :: fill value ts := by
  rw [fill, fillFrom, h]; rfl

theorem fillFrom_sign {c : Char} (h : c ≠ '#') (hash : Bool) (ts : List Token) :
    fillFrom value hash (sign c :: ts) = kept hash ++ sign c :: fill value ts := by
  rw [fillFrom, if_neg fun e => h (sign.inj e)]
  · rfl
  · nofun

theorem fill_sign {c : Char} (h : c ≠ '#') (ts : List Token) :
    fill value (sign c :: ts) = sign c :: fill value ts := fillFrom_sign h false ts

theorem fill_quoted {w : String} {v : List Token} (h : value w = some v) (ts : List Token) :
    fill value (sign '#' :: word w :: ts) = quoted v :: fill value ts := by
  rw [fill, fillFrom, if_pos rfl, fillFrom, h]
  · rfl
  · nofun

theorem fillFrom_append_sign {c : Char} (h : c ≠ '#') (us : List Token) : ∀ (hash : Bool) (ts : List Token),
    fillFrom value hash (ts ++ sign c :: us) = fillFrom value hash ts ++ sign c :: fill value us
  | hash, [] => by rw [List.nil_append, fillFrom_sign h, fillFrom]
  | hash, word w :: ts => by
    rw [List.cons_append, fillFrom, fillFrom_append_sign h us false ts, fillFrom, List.append_assoc]
  | hash, literal s :: ts | hash, given s :: ts => by
    simp only [List.cons_append, fillFrom, fillFrom_append_sign h us false ts, List.append_assoc, if_neg,
      reduceCtorEq, not_false_eq_true]
  | hash, sign d :: ts => by
    -- only a `#` is carried over to the token after it
    simp only [List.cons_append, fillFrom, List.append_assoc]
    split <;> rw [fillFrom_append_sign h us]
    rfl

theorem fill_append_sign {c : Char} (h : c ≠ '#') (ts us : List Token) :
    fill value (ts ++ sign c :: us) = fill value ts ++ sign c :: fill value us :=
  fillFrom_append_sign h us false ts

theorem fill_joined (as : List (List Token)) (ts : List Token) :
    fill value (joined as ++ sign ')' :: ts) = joined (as.map (fill value)) ++ sign ')' :: fill value ts := by
  induction as with
  | nil => exact fill_sign (by decide) ts
  | cons a as ih =>
    cases as with
    | nil => exact fill_append_sign (by decide) a ts
    | cons b as =>
      change _ = joined (fill value a :: (b :: as).map (fill value)) ++ sign ')' :: fill value ts
      rw [joined_cons a (by simp), List.append_assoc, List.cons_append, fill_append_sign (by decide), ih,
        joined_cons (fill value a) (by simp), List.append_assoc, List.cons_append]

theorem fill_enclosed_append (as : List (List Token)) (ts : List Token) :
    fill value (enclosed as ++ ts) = enclosed (as.map (fill value)) ++ fill value ts := by
  have h : fill value (sign '(' :: (joined as ++ sign ')' :: ts)) =
      sign '(' :: (joined (as.map (fill value)) ++ sign ')' :: fill value ts) := by
    rw [fill_sign (by decide), fill_joined]
  simpa [enclosed] using h

theorem fill_enclosed (as : List (List Token)) : fill value (enclosed as) = enclosed (as.map (fill value)) := by
  have h : fill value (enclosed as ++ []) = _ := fill_enclosed_append as []
  rwa [List.append_nil, fill_nil, List.append_nil] at h

theorem fill_call_append {name : String} (h : value name = none) (as : List (List Token)) (ts : List Token) :
    fill value (call name as ++ ts) = call name (as.map (fill value)) ++ fill value ts := by
  rw [call, List.cons_append, fill_word h, fill_enclosed_append]
  rfl

theorem fill_call {name : String} (h : value name = none) (as : List (List Token)) :
    fill value (call name as) = call name (as.map (fill value)) := by
  have := fill_call_append h as []
  rwa [List.append_nil, fill_nil, List.append_nil] at this

theorem fill_applied {w : String} {v : List Token} (h : value w = some v) (as : List (List Token))
    (ts : List Token) :
    fill value (call w as ++ ts) = v ++ enclosed (as.map (fill value)) ++ fill value ts := by
  rw [call, List.cons_append, fill_param h, fill_enclosed_append, List.append_assoc]

end

end Token

/-! ## Calls -/

namespace Macro

/-- The name that stands for the arguments beyond the named parameters. -/
def furtherName : String := "__VA_ARGS__"

/-- Whether a call with `n` arguments is one of the macro: as many as it names, or more if it ends in `...`. -/
def takes (m : Macro) (n : Nat) : Bool :=
  if m.isVariadic then decide (m.namedParams.length ≤ n) else n == m.namedParams.length

/-- What a word stands for in a body, if it is a parameter or `__VA_ARGS__`. -/
def value (m : Macro) (args : List (List Token)) (w : String) : Option (List Token) :=
  if w = furtherName then if m.isVariadic then some (joined (args.drop m.namedParams.length)) else none
  else (m.namedParams.idxOf? w).bind fun i => args[i]?

/-- The body with the arguments in the place of the parameters. -/
def filled (m : Macro) (args : List (List Token)) : List Token :=
  Token.fill (m.value args) (Token.ofText m.body)

end Macro

/-! ## Expanding -/

/-- Why tokens are not expanded to their end: a call that is not closed, one with a number of arguments that its
macro does not take, or too few steps. -/
inductive ExpansionFault where
  | outOfSteps
  | notClosed (name : String)
  | argumentCount (name : String) (count : Nat)
deriving DecidableEq, Repr

namespace Sheet

/-- The macro found under a name. -/
def macro? (s : Sheet) (name : String) : Option Macro := (s.lookup name).bind fun id => s.defs[id]?

/-- One step: a call is replaced, any other token is done. Given are the tokens done and the tokens left. -/
def expandStep (s : Sheet) : List Token → Except ExpansionFault (List Token × List Token)
  | [] => .ok ([], [])
  | word w :: sign '(' :: ts =>
    match s.macro? w with
    | none => .ok ([word w], sign '(' :: ts)
    | some m =>
      match Token.arguments ts with
      | none => .error (.notClosed w)
      | some (args, rest) =>
        if m.takes args.length then .ok ([], m.filled args ++ rest)
        else .error (.argumentCount w args.length)
  | t :: ts => .ok ([t], ts)

/-- Expands tokens in at most the given number of steps. -/
def expand (s : Sheet) : Nat → List Token → Except ExpansionFault (List Token)
  | _, [] => .ok []
  | 0, _ :: _ => .error .outOfSteps
  | n + 1, t :: ts => do
    let (done, left) ← s.expandStep (t :: ts)
    return done ++ (← s.expand n left)

end Sheet

end NamedDispatch
