/-
What a reader makes of a written text. A reader reads a text when it goes past exactly this text and
gives the result, whatever stands after it. Nothing but a number is read differently by what follows, so
it is enough that the text ends there: at the end of all bytes, or at a comma or a closing bracket.
-/
import NamedDispatch.Json.Read
import NamedDispatch.Proofs.Text.Order
import Mathlib.Data.List.Forall2

namespace NamedDispatch

open Text (utf8 utf8_append utf8_append_append utf8_cons)

namespace Json

/-! ## Places -/

/-- The place after the bytes of characters. -/
def Place.past (p : Place) (cs : List Char) : Place := (utf8 cs).foldl Place.after p

theorem Place.past_append (p : Place) (cs ds : List Char) : p.past (cs ++ ds) = (p.past cs).past ds := by
  rw [past, utf8_append, List.foldl_append]
  rfl

theorem Place.past_cons (p : Place) (c : Char) (cs : List Char) : p.past (c :: cs) = (p.past [c]).past cs :=
  p.past_append [c] cs

namespace Reader

variable {α β : Type} {r : Reader α} {a : α} {c c' c'' : Cursor} {x : Char} {cs : List Char} {rest : List UInt8}
  {p : Place}

/-! ## Steps of a reader -/

theorem bind_ok {f : α → Reader β} (h : r c = .ok a c') : (r >>= f) c = f a c' := by
  show EStateM.bind r f c = f a c'
  rw [EStateM.bind, h]

theorem located_ok (h : r c = .ok a c') : located r c = .ok a c' := by rw [located, h]

theorem closing_ok {close : Reader Unit} (h : r c = .ok a c') (hc : close c' = .ok () c'') :
    closing r close c = .ok a c'' := by
  rw [closing, h]
  dsimp only
  rw [hc]

theorem stepsLeft_ok (c : Cursor) : stepsLeft c = .ok (0 :: c.rest) c := rfl

theorem peek_byte (b : UInt8) (rest : List UInt8) (p : Place) :
    peek ⟨b :: rest, p⟩ = .ok (some (Char.ofNat b.toNat)) ⟨b :: rest, p⟩ := rfl

theorem skip_byte (b : UInt8) (rest : List UInt8) (p : Place) : skip ⟨b :: rest, p⟩ = .ok () ⟨rest, p.after b⟩ := rfl

theorem advance_cons (hx : x.toNat < 128) (cs : List Char) (rest : List UInt8) (p : Place) :
    Cursor.advance ⟨utf8 (x :: cs) ++ rest, p⟩ = ⟨utf8 cs ++ rest, p.past [x]⟩ := by
  rw [utf8_cons hx, Place.past, utf8_cons hx]
  rfl

theorem peek_cons (hx : x.toNat < 128) (cs : List Char) (rest : List UInt8) (p : Place) :
    peek ⟨utf8 (x :: cs) ++ rest, p⟩ = .ok (some x) ⟨utf8 (x :: cs) ++ rest, p⟩ := by
  rw [utf8_cons hx, List.cons_append, peek_byte, Text.char_of_byte hx]

theorem skip_cons (hx : x.toNat < 128) (cs : List Char) (rest : List UInt8) (p : Place) :
    skip ⟨utf8 (x :: cs) ++ rest, p⟩ = .ok () ⟨utf8 cs ++ rest, p.past [x]⟩ := by
  rw [skip, advance_cons hx]

theorem next_cons (hx : x.toNat < 128) (cs : List Char) (rest : List UInt8) (p : Place) :
    next ⟨utf8 (x :: cs) ++ rest, p⟩ = .ok (some x) ⟨utf8 cs ++ rest, p.past [x]⟩ := by
  rw [next, advance_cons hx, utf8_cons hx, List.cons_append, List.head?_cons, Option.map_some, Text.char_of_byte hx]

/-- A character of one byte that is no blank. -/
structure Solid (x : Char) : Prop where
  ascii : x.toNat < 128
  noGap : isGap (UInt8.ofNat x.toNat) = false

theorem solid_comma : Solid ',' := ⟨by decide, by decide⟩

theorem solid_colon : Solid ':' := ⟨by decide, by decide⟩

theorem solid_quote : Solid '"' := ⟨by decide, by decide⟩

theorem solid_openBracket : Solid '[' := ⟨by decide, by decide⟩

theorem solid_closeBracket : Solid ']' := ⟨by decide, by decide⟩

theorem solid_openBrace : Solid '\x7b' := ⟨by decide, by decide⟩

theorem solid_closeBrace : Solid '\x7d' := ⟨by decide, by decide⟩

theorem peekPart_cons (hx : Solid x) (cs : List Char) (rest : List UInt8) (p : Place) :
    peekPart ⟨utf8 (x :: cs) ++ rest, p⟩ = .ok (some x) ⟨utf8 (x :: cs) ++ rest, p⟩ := by
  have hd : dropGaps (utf8 (x :: cs) ++ rest) p = ⟨utf8 (x :: cs) ++ rest, p⟩ := by
    rw [utf8_cons hx.ascii, List.cons_append, dropGaps, hx.noGap]
    rfl
  rw [peekPart, hd, peek_cons hx.ascii]

/-! ## Reading a text -/

/-- What follows a text goes on with another one or closes a bracket. -/
def Ends (rest : List UInt8) : Prop := ∀ b ∈ rest.head?, b = 0x2C ∨ b = 0x5D ∨ b = 0x7D

theorem ends_nil : Ends [] := nofun

theorem ends_comma (cs : List Char) (rest : List UInt8) : Ends (utf8 (',' :: cs) ++ rest) := fun _ hb =>
  .inl (Option.some.inj hb).symm

theorem ends_bracket (cs : List Char) (rest : List UInt8) : Ends (utf8 (']' :: cs) ++ rest) := fun _ hb =>
  .inr (.inl (Option.some.inj hb).symm)

theorem ends_brace (cs : List Char) (rest : List UInt8) : Ends (utf8 ('\x7d' :: cs) ++ rest) := fun _ hb =>
  .inr (.inr (Option.some.inj hb).symm)

/-- The reader goes past the text and gives the result, whatever follows. -/
def Reads (r : Reader α) (text : List Char) (a : α) : Prop :=
  ∀ rest p, Ends rest → r ⟨utf8 text ++ rest, p⟩ = .ok a ⟨rest, p.past text⟩

theorem Reads.map {text : List Char} (f : α → β) (h : Reads r text a) : Reads (do return f (← r)) text (f a) := by
  intro rest p he
  rw [bind_ok (h rest p he)]
  rfl

theorem word_ok (h : (cs.all fun x => x.toNat < 128) = true) (rest : List UInt8) (p : Place) :
    word cs ⟨utf8 cs ++ rest, p⟩ = .ok () ⟨rest, p.past cs⟩ := by
  induction cs generalizing p with
  | nil => rfl
  | cons x cs ih =>
    rw [List.all_cons, Bool.and_eq_true, decide_eq_true_iff] at h
    rw [word, bind_ok (next_cons h.1 cs rest p)]
    dsimp only
    rw [if_pos rfl, ih h.2, ← Place.past_cons]

/-- A word is read whole once its first letter has been seen. -/
theorem word_reads (hx : x.toNat < 128) (h : (cs.all fun x => x.toNat < 128) = true) (a : α) :
    Reads (do skip; word cs; return a) (x :: cs) a := by
  intro rest p _
  rw [bind_ok (skip_cons hx cs rest p), bind_ok (word_ok h rest _), ← Place.past_cons]
  rfl

/-! ## Lists -/

/-- The text starts with a part of a list: neither with a blank nor with what closes the list. -/
def Opens (text : List Char) : Prop := ∃ x cs, text = x :: cs ∧ Solid x ∧ x ≠ ']'

theorem Opens.append {text : List Char} (h : Opens text) (cs : List Char) : Opens (text ++ cs) := by
  obtain ⟨x, ds, rfl, hx⟩ := h
  exact ⟨x, ds ++ cs, rfl, hx⟩

/-- Each text with a comma before it. -/
def further (texts : List (List Char)) : List Char := texts.flatMap (',' :: ·)

/-- The texts with commas between them. -/
def joined : List (List Char) → List Char
  | [] => []
  | t :: ts => t ++ further ts

theorem further_cons (t : List Char) (ts : List (List Char)) : further (t :: ts) = ',' :: joined (t :: ts) := rfl

theorem further_append (t : List Char) (ts : List (List Char)) (close : List Char) :
    further (t :: ts) ++ close = ',' :: (t ++ (further ts ++ close)) := by
  rw [further_cons, joined, List.cons_append, List.append_assoc]

theorem past_further (p : Place) (t : List Char) (ts : List (List Char)) :
    p.past (further (t :: ts)) = ((p.past [',']).past t).past (further ts) :=
  (p.past_cons ',' (t ++ further ts)).trans (Place.past_append ..)

theorem length_le_further (ts : List (List Char)) : ts.length ≤ (further ts).length := by
  induction ts with
  | nil => exact Nat.le_refl 0
  | cons t ts ih =>
    rw [further_cons, joined, List.length_cons, List.length_cons, List.length_append]
    omega

theorem length_le_joined (ts : List (List Char)) : ts.length ≤ (joined ts).length + 1 := by
  cases ts with
  | nil => exact Nat.zero_le _
  | cons t ts =>
    have := length_le_further ts
    rw [joined, List.length_cons, List.length_append]
    omega

/-- There is a step for every text. -/
theorem length_le_steps (ts : List (List Char)) (close : Char) (rest : List UInt8) :
    ts.length ≤ (0 :: (utf8 (joined ts ++ [close]) ++ rest)).length := by
  have hj := length_le_joined ts
  have hu := Text.length_le_utf8 (joined ts ++ [close])
  rw [List.length_append, List.length_singleton] at hu
  rw [List.length_cons, List.length_append]
  omega

theorem elementFollows_end (first : Bool) (cs : List Char) (rest : List UInt8) (p : Place) :
    elementFollows first ⟨utf8 (']' :: cs) ++ rest, p⟩ = .ok false ⟨utf8 (']' :: cs) ++ rest, p⟩ := by
  rw [elementFollows, bind_ok (peekPart_cons solid_closeBracket cs rest p)]
  rfl

theorem elementFollows_first {text : List Char} (h : Opens text) (rest : List UInt8) (p : Place) :
    elementFollows true ⟨utf8 text ++ rest, p⟩ = .ok true ⟨utf8 text ++ rest, p⟩ := by
  obtain ⟨x, cs, rfl, hx, hb⟩ := h
  rw [elementFollows, bind_ok (peekPart_cons hx cs rest p)]
  simp only [if_true]
  rfl

theorem elementFollows_comma {text : List Char} (h : Opens text) (rest : List UInt8) (p : Place) :
    elementFollows false ⟨utf8 (',' :: text) ++ rest, p⟩ = .ok true ⟨utf8 text ++ rest, p.past [',']⟩ := by
  obtain ⟨x, cs, rfl, hx, hb⟩ := h
  rw [elementFollows, bind_ok (peekPart_cons solid_comma (x :: cs) rest p)]
  simp only [Char.reduceEq, imp_self, Bool.false_eq_true, if_false, if_true]
  rw [bind_ok (skip_cons solid_comma.ascii (x :: cs) rest p), bind_ok (peekPart_cons hx cs rest _)]
  simp only
  rfl

/-- A part of a list whose text is read. -/
structure ReadsPart (r : Reader α) (text : List Char) (a : α) : Prop where
  opens : Opens text
  reads : Reads r text a

variable {as : List α} {texts : List (List Char)} {steps : Steps}

theorem elements_end (r : Reader α) (steps : Steps) (first : Bool) (rest : List UInt8) (p : Place) :
    elements r steps first ⟨utf8 [']'] ++ rest, p⟩ = .ok [] ⟨utf8 [']'] ++ rest, p⟩ := by
  cases steps with
  | nil => rfl
  | cons _ steps =>
    have hf := elementFollows_end first [] rest p
    have he : element? first r ⟨utf8 [']'] ++ rest, p⟩ = .ok none ⟨utf8 [']'] ++ rest, p⟩ := by
      rw [element?, bind_ok hf]
      rfl
    rw [elements, bind_ok he]
    rfl

/-- One more element is read once it is clear that one follows. -/
theorem elements_step {first : Bool} {text : List Char} {b : UInt8} {more : List UInt8}
    (hf : elementFollows first c = .ok true ⟨utf8 text ++ more, p⟩) (hr : Reads r text a) (hm : Ends more)
    (hs : elements r steps false ⟨more, p.past text⟩ = .ok as c') :
    elements r (b :: steps) first c = .ok (a :: as) c' := by
  have he : element? first r c = .ok (some a) ⟨more, p.past text⟩ := by
    rw [element?, bind_ok hf, if_pos rfl, bind_ok (hr more p hm)]
    rfl
  rw [elements, bind_ok he]
  dsimp only
  rw [bind_ok hs]
  rfl

theorem ends_further {close : List Char} (texts : List (List Char)) (h : Ends (utf8 close ++ rest)) :
    Ends (utf8 (further texts ++ close) ++ rest) := by
  cases texts with
  | nil => exact h
  | cons t ts => exact ends_comma _ rest

theorem elements_further (h : List.Forall₂ (ReadsPart r) texts as) (hs : texts.length ≤ steps.length)
    (rest : List UInt8) (p : Place) : elements r steps false ⟨utf8 (further texts ++ [']']) ++ rest, p⟩ =
      .ok as ⟨utf8 [']'] ++ rest, p.past (further texts)⟩ := by
  induction h generalizing steps p with
  | nil => exact elements_end r steps false rest p
  | @cons t a ts as ht _ ih =>
    cases steps with
    | nil => cases hs
    | cons b steps =>
      have hf := elementFollows_comma (ht.opens.append (further ts ++ [']'])) rest p
      rw [← further_append, utf8_append_append t] at hf
      have hrest := ih (Nat.le_of_succ_le_succ hs) ((p.past [',']).past t)
      rw [elements_step hf ht.reads (ends_further ts (ends_bracket [] rest)) hrest, past_further]

/-- The parts of a list are read up to the bracket that closes it. -/
theorem elements_joined (h : List.Forall₂ (ReadsPart r) texts as) (hs : texts.length ≤ steps.length)
    (rest : List UInt8) (p : Place) : elements r steps true ⟨utf8 (joined texts ++ [']']) ++ rest, p⟩ =
      .ok as ⟨utf8 [']'] ++ rest, p.past (joined texts)⟩ := by
  cases h with
  | nil => exact elements_end r steps true rest p
  | @cons t a ts as ht hts =>
    cases steps with
    | nil => cases hs
    | cons b steps =>
      have hf := elementFollows_first (ht.opens.append (further ts ++ [']'])) rest p
      rw [utf8_append_append] at hf
      have hrest := elements_further hts (Nat.le_of_succ_le_succ hs) rest (p.past t)
      rw [joined, List.append_assoc, Place.past_append, utf8_append_append]
      exact elements_step hf ht.reads (ends_further ts (ends_bracket [] rest)) hrest

theorem endList_ok (rest : List UInt8) (p : Place) : endList ⟨utf8 [']'] ++ rest, p⟩ = .ok () ⟨rest, p.past [']']⟩ := by
  rw [endList, bind_ok (peekPart_cons solid_closeBracket [] rest p)]
  exact skip_cons solid_closeBracket.ascii [] rest p

/-- A list is read after its opening bracket, up to the closing one. -/
theorem listItems_ok (h : List.Forall₂ (ReadsPart r) texts as) (rest : List UInt8) (p : Place) :
    listItems r ⟨utf8 (joined texts ++ [']']) ++ rest, p⟩ = .ok as ⟨utf8 [']'] ++ rest, p.past (joined texts)⟩ :=
  (bind_ok (stepsLeft_ok _)).trans (elements_joined h (length_le_steps texts ']' rest) rest p)

end Reader

end Json

end NamedDispatch
