/-
The text of a header line by line. Each step of writing a sheet (`Sheet.Entry`) adds its lines at the end of
those before it, and no line goes on to the next, so that the lines of the text that start with a `#` are those
of the macros and the directives, in the order in which they are written.
-/
import Mathlib.Data.List.TakeWhile
import NamedDispatch.Proofs.Header.Legible
import NamedDispatch.Proofs.Text.Lines

namespace NamedDispatch

/-- A line that the preprocessor reads. -/
def Text.isDirective (line : String) : Bool := line.toList.head? == some '#'

/-! ## Lines of a macro -/

namespace Macro

theorem toList_line (m : Macro) : m.line.toList = "#define ".toList ++ (m.name.toList ++ '(' ::
    ((commaList m.params).toList ++ ')' :: if m.body.isEmpty then [] else ' ' :: m.body.toList)) := by
  unfold line
  split <;> simp

theorem isDirective_line (m : Macro) : Text.isDirective m.line = true := by
  rw [Text.isDirective, toList_line]
  rfl

theorem newline_not_mem_param {p : String} (h : isParam p = true) : '\n' ∉ p.toList := by
  rw [isParam, Bool.or_eq_true, beq_iff_eq] at h
  rcases h with h | rfl
  · exact Text.newline_not_mem_of_isQuiet (Text.isQuiet_of_isIdentifier h)
  · decide

theorem newline_not_mem_line {m : Macro} (h : m.Legible) (hn : Text.isIdentifier m.name = true) :
    '\n' ∉ m.line.toList := by
  have name := Text.newline_not_mem_of_isQuiet (Text.isQuiet_of_isIdentifier hn)
  have params : '\n' ∉ (commaList m.params).toList := fun hc => by
    rcases mem_commaList hc with h' | h' | ⟨p, hp, hc⟩
    · exact absurd h' (by decide)
    · exact absurd h' (by decide)
    · exact newline_not_mem_param (h.param p hp) hc
  have body := h.body
  rw [toList_line]
  split <;> simp_all

end Macro

namespace Sheet

open Header (lineText macroText)
open Text (isDirective)

/-! ## Lines of a sheet -/

/-- The lines of a sheet, with those of each macro in place of its number. -/
def textLines (s : Sheet) : List String := s.lines.toList.flatMap (lineText s)

namespace Entry

/-- The line of a step of writing that the preprocessor reads. -/
def text? : Entry → Option String
  | define m => some m.line
  | directive text => some text
  | blank => none

/-- The lines that a step of writing adds. An empty line is left out where there is one already. -/
inductive Writes : Entry → List String → Prop where
  | define (m : Macro) : Writes (.define m) (macroText m)
  | directive (text : String) : Writes (.directive text) [text]
  | blank : Writes .blank [""]
  | skipped : Writes .blank []

/-- The text of a step that writes a directive. -/
def directive? : Entry → Option String
  | directive text => some text
  | _ => none

/-- A step of writing that keeps to its own lines: directives start with a `#`, and nothing goes on to the next
line. -/
structure Plain (e : Entry) : Prop where
  define : ∀ m, e = .define m → m.Legible ∧ Text.isIdentifier m.name = true
  directive : ∀ text, e = .directive text → isDirective text = true ∧ '\n' ∉ text.toList

theorem Writes.filter {e : Entry} {ls : List String} (h : e.Writes ls) (he : e.Plain) :
    ls.filter isDirective = e.text?.toList := by
  cases h with
  | define m =>
    have note (text : String) : isDirective ("///@brief " ++ text) = false := by
      rw [isDirective, String.toList_append]
      rfl
    rw [macroText]
    split
    · rw [List.filter_cons_of_pos m.isDirective_line]
      rfl
    · rw [List.filter_cons_of_neg (by rw [note]; decide), List.filter_cons_of_pos m.isDirective_line]
      rfl
  | directive text =>
    rw [List.filter_cons_of_pos (he.directive text rfl).1]
    rfl
  | blank | skipped => rfl

theorem Writes.newline_not_mem {e : Entry} {ls : List String} (h : e.Writes ls) (he : e.Plain) :
    ∀ l ∈ ls, '\n' ∉ l.toList := by
  intro l hl
  cases h with
  | define m =>
    obtain ⟨legible, name⟩ := he.define m rfl
    have line := Macro.newline_not_mem_line legible name
    rw [macroText] at hl
    split at hl
    · rwa [List.mem_singleton.1 hl]
    · rename_i note hd
      rw [List.mem_cons, List.mem_singleton] at hl
      rcases hl with rfl | rfl
      · rw [String.toList_append, List.mem_append, not_or]
        exact ⟨by decide, legible.doc note hd⟩
      · exact line
  | directive text =>
    rw [List.mem_singleton.1 hl]
    exact (he.directive text rfl).2
  | blank =>
    rw [List.mem_singleton.1 hl]
    decide
  | skipped => cases hl

end Entry

/-- Every line of a macro stands for one that the sheet has. -/
def Numbered (s : Sheet) : Prop := ∀ id, Line.define id ∈ s.lines.toList → id < s.size

theorem numbered_empty : empty.Numbered := nofun

theorem blank_cases (s : Sheet) : s.blank = s ∨ s.blank = { s with lines := s.lines.push .blank } := by
  unfold blank
  split
  · exact .inl rfl
  · exact .inl rfl
  · exact .inr rfl

section

variable {s : Sheet} (h : s.Numbered)
include h

theorem Numbered.write (e : Entry) : (s.write e).Numbered := by
  intro id hid
  cases e with
  | define m =>
    simp only [Sheet.write, emit, Array.toList_push, List.mem_append, List.mem_singleton, Line.define.injEq] at hid
    rw [Sheet.write, size_emit]
    rcases hid with hid | rfl
    · exact Nat.lt_succ_of_lt (h id hid)
    · exact Nat.lt_succ_self _
  | directive text =>
    simp only [Sheet.write, directive, Array.toList_push, List.mem_append, List.mem_singleton, reduceCtorEq,
      or_false] at hid
    exact h id hid
  | blank =>
    rw [Sheet.write] at hid ⊢
    rcases s.blank_cases with hb | hb <;> rw [hb] at hid ⊢
    · exact h id hid
    · simp only [Array.toList_push, List.mem_append, List.mem_singleton, reduceCtorEq, or_false] at hid
      exact h id hid

theorem textLines_write (e : Entry) : ∃ ls, e.Writes ls ∧ (s.write e).textLines = s.textLines ++ ls := by
  cases e with
  | define m =>
    refine ⟨_, .define m, ?_⟩
    -- the macros that were there keep their numbers
    have kept : ∀ l ∈ s.lines.toList, lineText (s.emit m) l = lineText s l := by
      intro l hl
      cases l with
      | define id =>
        rw [lineText, lineText, emit, Array.getElem?_push, if_neg (show id ≠ s.defs.size from Nat.ne_of_lt (h id hl))]
      | directive text => rfl
      | blank => rfl
    have last : lineText (s.emit m) (.define s.size) = macroText m := by
      rw [lineText, emit, Array.getElem?_push, if_pos (show s.size = s.defs.size from rfl)]
      rfl
    rw [Sheet.write, textLines, show (s.emit m).lines.toList = s.lines.toList ++ [.define s.size] from
      Array.toList_push .., List.flatMap_append, List.flatMap_singleton, last, List.flatMap_congr kept, textLines]
  | directive text =>
    refine ⟨_, .directive text, ?_⟩
    rw [Sheet.write, textLines, directive, Array.toList_push, List.flatMap_append, List.flatMap_singleton]
    rfl
  | blank =>
    rw [Sheet.write]
    rcases s.blank_cases with hb | hb <;> rw [hb]
    · exact ⟨_, .skipped, (List.append_nil _).symm⟩
    · refine ⟨_, .blank, ?_⟩
      rw [textLines, Array.toList_push, List.flatMap_append, List.flatMap_singleton]
      rfl

theorem textLines_writeAll (es : List Entry) : ∃ lss, List.Forall₂ Entry.Writes es lss ∧
    (s.writeAll es).textLines = s.textLines ++ lss.flatten := by
  unfold writeAll
  induction es generalizing s with
  | nil => exact ⟨[], .nil, (List.append_nil _).symm⟩
  | cons e es ih =>
    obtain ⟨ls, hw, hl⟩ := textLines_write h e
    obtain ⟨lss, hws, hls⟩ := ih (h.write e)
    refine ⟨ls :: lss, .cons hw hws, ?_⟩
    rw [List.foldl_cons, hls, hl, List.append_assoc]
    rfl

end

theorem filter_flatten {es : List Entry} {lss : List (List String)} (h : List.Forall₂ Entry.Writes es lss)
    (he : ∀ e ∈ es, e.Plain) : lss.flatten.filter isDirective = es.filterMap Entry.text? := by
  induction h with
  | nil => rfl
  | @cons e ls es lss hw _ ih =>
    rw [List.flatten_cons, List.filter_append, hw.filter (he e (List.mem_cons_self ..)),
      ih fun e' he' => he e' (List.mem_cons_of_mem _ he'), List.filterMap_cons]
    cases e.text? <;> rfl

theorem newline_not_mem_flatten {es : List Entry} {lss : List (List String)} (h : List.Forall₂ Entry.Writes es lss)
    (he : ∀ e ∈ es, e.Plain) : ∀ l ∈ lss.flatten, '\n' ∉ l.toList := by
  induction h with
  | nil => nofun
  | @cons e ls es lss hw _ ih =>
    rw [List.flatten_cons, List.forall_mem_append]
    exact ⟨hw.newline_not_mem (he e (List.mem_cons_self ..)), ih fun e' he' => he e' (List.mem_cons_of_mem _ he')⟩

end Sheet

/-! ## Lines of a header -/

namespace Header

open Sheet (Entry)
open Text (isDirective)

/-- Closing a text leaves its lines as they are, but for empty ones at its end. -/
theorem filter_splitOn_closeText {p : List Char → Bool} (hp : p [] = false) (cs : List Char) :
    ((closeText cs).splitOn '\n').filter p = (cs.splitOn '\n').filter p := by
  have ends : cs.reverse.takeWhile (· == '\n') = List.replicate (cs.reverse.takeWhile (· == '\n')).length '\n' :=
    List.eq_replicate_iff.2 ⟨rfl, fun c hc => eq_of_beq (List.mem_takeWhile_imp (p := (· == '\n')) hc)⟩
  have split : cs = (cs.reverse.dropWhile (· == '\n')).reverse ++
      List.replicate (cs.reverse.takeWhile (· == '\n')).length '\n' := by
    conv_lhs => rw [← List.reverse_reverse cs, ← List.takeWhile_append_dropWhile (p := (· == '\n')) (l := cs.reverse),
      List.reverse_append, ends, List.reverse_replicate]
  rw [closeText, show ['\n'] = List.replicate 1 '\n' from rfl, Text.filter_splitOn_ends hp]
  conv_rhs => rw [split, Text.filter_splitOn_ends hp]

/-- The lines of the text that are not empty are those it is made of. -/
theorem filter_lines_render {h : Header} (hl : ∀ l ∈ h.textLines, '\n' ∉ l.toList) {p : String → Bool}
    (hp : p "" = false) : (Text.lines h.render).filter p = h.textLines.filter p := by
  have hp' : (p ∘ String.ofList) [] = false := hp
  rw [Text.lines, render, String.toList_ofList, List.filter_map, filter_splitOn_closeText hp', joinLines,
    Text.splitOn_lines hl, ← List.filter_map, List.map_append, List.map_map, List.filter_append]
  have ofList : (String.ofList ∘ String.toList) = id := funext fun _ => String.ofList_toList
  rw [ofList, List.map_id]
  exact (congrArg _ (List.filter_cons_of_neg (by rw [show String.ofList [] = "" from rfl, hp]; decide))).trans
    (List.append_nil _)

variable {c : Config}

theorem directives_defines (ms : List Macro) : (ms.map Entry.define).filterMap Entry.directive? = [] := by
  rw [List.filterMap_map]
  exact List.filterMap_eq_nil_iff.2 fun _ _ => rfl

theorem directives_registrationEntries (firstId : Nat) :
    (registrationEntries c firstId).filterMap Entry.directive? = [] := by
  unfold registrationEntries aliasesEntries
  rcases c.effectivePairPolicy with _ | p
  all_goals
    simp only [List.filterMap_append, directives_defines]
    rfl

/-- The directives of a header in order. -/
theorem directives_entries : (entries c).filterMap Entry.directive? = "#pragma once" :: if c.wording.guarded then
    [Wording.ladderGuard, Wording.endGuard, Wording.serverGuard, Wording.clientGuard, Wording.endGuard,
      Wording.serverGuard, Wording.endGuard]
    else [] := by
  have pair : (pairEntries c).filterMap Entry.directive? = [] := by
    unfold pairEntries
    split
    · rfl
    · rw [List.filterMap_append, directives_defines]
      rfl
  simp only [entries, List.filterMap_append, directives_defines, directives_registrationEntries, pair]
  unfold openingEntries betweenEntries closingEntries
  split <;> rfl

theorem plain_directives : ∀ text ∈ (entries c).filterMap Entry.directive?,
    isDirective text = true ∧ '\n' ∉ text.toList := by
  have plain {cs : List Char} (h : (cs.head? == some '#' && cs.all (· != '\n')) = true) :
      isDirective (String.ofList cs) = true ∧ '\n' ∉ (String.ofList cs).toList := by
    rw [isDirective, String.toList_ofList]
    rw [Bool.and_eq_true] at h
    exact ⟨h.1, fun hc => absurd (List.all_eq_true.1 h.2 _ hc) (by decide)⟩
  rw [directives_entries]
  split
  · simp only [List.forall_mem_cons, List.not_mem_nil, false_implies, implies_true, and_true]
    refine ⟨?_, ?_, ?_, ?_, ?_, ?_, ?_, ?_⟩ <;> exact plain (by decide)
  · rw [List.forall_mem_singleton]
    exact plain (by decide)

theorem plain_entries (hs : Text.isStem c.stem = true) : ∀ e ∈ entries c, e.Plain := by
  intro e he
  constructor
  · rintro m rfl
    have hm : m ∈ layout c := by
      rw [← filterMap_entries]
      exact List.mem_filterMap.2 ⟨_, he, rfl⟩
    exact readable_layout hs m hm
  · rintro text rfl
    exact plain_directives text (List.mem_filterMap.2 ⟨_, he, rfl⟩)

theorem isQuiet_banner (c : Config) : ∀ l ∈ banner c, Text.isQuiet l = true := by
  have note : Text.isQuiet ("///@note Generated by dispatch_gen (" ++ c.variant.name ++ " variant, max arity " ++
      toString c.maxArity.toNat ++ "). Do not edit;") = true := by
    have name : Text.isQuiet c.variant.name = true := by cases c.variant <;> decide
    simp only [Text.isQuiet_append, name, Text.isQuiet_toString]
    decide
  unfold banner
  simp only [List.forall_mem_cons, List.not_mem_nil, false_implies, implies_true, and_true]
  refine ⟨?_, ?_, ?_, note, ?_, ?_, ?_, ?_⟩ <;> exact Text.isQuiet_ofList (by decide)

theorem isDirective_of_isQuiet {line : String} (h : Text.isQuiet line = true) : isDirective line = false := by
  rw [isDirective, beq_eq_false_iff_ne]
  intro hl
  exact absurd (List.all_eq_true.1 h _ (List.mem_of_head? hl)) (by decide)

/-- The lines that the preprocessor reads are those of the macros and the directives, in the order in which
they were written. -/
theorem directiveLines_build (hs : Text.isStem c.stem = true) :
    (Text.lines (build c).render).filter isDirective = (entries c).filterMap Entry.text? := by
  obtain ⟨lss, hw, hl⟩ := Sheet.textLines_writeAll Sheet.numbered_empty (entries c)
  have text : (build c).textLines = banner c ++ lss.flatten := by
    rw [textLines, build_eq]
    exact congrArg _ (hl.trans (List.nil_append _))
  rw [filter_lines_render ?_ rfl, text, List.filter_append, Sheet.filter_flatten hw (plain_entries hs)]
  · exact List.append_left_eq_self.2 (List.filter_eq_nil_iff.2 fun l hl => by
      rw [isDirective_of_isQuiet (isQuiet_banner c l hl)]; decide)
  · rw [text, List.forall_mem_append]
    exact ⟨fun l hl => Text.newline_not_mem_of_isQuiet (isQuiet_banner c l hl),
      Sheet.newline_not_mem_flatten hw (plain_entries hs)⟩

end Header

end NamedDispatch
