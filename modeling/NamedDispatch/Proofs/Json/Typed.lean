/-
What typed readers make of written texts: numbers, strings, names of variants, records that are written as objects,
and tagged objects. An object with its tag in front is read as the tag and the members after it, these as
they stand; from a document that was kept so its parts are taken again, elements and fields one by one.
-/
import NamedDispatch.Json.Shape
import NamedDispatch.Proofs.Json.Documents

namespace NamedDispatch.Json.Reader

open Text (utf8)

variable {α τ : Type} {a : α} {ms : List (String × List Char)} {room : Nat}

/-! ## Whole texts -/

/-- A text that is read as a part is read as a whole. -/
theorem run_of_reads {r : Nat → Reader α} {text : List Char} (h : Reads (r nestingLimit) text a) :
    run r (utf8 text) = .ok a := by
  have hr := h [] .start ends_nil
  rw [List.append_nil] at hr
  have he : wholeText r (.start (utf8 text)) = .ok a ⟨[], Place.past .start text⟩ := by
    rw [wholeText, Cursor.start, bind_ok hr]
    rfl
  rw [run, he]

theorem run_render {r : Nat → Reader α} {j : Json} (h : Reads (r nestingLimit) j.write a) :
    run r j.render.toUTF8.data.toList = .ok a := by
  rw [render, Text.toUTF8_eq, String.toList_ofList]
  exact run_of_reads h

/-! ## Scalars and names of variants -/

theorem natural_reads (wanted : String) (n : UInt64) : Reads (natural wanted) (Json.ofUInt64 n).write n := by
  intro rest p he
  have hw : (Json.ofUInt64 n).write = Nat.toDigits 10 n.toNat := rfl
  have hd : documentOf none ⟨utf8 (Nat.toDigits 10 n.toNat) ++ rest, p⟩ =
      .ok (.int (.ofUInt64 n)) ⟨rest, p.past (Nat.toDigits 10 n.toNat)⟩ := documentOf_natural rfl rest p he
  obtain ⟨d, ds, hds, hdigit⟩ := toDigits_first n.toNat
  rw [hw]
  rw [hds] at hd ⊢
  refine located_ok ?_
  rw [bind_ok (peekPart_cons (solid_digit hdigit) ds rest p)]
  simp only
  rw [if_pos (.inl hdigit), bind_ok hd]
  simp only
  rw [if_pos (show 0 ≤ (Whole.ofUInt64 n).val from Int.natCast_nonneg n.toNat)]
  show EStateM.Result.ok (UInt64.ofNat (n.toNat : Int).toNat) _ = _
  rw [Int.toNat_natCast, UInt64.ofNat_toNat]

theorem nullable_null {r : Reader α} : Reads (nullable r) Json.null.write none := by
  intro rest p he
  rw [Json.write, nullable, bind_ok (peekPart_cons ⟨by decide, by decide⟩ _ rest p)]
  exact word_reads (by decide) rfl none rest p he

/-- What is written as a string is read as it is where it might be `null`. -/
theorem nullable_string {r : Reader α} {s : String} (h : Reads r (writeString s) a) :
    Reads (nullable r) (writeString s) (some a) := by
  intro rest p he
  have hr := h.map some rest p he
  rw [writeString, List.cons_append] at hr ⊢
  rw [nullable, bind_ok (peekPart_cons solid_quote _ rest p)]
  exact hr

theorem text_reads (wanted s : String) : Reads (text wanted) (writeString s) s := by
  intro rest p _
  refine located_ok ?_
  rw [writeString, List.cons_append, bind_ok (peekPart_cons solid_quote _ rest p)]
  simp only
  rw [bind_ok (skip_cons solid_quote.ascii _ rest p), string_ok s rest _, ← Place.past_cons]

theorem variantName_reads {all : List (String × α)} {name : String} (h : all.lookup name = some a) :
    Reads (variantName all) (writeString name) a := by
  intro rest p he
  refine located_ok ?_
  rw [bind_ok (text_reads _ name rest p he), variantOf, h]
  rfl

/-- A variant without content is read from its name. -/
theorem bareVariant_reads {all : List (String × α)} {name : String} (h : all.lookup name = some a) :
    Reads (bareVariant all room) (writeString name) a := by
  intro rest p he
  have hn := variantName_reads h rest p he
  rw [writeString, List.cons_append] at hn ⊢
  rw [bareVariant, bind_ok (peekPart_cons solid_quote _ rest p)]
  simp only
  exact hn

/-! ## Lists and records -/

/-- A list is read when each of its parts is. -/
theorem list_reads {part : Nat → Reader α} {texts : List (List Char)} {as : List α}
    (h : List.Forall₂ (ReadsPart (part room)) texts as) :
    Reads (list part (room + 1)) ('[' :: joined texts ++ [']']) as := by
  intro rest p _
  have hi : (skip >>= fun _ => listItems (part room)) ⟨utf8 ('[' :: (joined texts ++ [']'])) ++ rest, p⟩ =
      .ok as ⟨utf8 [']'] ++ rest, (p.past ['[']).past (joined texts)⟩ :=
    (bind_ok (skip_cons solid_openBracket.ascii _ rest p)).trans (listItems_ok h rest _)
  refine located_ok ?_
  rw [List.cons_append, bind_ok (peekPart_cons solid_openBracket _ rest p)]
  simp only
  refine (closing_ok hi (endList_ok rest _)).trans ?_
  rw [← Place.past_append, ← Place.past_cons]

/-- A record is read from an object when its fields are read from the members. -/
theorem record_reads (wanted : String) {inOrder byName : Nat → Reader α}
    (h : ∀ rest p, byName room ⟨utf8 (joined (ms.map memberText) ++ ['\x7d']) ++ rest, p⟩ =
      .ok a ⟨utf8 ['\x7d'] ++ rest, p.past (joined (ms.map memberText))⟩) :
    Reads (record wanted inOrder byName (room + 1)) (objectText ms) a := by
  intro rest p _
  refine located_ok ?_
  rw [objectText, bind_ok (peekPart_cons solid_openBrace _ rest p)]
  simp only
  have hi : (skip >>= fun _ => byName room) ⟨utf8 ('\x7b' :: (joined (ms.map memberText) ++ ['\x7d'])) ++ rest, p⟩ =
      .ok a ⟨utf8 ['\x7d'] ++ rest, (p.past ['\x7b']).past (joined (ms.map memberText))⟩ :=
    (bind_ok (skip_cons solid_openBrace.ascii _ rest p)).trans (h rest _)
  refine (closing_ok hi (endObject_ok rest _)).trans ?_
  rw [← Place.past_append, ← Place.past_cons]

/-! ## Tagged objects -/

/-- What a tagged object makes of a member: the tag, or one more member that is kept. -/
def tagMember (name : String) (tag : Reader τ) (room : Nat) (read : Option τ × List (String × Json)) (key : String) :
    Reader (Option τ × List (String × Json)) := do
  if key = name then return (← field name read.1 tag, read.2)
  else do
    colon
    return (read.1, (key, ← document room) :: read.2)

theorem tagMember_name {name : String} {tag : Reader τ} {text : List Char} {t : τ} (ht : Reads tag text t)
    (before : List (String × Json)) :
    Reads (tagMember name tag room (none, before) name) (':' :: text) (some t, before) := by
  intro rest p he
  have hfield : field name none tag ⟨utf8 (':' :: text) ++ rest, p⟩ = .ok (some t) ⟨rest, p.past (':' :: text)⟩ :=
    colon_reads some ht rest p he
  rw [tagMember, if_pos rfl, bind_ok hfield]
  rfl

theorem tagMember_other {name key : String} (hk : key ≠ name) (tag : Reader τ) {j : Json} {text : List Char}
    (hj : Reads (document room) text j) (read : Option τ × List (String × Json)) :
    Reads (tagMember name tag room read key) (':' :: text) (read.1, (key, j) :: read.2) := by
  rw [tagMember, if_neg hk]
  exact colon_reads (fun j => (read.1, (key, j) :: read.2)) hj

theorem foldl_kept (t : Option τ) (members before : List (String × Json)) :
    members.foldl (fun read m => (read.1, m :: read.2)) (t, before) = (t, members.reverse ++ before) := by
  induction members generalizing before with
  | nil => rfl
  | cons m members ih => rw [List.foldl_cons, ih, List.reverse_cons, List.append_assoc, List.singleton_append]

/-- A tagged object is read as its tag and the other members, as they stand. -/
theorem tagged_reads {name : String} (wanted : String) {tag : Reader τ} {text : List Char} {t : τ}
    (ht : Reads tag text t) {members : List (String × Json)} (hn : ∀ m ∈ members, m.1 ≠ name)
    (hf : isFloatFreeMembers members = true) (hd : depthMembers members ≤ room) :
    Reads (tagged name wanted tag (room + 1)) (objectText ((name, text) :: members.map fun m => (m.1, m.2.write)))
      (t, .obj members) := by
  have hm : Folds (tagMember name tag room) (none, []) ((name, text) :: members.map fun m => (m.1, m.2.write))
      (some t, members.reverse) := by
    have hrest : Folds (tagMember name tag room) (some t, []) (members.map fun m => (m.1, m.2.write))
        (members.foldl (fun read m => (read.1, m :: read.2)) (some t, [])) :=
      folds_of_reads _ _ fun m hm read => tagMember_other (hn m hm) tag (reads_members members hf hd m hm) read
    rw [foldl_kept, List.append_nil] at hrest
    exact .cons (tagMember_name ht []) hrest
  refine record_reads wanted fun rest p => ?_
  refine (bind_ok (objectMembers_ok hm rest p)).trans ?_
  show (required name (some t) >>= fun t => pure (t, Json.obj members.reverse.reverse)) _ = _
  rw [List.reverse_reverse]
  rfl

end NamedDispatch.Json.Reader

/-! ## Documents taken apart -/

namespace NamedDispatch.Json.Shape

variable {α β γ : Type} {first : Json → Except Cause α} {second : Json → Except Cause β}
  {third : Json → Except Cause γ} {a : α} {b : β} {c : γ} {j₁ j₂ j₃ : Json} {name₁ name₂ name₃ : String}

theorem list_ok (put : α → Json) (h : ∀ a, first (put a) = .ok a) (as : List α) :
    list first (.arr (as.map put)) = .ok as := by
  have hput : first ∘ put = fun a => pure (id a) := funext h
  rw [list, List.mapM_map, hput, List.mapM_pure, List.map_id]
  rfl

theorem twoFields_ok (h₁ : first j₁ = .ok a) (h₂ : second j₂ = .ok b) (hn : name₂ ≠ name₁) :
    twoFields name₁ name₂ first second [(name₁, j₁), (name₂, j₂)] = .ok (a, b) := by
  rw [twoFields]
  simp only [List.foldlM_cons, List.foldlM_nil, if_pos, if_neg hn, field, h₁, h₂]
  rfl

theorem threeFields_ok (h₁ : first j₁ = .ok a) (h₂ : second j₂ = .ok b) (h₃ : third j₃ = .ok c)
    (hn₂ : name₂ ≠ name₁) (hn₃ : name₃ ≠ name₁) (hn₃₂ : name₃ ≠ name₂) :
    threeFields name₁ name₂ name₃ first second third [(name₁, j₁), (name₂, j₂), (name₃, j₃)] =
      .ok (a, b, c) := by
  rw [threeFields]
  simp only [List.foldlM_cons, List.foldlM_nil, if_pos, if_neg hn₂, if_neg hn₃, if_neg hn₃₂, field, h₁, h₂, h₃]
  rfl

end NamedDispatch.Json.Shape
