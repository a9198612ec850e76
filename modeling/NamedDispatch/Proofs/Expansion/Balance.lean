/-
Parentheses and commas among tokens, counted from the left. Tokens are read as one argument of a call exactly when
they close the parentheses that they open, and no others, and have no comma outside of these.
-/
import NamedDispatch.Proofs.Expansion.Call

namespace NamedDispatch

namespace Token

/-! ## Open parentheses -/

/-- How many more parentheses the tokens open than they close. -/
def excess (ts : List Token) : Int := ts.count (sign '(') - ts.count (sign ')')

/-- No parenthesis is closed that is not open, and in the end all are closed. -/
structure Balanced (ts : List Token) : Prop where
  above : ∀ n, 0 ≤ excess (ts.take n)
  closed : excess ts = 0

/-- Every comma stands inside of parentheses. -/
def CommasWithin (ts : List Token) : Prop := ∀ n, ts[n]? = some (sign ',') → 0 < excess (ts.take n)

/-- The tokens are balanced and their commas within, counted from so many parentheses that are already open. -/
structure Closes (d : Int) (ts : List Token) : Prop where
  above : ∀ n, 0 ≤ d + excess (ts.take n)
  closed : d + excess ts = 0
  commas : ∀ n, ts[n]? = some (sign ',') → 0 < d + excess (ts.take n)

@[simp] theorem excess_nil : excess [] = 0 := rfl

theorem excess_cons (t : Token) (ts : List Token) : excess (t :: ts) = excess [t] + excess ts := by
  simp only [excess, List.count_cons, List.count_nil]
  omega

theorem excess_other {t : Token} (ho : t ≠ sign '(') (hc : t ≠ sign ')') : excess [t] = 0 := by
  simp [excess, ho, hc]

theorem closes_zero_iff {ts : List Token} : Closes 0 ts ↔ Balanced ts ∧ CommasWithin ts := by
  constructor
  · rintro ⟨above, closed, commas⟩
    simp only [Int.zero_add] at above closed commas
    exact ⟨⟨above, closed⟩, commas⟩
  · rintro ⟨⟨above, closed⟩, commas⟩
    constructor <;> simpa only [Int.zero_add]

theorem closes_nil {d : Int} : Closes d [] ↔ d = 0 := by
  constructor
  · intro h
    simpa using h.closed
  · rintro rfl
    constructor <;> simp

/-- One token after the other, each with what is open before it. -/
theorem closes_cons {d : Int} {t : Token} {ts : List Token} :
    Closes d (t :: ts) ↔ 0 ≤ d ∧ (t = sign ',' → 0 < d) ∧ Closes (d + excess [t]) ts := by
  have later (n : Nat) : d + excess ((t :: ts).take (n + 1)) = d + excess [t] + excess (ts.take n) := by
    rw [List.take_succ_cons, excess_cons]
    omega
  constructor
  · intro h
    refine ⟨by simpa using h.above 0, fun ht => by simpa [ht] using h.commas 0, fun n => ?_, ?_, fun n hn => ?_⟩
    · rw [← later]
      exact h.above (n + 1)
    · have := h.closed
      rw [excess_cons] at this
      omega
    · rw [← later]
      exact h.commas (n + 1) hn
  · rintro ⟨hd, ht, h⟩
    refine ⟨fun n => ?_, ?_, fun n hn => ?_⟩
    · cases n with
      | zero => simpa using hd
      | succ n =>
        rw [later]
        exact h.above n
    · have := h.closed
      rw [excess_cons]
      omega
    · cases n with
      | zero => simpa using ht (by simpa using hn)
      | succ n =>
        rw [later]
        exact h.commas n hn

instance decidableCloses : (d : Int) → (ts : List Token) → Decidable (Closes d ts)
  | _, [] => decidable_of_iff _ closes_nil.symm
  | d, t :: ts =>
    have := decidableCloses (d + excess [t]) ts
    decidable_of_iff _ closes_cons.symm

/-! ## One argument -/

/-- What one token does: it ends the call, it ends an argument, or it belongs to the argument that is read. -/
theorem argumentsFrom_cases {depth : Nat} {run ts : List Token} {t : Token} {r : List (List Token) × List Token}
    (h : argumentsFrom depth run (t :: ts) = some r) :
    (t = sign ')' ∧ depth = 0 ∧ r = ([run.reverse], ts)) ∨
    (∃ r', argumentsFrom 0 [] ts = some r' ∧ r = (run.reverse :: r'.1, r'.2)) ∨
    ∃ depth' : Nat, (depth : Int) + excess [t] = depth' ∧ (t = sign ',' → depth ≠ 0) ∧
      argumentsFrom depth' (t :: run) ts = some r := by
  rw [argumentsFrom] at h
  by_cases ho : t = sign '('
  · subst ho
    rw [if_pos rfl] at h
    exact .inr (.inr ⟨depth + 1, rfl, fun ht => absurd ht (by decide), h⟩)
  · rw [if_neg ho] at h
    by_cases hc : t = sign ')'
    · subst hc
      rw [if_pos rfl] at h
      by_cases hd : depth = 0
      · rw [if_pos hd] at h
        exact .inl ⟨rfl, hd, (Option.some.inj h).symm⟩
      · rw [if_neg hd] at h
        have hclose : excess [sign ')'] = -1 := rfl
        exact .inr (.inr ⟨depth - 1, by omega, fun ht => absurd ht (by decide), h⟩)
    · rw [if_neg hc] at h
      by_cases hs : t = sign ',' ∧ depth = 0
      · rw [if_pos hs] at h
        obtain ⟨r', hr, he⟩ := Option.map_eq_some_iff.1 h
        exact .inr (.inl ⟨r', hr, he.symm⟩)
      · rw [if_neg hs] at h
        exact .inr (.inr ⟨depth, by rw [excess_other ho hc, Int.add_zero], fun ht hd => hs ⟨ht, hd⟩, h⟩)

theorem argumentsFrom_ne_nil {ts : List Token} : ∀ {depth : Nat} {run : List Token}
    {r : List (List Token) × List Token}, argumentsFrom depth run ts = some r → r.1 ≠ [] := by
  induction ts with
  | nil => nofun
  | cons t ts ih =>
    intro depth run r h
    rcases argumentsFrom_cases h with ⟨-, -, rfl⟩ | ⟨r', -, rfl⟩ | ⟨depth', -, -, h⟩
    · simp
    · simp
    · exact ih h

/-- If a single argument is read, then it ends where all parentheses are closed, and no comma ends one before. -/
theorem closes_of_argumentsFrom {ts : List Token} : ∀ {depth : Nat} {run arg rest : List Token},
    argumentsFrom depth run ts = some ([arg], rest) →
      ∃ part, ts = part ++ sign ')' :: rest ∧ arg = run.reverse ++ part ∧ Closes depth part := by
  induction ts with
  | nil => nofun
  | cons t ts ih =>
    intro depth run arg rest h
    rcases argumentsFrom_cases h with ⟨rfl, rfl, he⟩ | ⟨r', hr, he⟩ | ⟨depth', hopen, hcomma, h⟩
    · cases he
      exact ⟨[], rfl, by simp, closes_nil.2 rfl⟩
    · -- there would be a second argument
      exact absurd (List.cons.inj (Prod.mk.inj he).1).2.symm (argumentsFrom_ne_nil hr)
    · obtain ⟨part, rfl, rfl, hp⟩ := ih h
      refine ⟨t :: part, rfl, by simp, closes_cons.2 ⟨by omega, fun ht => ?_, hopen ▸ hp⟩⟩
      have := hcomma ht
      omega

/-- Tokens that close what is open are gone over as a part of one argument. -/
theorem Closes.argumentsFrom_append {a : List Token} : ∀ {d : Nat}, Closes d a → ∀ (depth : Nat) (run ts : List Token),
    argumentsFrom (d + depth) run (a ++ ts) = argumentsFrom depth (a.reverse ++ run) ts := by
  induction a with
  | nil =>
    intro d h depth run ts
    have hd : d = 0 := by simpa using closes_nil.1 h
    rw [hd, Nat.zero_add]
    rfl
  | cons t a ih =>
    intro d h depth run ts
    obtain ⟨-, hcomma, h⟩ := closes_cons.1 h
    have above : 0 ≤ (d : Int) + excess [t] := by simpa using h.above 0
    obtain ⟨d', hd'⟩ := Int.eq_ofNat_of_zero_le above
    rw [hd'] at h
    rw [List.cons_append, List.reverse_cons, List.append_assoc, List.singleton_append, ← ih h, argumentsFrom]
    by_cases ho : t = sign '('
    · subst ho
      have hopen : excess [sign '('] = 1 := rfl
      rw [if_pos rfl, show d + depth + 1 = d' + depth by omega]
    · rw [if_neg ho]
      by_cases hc : t = sign ')'
      · subst hc
        have hclose : excess [sign ')'] = -1 := rfl
        rw [if_pos rfl, if_neg (by omega), show d + depth - 1 = d' + depth by omega]
      · rw [excess_other ho hc] at hd'
        rw [if_neg hc, if_neg, show d + depth = d' + depth by omega]
        rintro ⟨ht, h0⟩
        have := hcomma ht
        omega

theorem intact_iff {a : List Token} : Intact a ↔ Closes 0 a := by
  constructor
  · intro h
    have one := arguments_joined (List.cons_ne_nil a []) (List.forall_mem_singleton.2 h) []
    obtain ⟨part, -, rfl, hp⟩ := closes_of_argumentsFrom one
    exact hp
  · intro h depth run ts _
    have := Closes.argumentsFrom_append (d := 0) h depth run ts
    rwa [Nat.zero_add] at this

/-- One argument is read exactly where its parentheses are balanced and its commas within, up to the parenthesis
after it. -/
theorem arguments_eq_one_iff {ts arg rest : List Token} : arguments ts = some ([arg], rest) ↔
    ts = arg ++ sign ')' :: rest ∧ Balanced arg ∧ CommasWithin arg := by
  rw [← closes_zero_iff]
  constructor
  · intro h
    obtain ⟨part, rfl, rfl, hp⟩ := closes_of_argumentsFrom h
    exact ⟨rfl, hp⟩
  · rintro ⟨rfl, h⟩
    exact arguments_joined (List.cons_ne_nil arg []) (List.forall_mem_singleton.2 (intact_iff.2 h)) rest

end Token

end NamedDispatch
