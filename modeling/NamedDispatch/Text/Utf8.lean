/-
Well-formed sequences of bytes in UTF-8, to find where bytes stop being text.
-/

namespace NamedDispatch.Text

/-- A byte that goes on with a sequence. -/
def isContinuation (b : UInt8) : Bool := 0x80 ≤ b && b ≤ 0xBF

/-- The bytes that may follow the first of a longer sequence: they leave out overlong forms,
surrogates and codes beyond the last. -/
def secondRange (first : UInt8) : UInt8 × UInt8 :=
  if first = 0xE0 then (0xA0, 0xBF)
  else if first = 0xED then (0x80, 0x9F)
  else if first = 0xF0 then (0x90, 0xBF)
  else if first = 0xF4 then (0x80, 0x8F)
  else (0x80, 0xBF)

/-- Whether a byte may follow the first of a sequence. -/
def isSecond (first b : UInt8) : Bool := (secondRange first).1 ≤ b && b ≤ (secondRange first).2

/-- How many bytes the well-formed sequence at the front has; 0 when there is none. -/
def sequenceLength : List UInt8 → Nat
  | [] => 0
  | a :: rest =>
    if a < 0x80 then 1
    -- 0xC0 and 0xC1 would start overlong forms
    else if 0xC2 ≤ a && a ≤ 0xDF then
      match rest with
      | b :: _ => if isContinuation b then 2 else 0
      | _ => 0
    else if 0xE0 ≤ a && a ≤ 0xEF then
      match rest with
      | b :: c :: _ => if isSecond a b && isContinuation c then 3 else 0
      | _ => 0
    else if 0xF0 ≤ a && a ≤ 0xF4 then
      match rest with
      | b :: c :: d :: _ => if isSecond a b && isContinuation c && isContinuation d then 4 else 0
      | _ => 0
    else 0

/-- The bytes from the first sequence on that is not well-formed; so many bytes are left of the
sequence before. -/
def illFormedFrom : Nat → List UInt8 → List UInt8
  | _, [] => []
  | n + 1, _ :: bs => illFormedFrom n bs
  | 0, b :: bs =>
    match sequenceLength (b :: bs) with
    | 0 => b :: bs
    | n + 1 => illFormedFrom n bs

/-- The bytes from the first sequence on that is not well-formed; none when all are. -/
def illFormed (bytes : List UInt8) : List UInt8 := illFormedFrom 0 bytes

end NamedDispatch.Text
