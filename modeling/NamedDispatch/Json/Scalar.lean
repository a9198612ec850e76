/-
Reading strings and numbers. A string is read as bytes and must be UTF-8 as a whole; a number keeps
its value exactly while it is an integer of 64 bits and becomes a floating point number otherwise.
-/
import NamedDispatch.Json.Cursor
import NamedDispatch.Json.Basic
import NamedDispatch.Text.Utf8

namespace NamedDispatch.Json.Reader

/-! ## Strings -/

/-- The value of a hexadecimal digit, of either case. -/
def hexValue? (b : UInt8) : Option Nat :=
  let c := Char.ofNat b.toNat
  if c.isDigit then some (c.toNat - '0'.toNat)
  else if 'a' ≤ c ∧ c ≤ 'f' then some (c.toNat - 'a'.toNat + 10)
  else if 'A' ≤ c ∧ c ≤ 'F' then some (c.toNat - 'A'.toNat + 10)
  else none

/-- The value of four hexadecimal digits. -/
def hexQuad? (a b c d : UInt8) : Option Nat := do
  return 4096 * (← hexValue? a) + 256 * (← hexValue? b) + 16 * (← hexValue? c) + (← hexValue? d)

/-- Reads the four digits of a code; when fewer bytes are left, all of them are read. -/
def hexCode : Reader Nat := fun c =>
  match c.rest with
  | d₁ :: d₂ :: d₃ :: d₄ :: _ =>
    match skipMany 4 c with
    | .ok _ c =>
      match hexQuad? d₁ d₂ d₃ d₄ with
      | some n => .ok n c
      | none => .error ⟨.invalidEscape, some c.place⟩ c
    | .error f c => .error f c
  | rest =>
    match skipMany rest.length c with
    | .ok _ c => .error ⟨.eofString, some c.place⟩ c
    | .error f c => .error f c

/-- The character of the code `n` in UTF-8. -/
def codeBytes (n : Nat) : List UInt8 := String.utf8EncodeChar (Char.ofNat n)

/-- Reads the byte that has to follow in an escaped pair. -/
def pairByte (expected : Char) : Reader Unit := do
  match ← peek with
  | none => failHere .eofString
  | some c =>
    skip
    if c = expected then pure () else failHere .endOfHexEscape

/-- Reads the code after `\u`; a leading surrogate must be followed by an escaped trailing one. -/
def unicodeEscape : Reader (List UInt8) := do
  let n ← hexCode
  if 0xDC00 ≤ n ∧ n ≤ 0xDFFF then failHere .loneSurrogate
  else if n < 0xD800 ∨ 0xDBFF < n then return codeBytes n
  else
    pairByte '\\'
    pairByte 'u'
    let low ← hexCode
    if low < 0xDC00 ∨ 0xDFFF < low then failHere .loneSurrogate
    else return codeBytes (0x10000 + (n - 0xD800) * 0x400 + (low - 0xDC00))

/-- Reads an escape after its backslash, and gives the bytes it stands for. -/
def escape : Reader (List UInt8) := do
  match ← next with
  | none => failHere .eofString
  | some '"' => return [0x22]
  | some '\\' => return [0x5C]
  | some '/' => return [0x2F]
  | some 'b' => return [0x08]
  | some 'f' => return [0x0C]
  | some 'n' => return [0x0A]
  | some 'r' => return [0x0D]
  | some 't' => return [0x09]
  | some 'u' => unicodeEscape
  | some _ => failHere .invalidEscape

/-- The text that the bytes are in UTF-8, if they are one. -/
def textOfBytes? (bytes : List UInt8) : Option String :=
  String.fromUTF8? ⟨bytes.toArray⟩

/-- Reads the bytes of a string up to its closing quote, onto those read so far in reverse. -/
def stringBytes : Steps → List UInt8 → Reader (List UInt8)
  | [], _ => failHere .eofString
  | _ :: steps, before => do
    match ← peek with
    | none => failHere .eofString
    | some '"' => do skip; return before.reverse
    | some '\\' => do
      skip
      let bytes ← escape
      stringBytes steps (bytes.reverse ++ before)
    | some c => do
      skip
      if c.toNat < 0x20 then failHere .controlCharacter
      else stringBytes steps (UInt8.ofNat c.toNat :: before)

/-- Reads a string after its opening quote. Where the bytes it stands for are no text, the place is
counted back from the closing quote: a byte for each of them from the first ill-formed sequence on,
whether it was escaped or not. -/
def string : Reader String := do
  let bytes ← stringBytes (← stepsLeft) []
  match textOfBytes? bytes with
  | some s => return s
  | none =>
    let p := (← get).place
    throw ⟨.invalidUnicode, some ⟨p.line, p.column - (Text.illFormed bytes).length⟩⟩

/-! ## Numbers -/

/-- The value of the next byte as a decimal digit, without reading it. -/
def peekDigit : Reader (Option Nat) := fun c =>
  match peek c with
  | .ok (some d) c => .ok (if d.isDigit then some (d.toNat - '0'.toNat) else none) c
  | .ok none c => .ok none c
  | .error f c => .error f c

/-- Goes past digits, and adds their number to `n`. -/
def countDigits : Steps → Nat → Reader Nat
  | [], n => return n
  | _ :: steps, n => do
    match ← peekDigit with
    | none => return n
    | some _ => do skip; countDigits steps (n + 1)

/-- Reads digits onto a significand while it fits 64 bits; also how many digits were read. -/
def significandDigits : Steps → Nat → Nat → Reader (Nat × Nat)
  | [], m, n => return (m, n)
  | _ :: steps, m, n => do
    match ← peekDigit with
    | none => return (m, n)
    | some d =>
      if 10 * m + d < UInt64.size then do
        skip
        significandDigits steps (10 * m + d) (n + 1)
      else return (m, n)

/-- The number `± significand · 10^exponent`, unless it exceeds every finite number. -/
def decimal (negative : Bool) (significand : Nat) (exponent : Int) : Reader Json :=
  match Double.ofDecimal? significand exponent with
  | none => failHere .numberOutOfRange
  | some x => return .float (if negative then x.neg else x)

/-- The greatest exponent that is read digit by digit. -/
def exponentLimit : Nat := 2147483647

/-- Reads the digits of an exponent; nothing when it passes the limit. -/
def exponentDigits : Steps → Nat → Reader (Option Nat)
  | [], e => return some e
  | _ :: steps, e => do
    match ← peekDigit with
    | none => return some e
    | some d => do
      skip
      if 10 * e + d ≤ exponentLimit then exponentDigits steps (10 * e + d) else return none

/-- Reads an exponent from its letter on. An exponent beyond the limit leaves zero as it is, makes
a number out of range when it is positive, and zero when it is negative. -/
def exponentPart (negative : Bool) (significand : Nat) (start : Int) : Reader Json := do
  skip
  let down ← do
    match ← peek with
    | some '+' => do skip; pure false
    | some '-' => do skip; pure true
    | _ => pure false
  match ← next with
  | none => failHere .eofValue
  | some c =>
    if c.isDigit then do
      match ← exponentDigits (← stepsLeft) (c.toNat - '0'.toNat) with
      | some e => decimal negative significand (if down then start - e else start + e)
      | none =>
        if significand ≠ 0 ∧ !down then failHere .numberOutOfRange
        else do
          let _ ← countDigits (← stepsLeft) 0
          decimal negative 0 0
    else failHere .invalidNumber

/-- Reads what may follow the digits after the point. -/
def afterFraction (negative : Bool) (significand : Nat) (exponent : Int) : Reader Json := do
  match ← peek with
  | some 'e' | some 'E' => exponentPart negative significand exponent
  | _ => decimal negative significand exponent

/-- Reads a fraction from its point on. Once the significand is full, further digits are dropped. -/
def fractionPart (negative : Bool) (significand : Nat) (start : Int) : Reader Json := do
  skip
  let (m, n) ← significandDigits (← stepsLeft) significand 0
  match ← peekDigit with
  | some _ => do
    let _ ← countDigits (← stepsLeft) 0
    afterFraction negative m (start - n)
  | none =>
    if n = 0 then
      match ← peek with
      | some _ => failAhead .invalidNumber
      | none => failAhead .eofValue
    else afterFraction negative m (start - n)

/-- An integer as read; minus zero and what exceeds 64 bits become floating point numbers. -/
def integer (negative : Bool) (n : Nat) : Reader Json :=
  if negative then
    match n with
    | 0 => decimal true 0 0
    | n =>
      if h : n ≤ 9223372036854775808 then return .int ⟨-n, by omega, by omega⟩ else decimal true n 0
  else if h : n < 18446744073709551616 then return .int ⟨n, by omega, by omega⟩
  else decimal false n 0

/-- Reads what may follow the digits before the point. -/
def afterInteger (negative : Bool) (significand : Nat) : Reader Json := do
  match ← peek with
  | some '.' => fractionPart negative significand 0
  | some 'e' | some 'E' => exponentPart negative significand 0
  | _ => integer negative significand

/-- Reads a number after its sign; no digit may follow a zero in front. -/
def number (negative : Bool) : Reader Json := do
  match ← next with
  | none => failHere .eofValue
  | some '0' => do
    match ← peekDigit with
    | some _ => failAhead .invalidNumber
    | none => afterInteger negative 0
  | some c =>
    if c.isDigit then do
      let (m, _) ← significandDigits (← stepsLeft) (c.toNat - '0'.toNat) 0
      match ← peekDigit with
      | none => afterInteger negative m
      | some _ => do
        -- the significand is full, so that each further digit before the point is a power of ten
        let dropped ← countDigits (← stepsLeft) 0
        match ← peek with
        | some '.' => fractionPart negative m dropped
        | some 'e' | some 'E' => exponentPart negative m dropped
        | _ => decimal negative m dropped
    else failHere .invalidNumber

end NamedDispatch.Json.Reader
