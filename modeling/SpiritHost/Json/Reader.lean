import SpiritHost.Json.Value

/-!
# Reading JSON

The grammar is strict: no leading zeros, no trailing commas, no unescaped control characters, no
lone surrogates, nothing after the value. Values nest to a limited depth, and a number too large
for a float is refused.
-/

namespace SpiritHost.Json

/-- Characters not yet read. -/
abbrev Chars := List Char

/-- How deep arrays and objects may nest. -/
def maxDepth : Nat := 127

/-- The blanks that may stand between tokens. -/
def isBlank (c : Char) : Bool := c = ' ' || c = '\n' || c = '\t' || c = '\r'

/-- The input past any blanks. -/
def skipBlanks (cs : Chars) : Chars := cs.dropWhile isBlank

/-- The value of a hexadecimal digit. -/
def hexValue? (c : Char) : Option Nat :=
  if '0' ≤ c ∧ c ≤ '9' then some (c.toNat - '0'.toNat)
  else if 'a' ≤ c ∧ c ≤ 'f' then some (c.toNat - 'a'.toNat + 10)
  else if 'A' ≤ c ∧ c ≤ 'F' then some (c.toNat - 'A'.toNat + 10)
  else none

/-- Four hexadecimal digits. -/
def hex4? : Chars → Option (Nat × Chars)
  | a :: b :: c :: d :: rest => do
    let value := (((← hexValue? a) * 16 + (← hexValue? b)) * 16 + (← hexValue? c)) * 16
      + (← hexValue? d)
    some (value, rest)
  | _ => none

/-- The character of an escape, after its backslash. A leading surrogate needs its trailing one. -/
def escape? : Chars → Option (Char × Chars)
  | '\x22' :: rest => some ('\x22', rest)
  | '\\' :: rest => some ('\\', rest)
  | '/' :: rest => some ('/', rest)
  | 'b' :: rest => some ('\x08', rest)
  | 'f' :: rest => some ('\x0c', rest)
  | 'n' :: rest => some ('\n', rest)
  | 'r' :: rest => some ('\r', rest)
  | 't' :: rest => some ('\t', rest)
  | 'u' :: rest => do
    let (first, rest) ← hex4? rest
    if 0xDC00 ≤ first ∧ first < 0xE000 then none
    else if 0xD800 ≤ first ∧ first < 0xDC00 then
      match rest with
      | '\\' :: 'u' :: rest =>
        let (second, rest) ← hex4? rest
        if 0xDC00 ≤ second ∧ second < 0xE000 then
          some (Char.ofNat (0x10000 + (first - 0xD800) * 0x400 + (second - 0xDC00)), rest)
        else none
      | _ => none
    else some (Char.ofNat first, rest)
  | _ => none

/-- The characters of a string up to its closing quote; the bound is at least their number. -/
def stringTail : Nat → Chars → Option (List Char × Chars)
  | 0, _ => none
  | bound + 1, cs =>
    match cs with
    | [] => none
    | '\x22' :: rest => some ([], rest)
    | '\\' :: rest => do
      let (c, rest) ← escape? rest
      let (more, rest) ← stringTail bound rest
      some (c :: more, rest)
    | c :: rest => do
      if c.val < 0x20 then none
      let (more, rest) ← stringTail bound rest
      some (c :: more, rest)

/-- A number with one more decimal digit. -/
def withDigit (n : Nat) (c : Char) : Nat := n * 10 + (c.toNat - '0'.toNat)

/-- The number that decimal digits spell. -/
def digitsValue (digits : List Char) : Nat := digits.foldl withDigit 0

/-- The digits at the front of the input. -/
def takeDigits (cs : Chars) : List Char × Chars := cs.span Char.isDigit

/-- Appends digits to a significand as long as it fits a word of 64 bits; from the first one that
does not, they are left over. -/
def appendDigits (significand : Nat) : List Char → Nat × List Char
  | [] => (significand, [])
  | c :: rest =>
    if withDigit significand c < 18446744073709551616 then
      appendDigits (withDigit significand c) rest
    else (significand, c :: rest)

/-- The significand spells digits from the front; the others are left over. -/
theorem exists_appendDigits (significand : Nat) (cs : List Char) :
    ∃ front, cs = front ++ (appendDigits significand cs).2 ∧
      (appendDigits significand cs).1 = front.foldl withDigit significand := by
  induction cs generalizing significand with
  | nil => exact ⟨[], rfl, rfl⟩
  | cons c rest ih =>
    unfold appendDigits
    split
    · obtain ⟨front, split, value⟩ := ih (withDigit significand c)
      exact ⟨c :: front, congrArg (c :: ·) split, value⟩
    · exact ⟨[], rfl, rfl⟩

/-- A significand that fits a word still does with more digits. -/
theorem appendDigits_lt {significand : Nat} (h : significand < 18446744073709551616)
    (cs : List Char) : (appendDigits significand cs).1 < 18446744073709551616 := by
  induction cs generalizing significand with
  | nil => exact h
  | cons c rest ih =>
    unfold appendDigits
    split
    · exact ih ‹_›
    · exact h

/-- The greatest power of ten that is a float. -/
def maxPower : Nat := 308

/-- A power of ten as a float. -/
def floatPower (exponent : Nat) : Float := Float.ofScientific 1 false exponent

/-- A float times a power of ten, or divided by one if the exponent is negative; none if the product
is too large for a float. -/
def scale? (f : Float) (exponent : Int) : Option Float :=
  if exponent.natAbs ≤ maxPower then
    if exponent < 0 then some (f / floatPower exponent.natAbs)
    else
      let product := f * floatPower exponent.natAbs
      if product.isFinite then some product else none
  else if f == 0 then some f
  else if 0 < exponent then none
  else scale? (f / floatPower maxPower) (exponent + maxPower)
termination_by exponent.natAbs
decreasing_by
  simp only [maxPower] at *
  omega

/-- The bits of the float that a significand and an exponent spell. Significand and power are
rounded to floats first and their product again, so it need not be the nearest one. -/
def floatBits? (negative : Bool) (significand : Nat) (exponent : Int) : Option UInt64 :=
  (scale? significand.toUInt64.toFloat exponent).map fun f =>
    if negative then f.toBits ||| 0x8000000000000000 else f.toBits

/-- The largest exponent that is taken into account. -/
def maxExponent : Nat := 2147483647

/-- The float with the given sign, whole digits, fraction digits and exponent, as written. -/
def floatOf? (negative : Bool) (whole fraction : List Char) (exponent : Int) : Option Number :=
  let (significand, more) := appendDigits 0 whole
  let (significand, dropped) := appendDigits significand fraction
  let shift : Int := more.length - (fraction.length - dropped.length : Nat)
  Number.float <$>
    if exponent.natAbs ≤ maxExponent then floatBits? negative significand (exponent + shift)
    else if significand ≠ 0 ∧ 0 < exponent then none
    else floatBits? negative 0 0

/-- The number with the given sign, whole digits, fraction digits and exponent, as written. -/
def numberOf? (negative : Bool) (whole : List Char) (fraction : Option (List Char))
    (exponent : Option Int) : Option Number :=
  let asFloat := floatOf? negative whole (fraction.getD []) (exponent.getD 0)
  match appendDigits 0 whole, fraction, exponent with
  | (n, []), none, none =>
    if !negative then some (.int n)
    else if 0 < n ∧ n ≤ 9223372036854775808 then some (.int (-(n : Int)))
    else asFloat
  | _, _, _ => asFloat

/-- An exponent after its letter. -/
def exponent? (cs : Chars) : Option (Int × Chars) :=
  let (negative, cs) : Bool × Chars := match cs with
    | '-' :: rest => (true, rest)
    | '+' :: rest => (false, rest)
    | cs => (false, cs)
  match takeDigits cs with
  | ([], _) => none
  | (digits, rest) =>
    some (if negative then -(digitsValue digits : Int) else digitsValue digits, rest)

/-- The sign at the front of the input. -/
def sign : Chars → Bool × Chars
  | '-' :: rest => (true, rest)
  | cs => (false, cs)

/-- The whole digits of a number: at least one, and no zero in front of another. -/
def whole? (cs : Chars) : Option (List Char × Chars) :=
  match takeDigits cs with
  | ([], _) => none
  | ('0' :: _ :: _, _) => none
  | found => some found

/-- The digits of a fraction, if a point begins one. -/
def fraction? : Chars → Option (Option (List Char) × Chars)
  | '.' :: rest => match takeDigits rest with
    | ([], _) => none
    | (digits, rest) => some (some digits, rest)
  | cs => some (none, cs)

/-- An exponent, if a letter begins one. -/
def power? : Chars → Option (Option Int × Chars)
  | 'e' :: rest | 'E' :: rest => (exponent? rest).map fun (e, rest) => (some e, rest)
  | cs => some (none, cs)

/-- A number at the front of the input. -/
def number? (cs : Chars) : Option (Number × Chars) := do
  let (negative, cs) := sign cs
  let (whole, cs) ← whole? cs
  let (fraction, cs) ← fraction? cs
  let (exponent, cs) ← power? cs
  let n ← numberOf? negative whole fraction exponent
  some (n, cs)

/-- A word of the grammar. -/
def word? (letters : List Char) (value : Json) (cs : Chars) : Option (Json × Chars) :=
  if letters.isPrefixOf cs then some (value, cs.drop letters.length) else none

mutual

/-- A value. Each step reads a character, so the bound need not exceed the input's length. -/
def value : Nat → (depth : Nat) → Chars → Option (Json × Chars)
  | 0, _, _ => none
  | bound + 1, depth, cs =>
    match skipBlanks cs with
    | 'n' :: rest => word? ['n', 'u', 'l', 'l'] .null ('n' :: rest)
    | 't' :: rest => word? ['t', 'r', 'u', 'e'] (.bool true) ('t' :: rest)
    | 'f' :: rest => word? ['f', 'a', 'l', 's', 'e'] (.bool false) ('f' :: rest)
    | '\x22' :: rest => do
      let (text, rest) ← stringTail (rest.length + 1) rest
      some (.string (String.ofList text), rest)
    | '[' :: rest => match depth with
      | 0 => none
      | depth + 1 => match skipBlanks rest with
        | ']' :: rest => some (.array [], rest)
        | rest => do
          let (found, rest) ← items bound depth rest
          some (.array found, rest)
    | '\x7b' :: rest => match depth with
      | 0 => none
      | depth + 1 => match skipBlanks rest with
        | '\x7d' :: rest => some (.object [], rest)
        | rest => do
          let (found, rest) ← members bound depth rest
          some (.object found, rest)
    | rest => do
      let (n, rest) ← number? rest
      some (.number n, rest)

/-- The items of an array up to its closing bracket. -/
def items : Nat → (depth : Nat) → Chars → Option (List Json × Chars)
  | 0, _, _ => none
  | bound + 1, depth, cs => do
    let (first, rest) ← value bound depth cs
    match skipBlanks rest with
    | ']' :: rest => some ([first], rest)
    | ',' :: rest =>
      let (more, rest) ← items bound depth rest
      some (first :: more, rest)
    | _ => none

/-- The members of an object up to its closing brace. -/
def members : Nat → (depth : Nat) → Chars → Option (List (String × Json) × Chars)
  | 0, _, _ => none
  | bound + 1, depth, cs => do
    match skipBlanks cs with
    | '\x22' :: rest =>
      let (key, rest) ← stringTail (rest.length + 1) rest
      match skipBlanks rest with
      | ':' :: rest =>
        let (first, rest) ← value bound depth rest
        let member := (String.ofList key, first)
        match skipBlanks rest with
        | '\x7d' :: rest => some ([member], rest)
        | ',' :: rest =>
          let (more, rest) ← members bound depth rest
          some (member :: more, rest)
        | _ => none
      | _ => none
    | _ => none

end

/-- The value a text spells, with the members of its objects as they were written. -/
def parseAsWritten? (text : String) : Option Json := do
  let cs := text.toList
  let (found, rest) ← value (cs.length + 1) maxDepth cs
  if (skipBlanks rest).isEmpty then some found else none

/-- The value a text spells. -/
def parse? (text : String) : Option Json := (parseAsWritten? text).map canonical

end SpiritHost.Json
