import SpiritHost.Decimal.Overflow
import SpiritHost.Json.Reader
import SpiritHost.Toml.Value

/-!
# Configuration files: scalars

Strings in their four forms, numbers in four bases, truth values, and points in time. A number or
a point in time is a run of word characters, which is cut off first and then read.
-/

namespace SpiritHost.Toml

open Json (Chars hexValue?)

/-- A character that may stand in strings and comments. -/
def isText (c : Char) : Bool := c = '\t' || (0x20 ≤ c.val && c.val ≠ 0x7F)

/-- A blank between tokens of a line. -/
def isBlank (c : Char) : Bool := c = ' ' || c = '\t'

/-! ## Strings -/

/-- A scalar value given by hexadecimal digits. -/
def scalar? (digits : Chars) : Option Char := do
  let n := (← digits.mapM hexValue?).foldl (fun n d => n * 16 + d) 0
  if n < 0xD800 ∨ (0xE000 ≤ n ∧ n < 0x110000) then some (Char.ofNat n) else none

/-- A character given by a fixed number of hexadecimal digits. -/
def hexEscape? (count : Nat) (cs : Chars) : Option (Char × Chars) := do
  if cs.length < count then none
  some (← scalar? (cs.take count), cs.drop count)

/-- The character of an escape, after its backslash. -/
def escape? : Chars → Option (Char × Chars)
  | 'b' :: rest => some ('\x08', rest)
  | 't' :: rest => some ('\t', rest)
  | 'n' :: rest => some ('\n', rest)
  | 'f' :: rest => some ('\x0c', rest)
  | 'r' :: rest => some ('\r', rest)
  | 'e' :: rest => some ('\x1b', rest)
  | '\x22' :: rest => some ('\x22', rest)
  | '\\' :: rest => some ('\\', rest)
  | 'x' :: rest => hexEscape? 2 rest
  | 'u' :: rest => hexEscape? 4 rest
  | 'U' :: rest => hexEscape? 8 rest
  | _ => none

/-- The rest of a string with escapes on one line; the bound exceeds the number of characters. -/
def basicTail : Nat → Chars → Option (List Char × Chars)
  | 0, _ => none
  | bound + 1, cs => match cs with
    | '\x22' :: rest => some ([], rest)
    | '\\' :: rest => do
      let (c, rest) ← escape? rest
      let (more, rest) ← basicTail bound rest
      some (c :: more, rest)
    | c :: rest => do
      if !isText c then none
      let (more, rest) ← basicTail bound rest
      some (c :: more, rest)
    | [] => none

/-- The rest of a string without escapes on one line. -/
def literalTail : Chars → Option (List Char × Chars)
  | '\x27' :: rest => some ([], rest)
  | c :: rest => do
    if !isText c then none
    let (more, rest) ← literalTail rest
    some (c :: more, rest)
  | [] => none

/-- The input past blanks and line breaks. -/
def skipSpace : Chars → Chars
  | ' ' :: rest => skipSpace rest
  | '\t' :: rest => skipSpace rest
  | '\n' :: rest => skipSpace rest
  | '\r' :: '\n' :: rest => skipSpace rest
  | cs => cs

/-- The input past a backslash that ends a line, and past all blanks and line breaks after it. -/
def continuation? (cs : Chars) : Option Chars :=
  match cs.dropWhile isBlank with
  | '\n' :: rest => some (skipSpace rest)
  | '\r' :: '\n' :: rest => some (skipSpace rest)
  | _ => none

/-- The end of a string of several lines: three quotes, and up to two more before them that belong
to the string. -/
def closing? (quote : Char) (cs : Chars) : Option (List Char × Chars) :=
  let run := (cs.takeWhile (· = quote)).length
  if 3 ≤ run ∧ run ≤ 5 then some (List.replicate (run - 3) quote, cs.drop run) else none

/-- The rest of a string of several lines. Line breaks stay as they are. -/
def multilineTail (quote : Char) (hasEscapes : Bool) : Nat → Chars → Option (List Char × Chars)
  | 0, _ => none
  | bound + 1, cs =>
    if [quote, quote, quote].isPrefixOf cs then closing? quote cs
    else match cs with
      | '\n' :: rest => do
        let (more, rest) ← multilineTail quote hasEscapes bound rest
        some ('\n' :: more, rest)
      | '\r' :: '\n' :: rest => do
        let (more, rest) ← multilineTail quote hasEscapes bound rest
        some ('\r' :: '\n' :: more, rest)
      | c :: rest =>
        if c = '\\' ∧ hasEscapes then
          match continuation? rest with
          | some rest => multilineTail quote hasEscapes bound rest
          | none => do
            let (c, rest) ← escape? rest
            let (more, rest) ← multilineTail quote hasEscapes bound rest
            some (c :: more, rest)
        else if !isText c then none
        else do
          let (more, rest) ← multilineTail quote hasEscapes bound rest
          some (c :: more, rest)
      | [] => none

/-- The input past a line break at its very front. -/
def dropLineBreak : Chars → Chars
  | '\n' :: rest => rest
  | '\r' :: '\n' :: rest => rest
  | cs => cs

/-- A string in any of its forms, if the input begins with a quote. -/
def string? (cs : Chars) : Option (String × Chars) := do
  let (text, rest) ← match cs with
    | '\x22' :: '\x22' :: '\x22' :: rest =>
      multilineTail '\x22' true (rest.length + 1) (dropLineBreak rest)
    | '\x27' :: '\x27' :: '\x27' :: rest =>
      multilineTail '\x27' false (rest.length + 1) (dropLineBreak rest)
    | '\x22' :: rest => basicTail (rest.length + 1) rest
    | '\x27' :: rest => literalTail rest
    | _ => none
  some (String.ofList text, rest)

/-! ## Numbers -/

/-- The value of a digit in a base. -/
def digit? (base : Nat) (c : Char) : Option Nat := do
  let d ← hexValue? c
  if d < base then some d else none

/-- A number in a base; single underscores may stand between digits. -/
def digits? (base : Nat) : (value : Nat) → Chars → Option Nat
  | _, [] => none
  | value, [c] => do some (value * base + (← digit? base c))
  | value, c :: '_' :: rest => do digits? base (value * base + (← digit? base c)) rest
  | value, c :: rest => do digits? base (value * base + (← digit? base c)) rest

/-- The input past a sign, and whether the sign was a minus. -/
def sign : Chars → Bool × Chars
  | '-' :: rest => (true, rest)
  | '+' :: rest => (false, rest)
  | cs => (false, cs)

/-- A number in decimal that does not begin with a needless zero. -/
def decimal? : Chars → Option Nat
  | '0' :: _ :: _ => none
  | cs => digits? 10 0 cs

/-- An integer of 64 bits. -/
def integer? (cs : Chars) : Option Int := do
  let n : Int ← match cs with
    | '0' :: 'x' :: rest => (digits? 16 0 rest).map Int.ofNat
    | '0' :: 'o' :: rest => (digits? 8 0 rest).map Int.ofNat
    | '0' :: 'b' :: rest => (digits? 2 0 rest).map Int.ofNat
    | cs =>
      let (negative, rest) := sign cs
      (decimal? rest).map fun n => if negative then -(n : Int) else n
  if -9223372036854775808 ≤ n ∧ n < 9223372036854775808 then some n else none

/-- The parts of a text before and after a character that satisfies a condition. -/
def cut? (ends : Char → Bool) (cs : Chars) : Option (Chars × Chars) :=
  match cs.dropWhile (!ends ·) with
  | [] => none
  | _ :: rest => some (cs.takeWhile (!ends ·), rest)

/-- The decimal, up to its sign, that a word with a fraction or an exponent spells. -/
def fractional? (cs : Chars) : Option Decimal := do
  let (mantissa, exponent) ← match cut? (fun c => c = 'e' || c = 'E') (sign cs).2 with
    | none => some ((sign cs).2, none)
    | some (mantissa, exponent) => do
      let (negative, digits) := sign exponent
      let n ← digits? 10 0 digits
      some (mantissa, some (if negative then -(n : Int) else n))
  match cut? (· = '.') mantissa with
  | some (whole, fraction) =>
    let places := (fraction.filter (· ≠ '_')).length
    some ⟨(← decimal? whole) * Decimal.powerOfTen places + (← digits? 10 0 fraction),
      exponent.getD 0 - places⟩
  | none => some ⟨← decimal? mantissa, ← exponent⟩

/-- The word is a float: a number with a fraction or an exponent, unless it is too large, or one of
the words for what is not finite. -/
def isFloat (cs : Chars) : Bool :=
  (sign cs).2 = ['i', 'n', 'f'] || (sign cs).2 = ['n', 'a', 'n'] ||
    (fractional? cs).any fun d => !d.overflows

/-! ## Points in time -/

/-- A number of exactly so many digits. -/
def fixed? (count : Nat) (cs : Chars) : Option (Nat × Chars) :=
  let word := cs.take count
  if word.length = count ∧ word.all Char.isDigit then
    some (Json.digitsValue word, cs.drop count)
  else none

/-- The number of days in a month. -/
def daysIn (year month : Nat) : Nat :=
  if month = 2 then
    if year % 4 = 0 ∧ (year % 100 ≠ 0 ∨ year % 400 = 0) then 29 else 28
  else if month = 4 ∨ month = 6 ∨ month = 9 ∨ month = 11 then 30
  else 31

/-- The input past a date. -/
def date? (cs : Chars) : Option Chars := do
  let (year, rest) ← fixed? 4 cs
  match rest with
  | '-' :: rest =>
    let (month, rest) ← fixed? 2 rest
    match rest with
    | '-' :: rest =>
      let (day, rest) ← fixed? 2 rest
      if 1 ≤ month ∧ month ≤ 12 ∧ 1 ≤ day ∧ day ≤ daysIn year month then some rest else none
    | _ => none
  | _ => none

/-- The input past a fraction of a second. -/
def fraction? (cs : Chars) : Option Chars :=
  match cs with
  | '.' :: rest =>
    let after := rest.dropWhile Char.isDigit
    if after.length < rest.length then some after else none
  | cs => some cs

/-- The input past a time of day; seconds may be left out. -/
def clock? (cs : Chars) : Option Chars := do
  let (hour, rest) ← fixed? 2 cs
  match rest with
  | ':' :: rest =>
    let (minute, rest) ← fixed? 2 rest
    if 24 ≤ hour ∨ 60 ≤ minute then none
    match rest with
    | ':' :: rest =>
      let (second, rest) ← fixed? 2 rest
      if 61 ≤ second then none
      fraction? rest
    | rest => some rest
  | _ => none

/-- The input past an offset from universal time, if there is one. -/
def offset? (cs : Chars) : Option Chars :=
  match cs with
  | 'Z' :: rest => some rest
  | 'z' :: rest => some rest
  | c :: rest =>
    if c = '+' ∨ c = '-' then do
      let (hour, rest) ← fixed? 2 rest
      match rest with
      | ':' :: rest =>
        let (minute, rest) ← fixed? 2 rest
        if hour < 24 ∧ minute < 60 then some rest else none
      | _ => none
    else some cs
  | [] => some []

/-- The input past a date, with a time of day and an offset if those follow, or past a time of day
alone. A blank may divide date and time if a digit follows it. -/
def time? (cs : Chars) : Option Chars :=
  match date? cs with
  | none => clock? cs
  | some rest => match rest with
    | 'T' :: rest => clock? rest >>= offset?
    | 't' :: rest => clock? rest >>= offset?
    | ' ' :: c :: rest =>
      if c.isDigit then clock? (c :: rest) >>= offset? else some (' ' :: c :: rest)
    | rest => some rest

/-- A fraction of a second without needless zeros; digits after the ninth do not count. -/
def nanoseconds (digits : Chars) : Chars :=
  let kept := ((digits.take 9).reverse.dropWhile (· = '0')).reverse
  if kept.isEmpty then ['0'] else kept

/-- A point in time as it is shown, however it was written: a `T` divides date and time, the letter
for no offset is `Z`, and an offset of no minutes is positive. -/
def timeText (text : String) : String :=
  let cs := text.toList.map fun c =>
    if c = 't' ∨ c = ' ' then 'T' else if c = 'z' then 'Z' else c
  let cs := match cut? (· = '.') cs with
    | some (seconds, rest) =>
      seconds ++ '.' :: nanoseconds (rest.takeWhile Char.isDigit) ++ rest.dropWhile Char.isDigit
    | none => cs
  let cs := match cs.reverse with
    | '0' :: '0' :: ':' :: '0' :: '0' :: '-' :: rest => rest.reverse ++ ['+', '0', '0', ':', '0', '0']
    | _ => cs
  String.ofList cs

/-! ## Words -/

/-- A character of a word. -/
def isWord (c : Char) : Bool :=
  c.isAlphanum || c = '+' || c = '-' || c = '.' || c = ':' || c = '_'

/-- A scalar that is not a string. -/
def word? (cs : Chars) : Option (Node × Chars) :=
  match time? cs with
  | some rest =>
    if rest.head?.all (!isWord ·) then
      some (.time (String.ofList (cs.take (cs.length - rest.length))), rest)
    else none
  | none => do
    let word := cs.takeWhile isWord
    let rest := cs.dropWhile isWord
    if word = ['t', 'r', 'u', 'e'] then some (.boolean true, rest)
    else if word = ['f', 'a', 'l', 's', 'e'] then some (.boolean false, rest)
    else match integer? word with
      | some n => some (.integer n, rest)
      | none => if isFloat word then some (.float (String.ofList word), rest) else none

end SpiritHost.Toml
