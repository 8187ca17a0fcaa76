import SpiritHost.Text.Extending
import SpiritHost.Text.Hidden

/-!
# Quoted text

The form in which names appear inside the one-line descriptions of options, Spirits and séances:
between double quotes, with the quote and the backslash escaped, and with every character shown by
number that could not be seen or would join the character before it.
-/

namespace SpiritHost.Quoted

/-- Lower-case hexadecimal digits of a number. -/
def hex (n : Nat) : String := String.ofList (Nat.toDigits 16 n)

/-- Characters that a reader would not see as they are. Letters and marks of ASCII are clear, and
so is the space. -/
def isUnclear (c : Char) : Bool :=
  if ' ' ≤ c ∧ c ≤ '~' then false else Text.isHidden c || Text.isExtending c

/-- One character between quotes. -/
def escape (c : Char) : String :=
  match c with
  | '\x22' => "\\\""
  | '\\' => "\\\\"
  | '\n' => "\\n"
  | '\r' => "\\r"
  | '\t' => "\\t"
  | '\x00' => "\\0"
  | c => if isUnclear c then "\\u\x7b" ++ hex c.toNat ++ "\x7d" else c.toString

/-- A text between double quotes. -/
def encode (text : String) : String :=
  "\"" ++ String.join (text.toList.map escape) ++ "\""

/-- Quoted texts between brackets. -/
def list (texts : List String) : String :=
  "[" ++ String.intercalate ", " (texts.map encode) ++ "]"

end SpiritHost.Quoted
