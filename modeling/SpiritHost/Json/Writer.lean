import SpiritHost.Json.Value

/-!
# Writing JSON

The compact form has no blanks; the pretty form puts each item on a line of its own, two spaces
deeper than what holds it.
-/

namespace SpiritHost.Json

/-- Floats are positional from `0.00001` up to sixteen whole digits. -/
def floatStyle : Decimal.Style := ⟨-5, 16⟩

/-- A number. -/
def Number.write : Number → String
  | .int n => toString n
  | .float bits => (floatStyle.writeBits? bits).getD "null"

/-- A digit of a four-digit escape. -/
def hexDigit (n : Nat) : Char := Nat.digitChar (n % 16)

/-- One character of a string. -/
def escape (c : Char) : String :=
  match c with
  | '\x22' => "\\\""
  | '\\' => "\\\\"
  | '\x08' => "\\b"
  | '\x0c' => "\\f"
  | '\n' => "\\n"
  | '\r' => "\\r"
  | '\t' => "\\t"
  | c =>
    if c.val < 0x20 then
      String.ofList ['\\', 'u', '0', '0', hexDigit (c.toNat / 16), hexDigit c.toNat]
    else c.toString

/-- A string between quotes. -/
def quote (text : String) : String :=
  "\"" ++ String.join (text.toList.map escape) ++ "\""

mutual

/-- The compact form. -/
def compact : Json → String
  | null => "null"
  | bool b => if b then "true" else "false"
  | number n => n.write
  | string s => quote s
  | array items => "[" ++ ",".intercalate (compactItems items) ++ "]"
  | object members => "\x7b" ++ ",".intercalate (compactMembers members) ++ "\x7d"

/-- Array items in compact form. -/
def compactItems : List Json → List String
  | [] => []
  | item :: rest => item.compact :: compactItems rest

/-- Object members in compact form. -/
def compactMembers : List (String × Json) → List String
  | [] => []
  | (key, value) :: rest => (quote key ++ ":" ++ value.compact) :: compactMembers rest

end

/-- A line break and the indentation of the given depth. -/
def newline (depth : Nat) : String := "\n" ++ String.ofList (List.replicate (2 * depth) ' ')

/-- Items on lines of their own between brackets; nothing between them if there are none. -/
def spread (opening closing : String) (depth : Nat) (items : List String) : String :=
  if items.isEmpty then opening ++ closing
  else
    opening ++ ",".intercalate (items.map (newline (depth + 1) ++ ·)) ++ newline depth ++ closing

mutual

/-- The pretty form at a depth. -/
def prettyAt (depth : Nat) : Json → String
  | null => "null"
  | bool b => if b then "true" else "false"
  | number n => n.write
  | string s => quote s
  | array items => spread "[" "]" depth (prettyItems (depth + 1) items)
  | object members => spread "\x7b" "\x7d" depth (prettyMembers (depth + 1) members)

/-- Array items in pretty form. -/
def prettyItems (depth : Nat) : List Json → List String
  | [] => []
  | item :: rest => item.prettyAt depth :: prettyItems depth rest

/-- Object members in pretty form. -/
def prettyMembers (depth : Nat) : List (String × Json) → List String
  | [] => []
  | (key, value) :: rest =>
    (quote key ++ ": " ++ value.prettyAt depth) :: prettyMembers depth rest

end

/-- The pretty form. -/
def pretty (value : Json) : String := value.prettyAt 0

end SpiritHost.Json
