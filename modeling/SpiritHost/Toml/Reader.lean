import SpiritHost.Toml.Scalar

/-!
# Reading configuration files

A file is a sequence of lines: settings, which go into the table opened last, and headers, which
open tables. Anything that is not of this form, sets a key twice or nests too deeply makes the whole
text malformed. A finished file has its keys in order.
-/

namespace SpiritHost.Toml

open Json (Chars)

/-- The input past blanks. -/
def skipBlanks (cs : Chars) : Chars := cs.dropWhile isBlank

/-- The input past blanks, line breaks and comments; fails on a comment with control characters. -/
def skipLines? : (inComment : Bool) → Chars → Option Chars
  | false, ' ' :: rest => skipLines? false rest
  | false, '\t' :: rest => skipLines? false rest
  | _, '\n' :: rest => skipLines? false rest
  | _, '\r' :: '\n' :: rest => skipLines? false rest
  | false, '#' :: rest => skipLines? true rest
  | true, c :: rest => if isText c then skipLines? true rest else none
  | true, [] => some []
  | false, cs => some cs

/-- The input past the end of a line: blanks, perhaps a comment, and a line break or the end. -/
def lineEnd? (cs : Chars) : Option Chars :=
  match skipBlanks cs with
  | [] => some []
  | '\n' :: rest => some rest
  | '\r' :: '\n' :: rest => some rest
  | '#' :: rest =>
    match rest.dropWhile isText with
    | [] => some []
    | '\n' :: rest => some rest
    | '\r' :: '\n' :: rest => some rest
    | _ => none
  | _ => none

/-! ## Keys -/

/-- How deep values may nest, and how many parts a key may have. -/
def maxDepth : Nat := 80

/-- A character of a bare key. -/
def isKey (c : Char) : Bool := c.isAlphanum || c = '_' || c = '-'

/-- One part of a key: bare, or a string on one line. -/
def keyPart? (cs : Chars) : Option (String × Chars) :=
  match cs with
  | '\x22' :: rest => (basicTail (rest.length + 1) rest).map fun (k, r) => (String.ofList k, r)
  | '\x27' :: rest => (literalTail rest).map fun (k, r) => (String.ofList k, r)
  | cs =>
    let key := cs.takeWhile isKey
    if key.isEmpty then none else some (String.ofList key, cs.dropWhile isKey)

/-- A key of at most so many parts, as the ones before the last and the last one. Blanks may stand
around its dots. -/
def keyUpTo? : Nat → Chars → Option ((List String × String) × Chars)
  | 0, _ => none
  | bound + 1, cs => do
    let (part, rest) ← keyPart? (skipBlanks cs)
    match skipBlanks rest with
    | '.' :: rest =>
      let ((path, last), rest) ← keyUpTo? bound rest
      some ((part :: path, last), rest)
    | rest => some (([], part), rest)

/-- A key. -/
def key? (cs : Chars) : Option ((List String × String) × Chars) := keyUpTo? maxDepth cs

/-! ## Values -/

mutual

/-- A value that nests at most so deep. Each step reads a character, so the bound need not exceed
the input's length. -/
def value? : Nat → (depth : Nat) → Chars → Option (Node × Chars)
  | 0, _, _ => none
  | bound + 1, depth, cs => match cs with
    | '[' :: rest => match depth with
      | 0 => none
      | depth + 1 => do
        let (items, rest) ← items? bound depth rest
        some (.array items, rest)
    | '\x7b' :: rest => match depth with
      | 0 => none
      | depth + 1 => do
        let (entries, rest) ← settings? bound depth (.header, []) rest
        some (.table .inline entries, rest)
    | '\x22' :: _ | '\x27' :: _ => do
      let (text, rest) ← string? cs
      some (.string text, rest)
    | cs => word? cs

/-- The items of an array up to its closing bracket. -/
def items? : Nat → (depth : Nat) → Chars → Option (List Node × Chars)
  | 0, _, _ => none
  | bound + 1, depth, cs => do
    match ← skipLines? false cs with
    | ']' :: rest => some ([], rest)
    | cs =>
      let (item, rest) ← value? bound depth cs
      match ← skipLines? false rest with
      | ']' :: rest => some ([item], rest)
      | ',' :: rest =>
        let (more, rest) ← items? bound depth rest
        some (item :: more, rest)
      | _ => none

/-- The settings of a table in braces, up to the closing one. They need not stand on one line. -/
def settings? : Nat → (depth : Nat) → Table → Chars → Option (List (String × Node) × Chars)
  | 0, _, _, _ => none
  | bound + 1, depth, t, cs => do
    match ← skipLines? false cs with
    | '\x7d' :: rest => some (t.2, rest)
    | cs =>
      let ((path, key), rest) ← key? cs
      match ← skipLines? false rest with
      | '=' :: rest =>
        let (node, rest) ← value? bound depth (← skipLines? false rest)
        let t ← t.insert path key node
        match ← skipLines? false rest with
        | '\x7d' :: rest => some (t.2, rest)
        | ',' :: rest => settings? bound depth t rest
        | _ => none
      | _ => none

end

/-! ## Documents -/

/-- A file read so far: its table, and the path to the table opened last. -/
structure Progress where
  root : Table
  current : List String

/-- Before the first line. -/
def Progress.start : Progress := ⟨(.header, []), []⟩

/-- Reads a header or a setting, up to the end of its line. -/
def Progress.line? (p : Progress) (cs : Chars) : Option (Progress × Chars) :=
  match cs with
  | '[' :: '[' :: rest => do
    let ((path, key), rest) ← key? rest
    match rest with
    | ']' :: ']' :: rest =>
      let root ← p.root.openRepeated path key
      some (⟨root, path ++ [key]⟩, ← lineEnd? rest)
    | _ => none
  | '[' :: rest => do
    let ((path, key), rest) ← key? rest
    match rest with
    | ']' :: rest =>
      let root ← p.root.openHeader path key
      some (⟨root, path ++ [key]⟩, ← lineEnd? rest)
    | _ => none
  | cs => do
    let ((path, key), rest) ← key? cs
    match rest with
    | '=' :: rest =>
      let (node, rest) ← value? (rest.length + 1) maxDepth (skipBlanks rest)
      let root ← p.root.update false (·.insert path key node) p.current
      some ({ p with root }, ← lineEnd? rest)
    | _ => none

/-- Reads lines to the end; each takes a character at least, so a bound on the input's length
bounds the recursion. -/
def Progress.lines? : Nat → Progress → Chars → Option Progress
  | 0, _, _ => none
  | bound + 1, p, cs => do
    match ← skipLines? false cs with
    | [] => some p
    | cs =>
      let (p, rest) ← p.line? cs
      lines? bound p rest

/-! ## Finishing -/

/-- Entries with one more in the order of the keys. -/
def insertEntry (key : String) (value : Value) : List (String × Value) → List (String × Value)
  | [] => [(key, value)]
  | (k, v) :: rest =>
    if key < k then (key, value) :: (k, v) :: rest else (k, v) :: insertEntry key value rest

/-- The key that makes a table stand for a point in time. -/
def timeKey : String := "$__toml_private_datetime"

/-- The value of a table with the given entries in order. If the first key is the one for points in
time, it must have one as its text, and the other entries do not count. -/
def tableOf? : List (String × Value) → Option Value
  | (key, value) :: rest =>
    if key = timeKey then
      match value with
      | .string text => if time? text.toList = some [] then some (.time text) else none
      | _ => none
    else some (.table ((key, value) :: rest))
  | [] => some (.table [])

mutual

/-- The finished value of a node. -/
def Node.finish? : Node → Option Value
  | .string text => some (.string text)
  | .integer value => some (.integer value)
  | .float text => some (.float text)
  | .boolean value => some (.boolean value)
  | .time text => some (.time text)
  | .array items => do some (.array (← Node.finishAll? items))
  | .table _ entries => do tableOf? (← Node.finishEntries? entries)
  | .tables (_, entries) earlier => do
    let newest ← tableOf? (← Node.finishEntries? entries)
    some (.array ((← Node.finishAll? earlier).reverse ++ [newest]))

/-- The finished values of nodes. -/
def Node.finishAll? : List Node → Option (List Value)
  | [] => some []
  | node :: rest => do some ((← node.finish?) :: (← Node.finishAll? rest))

/-- The finished entries of a table, sorted by key. -/
def Node.finishEntries? : List (String × Node) → Option (List (String × Value))
  | [] => some []
  | (key, node) :: rest => do some (insertEntry key (← node.finish?) (← Node.finishEntries? rest))

end

/-- The mark that some editors put at the front of a text. -/
def byteOrderMark : Char := '\uFEFF'

/-- The entries of a configuration file, sorted by key. -/
def parse? (text : String) : Option (List (String × Value)) := do
  let cs := match text.toList with
    | c :: rest => if c = byteOrderMark then rest else c :: rest
    | [] => []
  let p ← Progress.start.lines? (cs.length + 1) cs
  Node.finishEntries? p.root.2

end SpiritHost.Toml
