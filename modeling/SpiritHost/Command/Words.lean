import SpiritHost.Text.Blank

/-!
# Words of a line

A line is cut into words at spaces. A pair of quotes keeps the spaces inside it; either kind of
quote may be used, and the other kind stands for itself between them. Quotes may begin and end
within a word, and an unclosed one reaches to the end of the line. No word is empty.
-/

namespace SpiritHost.Command

/-- The two quotes. -/
def isQuote (c : Char) : Bool := c = '\x22' || c = '\x27'

/-- A word, unless it is empty. -/
def wordOf : List Char → List (List Char)
  | [] => []
  | word => [word]

/-- The words of what is left of a line, given the open quote and the word begun. -/
def cutWords : Option Char → (begun : List Char) → List Char → List (List Char)
  | _, begun, [] => wordOf begun
  | none, begun, c :: rest =>
    if isQuote c then cutWords (some c) begun rest
    else if c = ' ' then wordOf begun ++ cutWords none [] rest
    else cutWords none (begun ++ [c]) rest
  | some quote, begun, c :: rest =>
    if c = quote then cutWords none begun rest
    else cutWords (some quote) (begun ++ [c]) rest

/-- The words of a line, blanks at whose ends do not count (`parse_quoted_args`). -/
def words (line : String) : List String :=
  (cutWords none [] (Text.trim line.toList)).map String.ofList

/-- A word that is not empty is its own only one. -/
theorem ne_nil_of_mem_wordOf {begun word : List Char} (h : word ∈ wordOf begun) : word ≠ [] := by
  cases begun with
  | nil => simp [wordOf] at h
  | cons => simp only [wordOf, List.mem_singleton] at h; simp [h]

/-- No word is empty. -/
theorem ne_nil_of_mem_cutWords {quote : Option Char} {begun rest word : List Char}
    (h : word ∈ cutWords quote begun rest) : word ≠ [] := by
  fun_induction cutWords quote begun rest with
  | case1 => exact ne_nil_of_mem_wordOf h
  | case2 _ _ _ _ ih => exact ih h
  | case3 _ _ _ ih => exact (List.mem_append.1 h).elim ne_nil_of_mem_wordOf ih
  | case4 _ _ _ _ _ ih => exact ih h
  | case5 _ _ _ ih => exact ih h
  | case6 _ _ _ _ _ ih => exact ih h

end SpiritHost.Command
