import SpiritHost.Text.Ranges

/-!
# White space

Characters with the property `White_Space`, and texts without them at their ends. The class holds
every character that core counts as white space.
-/

namespace SpiritHost.Text

/-- The property `White_Space`. -/
def blankRanges : Ranges :=
  [(0x09, 0x0D), (0x20, 0x20), (0x85, 0x85), (0xA0, 0xA0), (0x1680, 0x1680), (0x2000, 0x200A),
    (0x2028, 0x2029), (0x202F, 0x202F), (0x205F, 0x205F), (0x3000, 0x3000)]

/-- White space. -/
def isBlank (c : Char) : Bool := blankRanges.contains c

/-- Characters without the blanks at both ends. -/
def trim (cs : List Char) : List Char :=
  ((cs.dropWhile isBlank).reverse.dropWhile isBlank).reverse

/-- What core counts as white space is blank. -/
theorem isBlank_of_isWhitespace {c : Char} (h : c.isWhitespace = true) : isBlank c = true := by
  simp only [Char.isWhitespace, Bool.or_eq_true, decide_eq_true_eq] at h
  rcases h with ((h | h) | h) | h <;> subst h <;> decide

/-- A text of blanks is trimmed to nothing. -/
theorem trim_eq_nil {cs : List Char} (h : ∀ c ∈ cs, isBlank c = true) : trim cs = [] := by
  have none_left : cs.dropWhile isBlank = [] := by
    induction cs with
    | nil => rfl
    | cons c rest ih => simp_all
  simp [trim, none_left]

/-- A text that neither begins nor ends with a blank stays itself. -/
theorem trim_eq_self {cs : List Char} (first : cs.dropWhile isBlank = cs)
    (last : cs.reverse.dropWhile isBlank = cs.reverse) : trim cs = cs := by
  simp [trim, first, last]

end SpiritHost.Text
