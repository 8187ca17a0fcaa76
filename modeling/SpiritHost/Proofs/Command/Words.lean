import Mathlib.Data.List.Basic
import SpiritHost.Command.Words

/-!
# Words and quotes

Cutting a line into words undoes quoting. A line that spells words, each bare or between quotes of
a kind that it does not have, is cut into them (`cutWords_of_joined`). Whatever the line, its words
one after the other are what is left of it without its quotes and the spaces outside them. Which
characters those are is said by a grammar of lines (`Unquotes`), by which every line has exactly one
reading (`unquotes_iff`).
-/

namespace SpiritHost.Command

open Text (isBlank trim)

variable {cs front middle back : List Char}

/-! ## Blanks at the ends -/

/-- The text neither begins nor ends with a blank. -/
structure Firm (cs : List Char) : Prop where
  first : ∀ c ∈ cs.head?, isBlank c = false
  last : ∀ c ∈ cs.getLast?, isBlank c = false

theorem Firm.around (hfront : Firm front) (hback : Firm back) (hfirst : front ≠ [])
    (hlast : back ≠ []) : Firm (front ++ middle ++ back) := by
  constructor
  · rw [List.append_assoc, List.head?_append_of_ne_nil _ hfirst]
    exact hfront.first
  · rw [List.getLast?_append_of_ne_nil _ hlast]
    exact hback.last

theorem dropWhile_eq_of_head? (h : ∀ c ∈ cs.head?, isBlank c = false) :
    cs.dropWhile isBlank = cs := by
  cases cs with
  | nil => rfl
  | cons c rest =>
    have hc : isBlank c = false := h c rfl
    exact List.dropWhile_cons_of_neg (by simp [hc])

theorem exists_blank_front : ∀ cs : List Char, ∃ front rest, cs = front ++ rest ∧
    (∀ c ∈ front, isBlank c = true) ∧ ∀ c ∈ rest.head?, isBlank c = false
  | [] => ⟨[], [], rfl, nofun, nofun⟩
  | c :: cs => by
    cases hc : isBlank c with
    | false => exact ⟨[], c :: cs, rfl, nofun, fun d hd => Option.some.inj hd ▸ hc⟩
    | true =>
      obtain ⟨front, rest, rfl, hfront, hrest⟩ := exists_blank_front cs
      exact ⟨c :: front, rest, rfl, List.forall_mem_cons.2 ⟨hc, hfront⟩, hrest⟩

/-- A line is a text without blanks at its ends, and blanks around it. -/
theorem exists_firm (cs : List Char) : ∃ front middle back, cs = front ++ middle ++ back ∧
    (∀ c ∈ front ++ back, isBlank c = true) ∧ Firm middle := by
  obtain ⟨front, rest, rfl, hfront, hfirst⟩ := exists_blank_front cs
  obtain ⟨back, middle, hrest, hback, hlast⟩ := exists_blank_front rest.reverse
  obtain rfl : rest = middle.reverse ++ back.reverse := by
    rw [← List.reverse_append, ← hrest, List.reverse_reverse]
  refine ⟨front, middle.reverse, back.reverse, (List.append_assoc ..).symm, ?_, ?_, ?_⟩
  · intro c hc
    rcases List.mem_append.1 hc with hc | hc
    · exact hfront c hc
    · exact hback c (List.mem_reverse.1 hc)
  · intro c hc
    exact hfirst c (List.mem_head?_append_of_mem_head? hc)
  · intro c hc
    rw [List.getLast?_reverse] at hc
    exact hlast c hc

/-- Trimming takes away the blanks at the ends. -/
theorem trim_of_firm (hblank : ∀ c ∈ front ++ back, isBlank c = true) (h : Firm middle) :
    trim (front ++ middle ++ back) = middle := by
  have hback : ∀ c ∈ back.reverse, isBlank c = true := fun c hc =>
    hblank c (List.mem_append_right _ (List.mem_reverse.1 hc))
  by_cases hmiddle : middle = []
  · subst hmiddle
    rw [List.append_nil]
    exact Text.trim_eq_nil hblank
  · have hfirst : (front ++ middle ++ back).dropWhile isBlank = middle ++ back := by
      rw [List.append_assoc,
        List.dropWhile_append_of_pos fun c hc => hblank c (List.mem_append_left _ hc)]
      refine dropWhile_eq_of_head? ?_
      rw [List.head?_append_of_ne_nil _ hmiddle]
      exact h.first
    have hlast : (middle ++ back).reverse.dropWhile isBlank = middle.reverse := by
      rw [List.reverse_append, List.dropWhile_append_of_pos hback]
      refine dropWhile_eq_of_head? ?_
      rw [List.head?_reverse]
      exact h.last
    rw [trim, hfirst, hlast, List.reverse_reverse]

/-! ## Stretches of a line -/

variable {q : Char} {word begun rest text : List Char}

theorem wordOf_of_ne_nil : ∀ {word : List Char}, word ≠ [] → wordOf word = [word]
  | [], h => absurd rfl h
  | _ :: _, _ => rfl

theorem flatten_wordOf : ∀ word : List Char, (wordOf word).flatten = word
  | [] => rfl
  | _ :: _ => List.flatten_singleton

/-- An open quote that is closed. -/
theorem cutWords_closed : ∀ {body : List Char} (begun rest : List Char), q ∉ body →
    cutWords (some q) begun (body ++ q :: rest) = cutWords none (begun ++ body) rest
  | [], begun, rest, _ => by
    rw [List.nil_append, cutWords, if_pos rfl, List.append_nil]
  | c :: body, begun, rest, h => by
    obtain ⟨hc, hbody⟩ := List.ne_and_not_mem_of_not_mem_cons h
    rw [List.cons_append, cutWords, if_neg (Ne.symm hc), cutWords_closed _ _ hbody,
      List.append_assoc, List.singleton_append]

/-- An open quote that reaches to the end of the line. -/
theorem cutWords_unclosed : ∀ {body : List Char} (begun : List Char), q ∉ body →
    cutWords (some q) begun body = wordOf (begun ++ body)
  | [], begun, _ => by
    rw [cutWords, List.append_nil]
  | c :: body, begun, h => by
    obtain ⟨hc, hbody⟩ := List.ne_and_not_mem_of_not_mem_cons h
    rw [cutWords, if_neg (Ne.symm hc), cutWords_unclosed _ hbody, List.append_assoc,
      List.singleton_append]

/-- What stands between quotes goes on the word begun. -/
theorem cutWords_quoted (begun rest : List Char) (hq : isQuote q = true) (h : q ∉ word) :
    cutWords none begun (q :: word ++ q :: rest) = cutWords none (begun ++ word) rest := by
  rw [List.cons_append, cutWords, if_pos hq, cutWords_closed begun rest h]

/-- So do characters that are neither quotes nor spaces. -/
theorem cutWords_plain : ∀ {word : List Char} (begun rest : List Char),
    (∀ c ∈ word, isQuote c = false ∧ c ≠ ' ') →
      cutWords none begun (word ++ rest) = cutWords none (begun ++ word) rest
  | [], begun, rest, _ => by
    rw [List.nil_append, List.append_nil]
  | c :: word, begun, rest, h => by
    obtain ⟨hquote, hspace⟩ := h c List.mem_cons_self
    rw [List.cons_append, cutWords, if_neg (by simp [hquote]), if_neg hspace,
      cutWords_plain _ _ fun x hx => h x (List.mem_cons_of_mem c hx), List.append_assoc,
      List.singleton_append]

/-- A space ends the word begun. -/
theorem cutWords_space (begun rest : List Char) :
    cutWords none begun (' ' :: rest) = wordOf begun ++ cutWords none [] rest := by
  rw [cutWords, if_neg (by decide), if_pos rfl]

/-! ## What is left of a line -/

/-- A line and what is left of it without its quotes and the spaces outside them. A quote that is
not closed reaches to the end. -/
inductive Unquotes : List Char → List Char → Prop
  | nil : Unquotes [] []
  | plain {c : Char} {rest text : List Char} (quote : isQuote c = false) (space : c ≠ ' ')
      (later : Unquotes rest text) : Unquotes (c :: rest) (c :: text)
  | space {rest text : List Char} (later : Unquotes rest text) : Unquotes (' ' :: rest) text
  | quoted {q : Char} {body rest text : List Char} (quote : isQuote q = true) (inside : q ∉ body)
      (later : Unquotes rest text) : Unquotes (q :: body ++ q :: rest) (body ++ text)
  | unclosed {q : Char} {body : List Char} (quote : isQuote q = true) (inside : q ∉ body) :
      Unquotes (q :: body) body

/-- What is left of a line is its words, one after the other. -/
theorem Unquotes.flatten_cutWords (h : Unquotes cs text) : ∀ begun : List Char,
    (cutWords none begun cs).flatten = begun ++ text := by
  induction h with
  | nil =>
    intro begun
    rw [cutWords, flatten_wordOf, List.append_nil]
  | @plain c rest text quote space later ih =>
    intro begun
    rw [cutWords, if_neg (by simp [quote]), if_neg space, ih, List.append_assoc,
      List.singleton_append]
  | space later ih =>
    intro begun
    rw [cutWords_space, List.flatten_append, flatten_wordOf, ih, List.nil_append]
  | quoted quote inside later ih =>
    intro begun
    rw [cutWords_quoted _ _ quote inside, ih, List.append_assoc]
  | unclosed quote inside =>
    intro begun
    rw [cutWords, if_pos quote, cutWords_unclosed _ inside, flatten_wordOf]

/-- Every line can be read. -/
theorem exists_unquotes : ∀ cs : List Char, ∃ text, Unquotes cs text
  | [] => ⟨[], .nil⟩
  | c :: rest => by
    by_cases hquote : isQuote c = true
    · by_cases hclosed : c ∈ rest
      · obtain ⟨body, later, hsplit, hbody⟩ := List.eq_append_cons_of_mem hclosed
        have hshorter : later.length < (c :: rest).length := by
          rw [hsplit, List.length_cons, List.length_append, List.length_cons]
          omega
        obtain ⟨text, htext⟩ := exists_unquotes later
        rw [hsplit]
        exact ⟨body ++ text, .quoted hquote hbody htext⟩
      · exact ⟨rest, .unclosed hquote hclosed⟩
    · obtain ⟨text, htext⟩ := exists_unquotes rest
      by_cases hspace : c = ' '
      · subst hspace
        exact ⟨text, .space htext⟩
      · exact ⟨c :: text, .plain (Bool.not_eq_true _ ▸ hquote) hspace htext⟩
termination_by cs => cs.length

/-- **One reading.** What is left of a line is settled, and it is the words of the line. -/
theorem unquotes_iff : Unquotes cs text ↔ text = (cutWords none [] cs).flatten := by
  constructor
  · intro h
    exact (h.flatten_cutWords []).symm
  · rintro rfl
    obtain ⟨text, h⟩ := exists_unquotes cs
    rw [h.flatten_cutWords []]
    exact h

/-! ## Lines that spell words -/

/-- A word as it may be written: bare, or between quotes of a kind that it does not have. -/
inductive Spelled : List Char → List Char → Prop
  | bare {word : List Char} (plain : ∀ c ∈ word, isQuote c = false ∧ c ≠ ' ') (firm : Firm word) :
      Spelled word word
  | quoted {q : Char} {word : List Char} (quote : isQuote q = true) (inside : q ∉ word) :
      Spelled word (q :: word ++ [q])

/-- Words as they may be written, with one or more spaces between them. -/
inductive Joined : List (List Char) → List Char → Prop
  | nil : Joined [] []
  | one {word text : List Char} (spelled : Spelled word text) : Joined [word] text
  | more {word text next : List Char} {words : List (List Char)} {rest : List Char} (gap : Nat)
      (spelled : Spelled word text) (later : Joined (next :: words) rest) :
      Joined (word :: next :: words) (text ++ List.replicate (gap + 1) ' ' ++ rest)

/-- A line spells words if it consists of them and of blanks at its ends. -/
def Spells (line : List Char) (words : List (List Char)) : Prop :=
  ∃ front middle back, line = front ++ middle ++ back ∧
    (∀ c ∈ front ++ back, isBlank c = true) ∧ Joined words middle

theorem isBlank_of_isQuote (h : isQuote q = true) : isBlank q = false := by
  have hcases : q = '\x22' ∨ q = '\x27' := by simpa [isQuote] using h
  rcases hcases with rfl | rfl <;> decide

theorem Spelled.cutWords_eq (h : Spelled word text) (begun rest : List Char) :
    cutWords none begun (text ++ rest) = cutWords none (begun ++ word) rest := by
  cases h with
  | bare plain => exact cutWords_plain begun rest plain
  | quoted quote inside =>
    rw [List.append_assoc, List.singleton_append]
    exact cutWords_quoted begun rest quote inside

theorem Spelled.firm (h : Spelled word text) (hword : word ≠ []) : Firm text ∧ text ≠ [] := by
  cases h with
  | bare _ firm => exact ⟨firm, hword⟩
  | @quoted q _ quote inside =>
    have hquote : Firm [q] := by
      constructor <;> exact fun c hc => Option.some.inj hc ▸ isBlank_of_isQuote quote
    refine ⟨?_, List.cons_ne_nil _ _⟩
    exact hquote.around hquote (List.cons_ne_nil _ _) (List.cons_ne_nil _ _)

theorem cutWords_gap (begun rest : List Char) : ∀ gap : Nat,
    cutWords none begun (List.replicate (gap + 1) ' ' ++ rest) =
      wordOf begun ++ cutWords none [] rest
  | 0 => cutWords_space begun rest
  | gap + 1 => by
    rw [List.replicate_succ, List.cons_append, cutWords_space, cutWords_gap [] rest gap]
    rfl

/-- Words that are joined are found again. -/
theorem cutWords_of_joined {words : List (List Char)} (h : Joined words cs) (hwords : [] ∉ words) :
    cutWords none [] cs = words := by
  induction h with
  | nil => rfl
  | @one word text spelled =>
    have hword : word ≠ [] := fun hnil => hwords (hnil ▸ List.mem_cons_self)
    have hcut := spelled.cutWords_eq [] []
    rw [List.append_nil, List.nil_append] at hcut
    rw [hcut, cutWords, wordOf_of_ne_nil hword]
  | @more word text next words rest gap spelled later ih =>
    have hword : word ≠ [] := fun hnil => hwords (hnil ▸ List.mem_cons_self)
    have hlater := ih fun hnil => hwords (List.mem_cons_of_mem word hnil)
    rw [List.append_assoc, spelled.cutWords_eq, List.nil_append, cutWords_gap, hlater,
      wordOf_of_ne_nil hword]
    rfl

theorem firm_of_joined {words : List (List Char)} (h : Joined words cs) (hwords : [] ∉ words) :
    Firm cs ∧ (words ≠ [] → cs ≠ []) := by
  induction h with
  | nil => exact ⟨⟨nofun, nofun⟩, fun h => absurd rfl h⟩
  | @one word text spelled =>
    obtain ⟨hfirm, htext⟩ := spelled.firm fun hnil => hwords (hnil ▸ List.mem_cons_self)
    exact ⟨hfirm, fun _ => htext⟩
  | @more word text next words rest gap spelled later ih =>
    obtain ⟨hfirm, htext⟩ := spelled.firm fun hnil => hwords (hnil ▸ List.mem_cons_self)
    obtain ⟨hlater, hrest⟩ := ih fun hnil => hwords (List.mem_cons_of_mem word hnil)
    refine ⟨hfirm.around hlater htext (hrest (List.cons_ne_nil _ _)), fun _ => ?_⟩
    simp [htext]

/-- **Spelling.** A line that spells words is cut into them. -/
theorem words_of_spells {line : String} {wanted : List String}
    (h : Spells line.toList (wanted.map String.toList)) (hwanted : "" ∉ wanted) :
    words line = wanted := by
  have hempty : [] ∉ wanted.map String.toList := by
    intro hmem
    obtain ⟨word, hword, hnil⟩ := List.mem_map.1 hmem
    rw [String.toList_eq_nil_iff] at hnil
    exact hwanted (hnil ▸ hword)
  obtain ⟨front, middle, back, hline, hblank, hjoined⟩ := h
  rw [words, hline, trim_of_firm hblank (firm_of_joined hjoined hempty).1,
    cutWords_of_joined hjoined hempty, List.map_map]
  simp

/-! ## Any line -/

/-- How a line and the words that it is cut into belong together. -/
structure Cut (line : String) (found : List String) : Prop where
  /-- If the line spells words, these are the ones. -/
  spelled : ∀ wanted, "" ∉ wanted → Spells line.toList (wanted.map String.toList) → found = wanted
  nonempty : "" ∉ found
  /-- One after the other they are what is left of the line without the blanks at its ends, its
  quotes and the spaces outside them. -/
  joined : ∃ front middle back, line.toList = front ++ middle ++ back ∧
    (∀ c ∈ front ++ back, isBlank c = true) ∧ Firm middle ∧
      ∀ text, Unquotes middle text ↔ text = found.flatMap String.toList

/-- **Words.** Cutting a line into words undoes quoting and takes nothing else away. -/
theorem words_cut (line : String) : Cut line (words line) := by
  refine ⟨fun wanted hwanted h => words_of_spells h hwanted, ?_, ?_⟩
  · intro hmem
    obtain ⟨word, hword, hempty⟩ := List.mem_map.1 hmem
    rw [String.ofList_eq_empty_iff] at hempty
    exact ne_nil_of_mem_cutWords hword hempty
  · obtain ⟨front, middle, back, hline, hblank, hfirm⟩ := exists_firm line.toList
    refine ⟨front, middle, back, hline, hblank, hfirm, fun text => ?_⟩
    have hwords : (words line).flatMap String.toList = (cutWords none [] middle).flatten := by
      rw [words, hline, trim_of_firm hblank hfirm, List.flatMap_map]
      simp [List.flatMap]
    rw [hwords]
    exact unquotes_iff

theorem words_cut_mixed :
    Spells "  say 'it is'   \"don't\"\t".toList (["say", "it is", "don't"].map String.toList) ∧
      words "  say 'it is'   \"don't\"\t" = ["say", "it is", "don't"] := by
  have hplain : ∀ c ∈ "say".toList, isQuote c = false ∧ c ≠ ' ' := by simp [isQuote]
  have hfirm : Firm "say".toList := by
    have hs : isBlank 's' = false := by decide
    have hy : isBlank 'y' = false := by decide
    exact ⟨by simpa using hs, by simpa using hy⟩
  have hsingle : Spelled "it is".toList "'it is'".toList :=
    .quoted (q := '\x27') (by decide) (by decide +kernel)
  have hdouble : Spelled "don't".toList "\"don't\"".toList :=
    .quoted (q := '\x22') (by decide) (by decide +kernel)
  have hblank : ∀ c ∈ [' ', ' '] ++ ['\t'], isBlank c = true := by
    have hspace : isBlank ' ' = true := by decide
    have htab : isBlank '\t' = true := by decide
    simpa using And.intro hspace htab
  have hspells : Spells "  say 'it is'   \"don't\"\t".toList
      (["say", "it is", "don't"].map String.toList) :=
    ⟨[' ', ' '], _, ['\t'], by rfl, hblank,
      .more 0 (.bare hplain hfirm) (.more 2 hsingle (.one hdouble))⟩
  exact ⟨hspells, (words_cut _).spelled _ (by decide) hspells⟩

end SpiritHost.Command
