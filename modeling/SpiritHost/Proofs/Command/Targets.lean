import Mathlib.Data.List.TakeDrop
import Mathlib.Data.List.TakeWhile
import SpiritHost.Command.Session
import SpiritHost.Proofs.Command.Words
import SpiritHost.Proofs.Seance.Standing
import SpiritHost.Proofs.Spirit.Load

/-!
# Targets

A session lists the functions of its Spirits by their targets, and a call is asked for by one. A
target is cut at its first dot, so it names the Spirit and the function that it was made of exactly if
there is no dot in the Spirit's name (`Session.splitTarget?_target_iff`). A manifest may give a Spirit
a name with a dot: it is listed, and what is listed cannot be called (`Session.listed_not_called`).
-/

namespace SpiritHost.Command.Session

variable {s t : Seance} {name function : String} {loader : Loader} {world : World}
  {manifests : List String}

/-! ## Cutting -/

theorem toList_target (name function : String) :
    (target name function).toList = name.toList ++ '.' :: function.toList := by
  simp [target]

/-- Characters are divided at the first dot. -/
theorem span_of_dot {front back : List Char} (h : '.' ∉ front) :
    (front ++ '.' :: back).span (· ≠ '.') = (front, '.' :: back) := by
  have hfront : ∀ c ∈ front, decide (c ≠ '.') = true := by
    rintro c hc
    exact decide_eq_true fun hdot => h (hdot ▸ hc)
  rw [List.span_eq_takeWhile_dropWhile, List.takeWhile_append_of_pos hfront,
    List.dropWhile_append_of_pos hfront]
  simp

theorem splitTarget?_target (function : String) (h : '.' ∉ name.toList) :
    splitTarget? (target name function) = some (name, function) := by
  rw [splitTarget?, toList_target, span_of_dot h]
  simp

/-- What a target is cut into makes it up again, and the first of the two has no dot. -/
theorem exists_splitTarget? (name function : String) : ∃ first rest, '.' ∉ first.toList ∧
    target first rest = target name function ∧
      splitTarget? (target name function) = some (first, rest) := by
  have hdot : '.' ∈ (target name function).toList := by simp [toList_target]
  obtain ⟨front, back, htext, hfront⟩ := List.eq_append_cons_of_mem hdot
  have hfirst : '.' ∉ (String.ofList front).toList := by rwa [String.toList_ofList]
  have htarget : target (String.ofList front) (String.ofList back) = target name function := by
    rw [← String.toList_inj, toList_target, htext, String.toList_ofList, String.toList_ofList]
  refine ⟨_, _, hfirst, htarget, ?_⟩
  rw [← htarget]
  exact splitTarget?_target _ hfirst

theorem splitTarget?_target_iff :
    splitTarget? (target name function) = some (name, function) ↔ '.' ∉ name.toList := by
  refine ⟨fun h => ?_, splitTarget?_target function⟩
  obtain ⟨first, rest, hfirst, -, hcut⟩ := exists_splitTarget? name function
  rw [h] at hcut
  cases hcut
  exact hfirst

/-- Without dots in the names, different functions have different targets. -/
theorem target_inj {other f : String} (hname : '.' ∉ name.toList) (hother : '.' ∉ other.toList)
    (h : target name function = target other f) : name = other ∧ function = f := by
  have hcut := splitTarget?_target function hname
  rw [h, splitTarget?_target f hother] at hcut
  cases hcut
  exact ⟨rfl, rfl⟩

/-- With them they need not. -/
example : target "a.b" "c" = target "a" "b.c" := by decide

/-! ## Sessions -/

/-- A séance that a session may come to, from its manifests and by the lines that it obeys. -/
inductive Reaches (loader : Loader) (world : World) (manifests : List String) :
    Seance → Prop
  | begun {s : Seance} (next : (begin (.new loader) world manifests).next? = some s) :
      Reaches loader world manifests s
  | obeyed {s t : Seance} {line : String} (earlier : Reaches loader world manifests s)
      (next : (obey s line).next? = some t) : Reaches loader world manifests t

theorem inOrder_begin (h : (begin (.new loader) world manifests).next? = some s) :
    InOrder s.entries := by
  have hnew : InOrder (Seance.new loader).entries := List.Pairwise.nil
  have hsummoned : InOrder ((Seance.new loader).summonManifest world manifests).state.entries :=
    Seance.inOrder_summonManifest hnew manifests
  unfold begin at h
  dsimp only at h
  split at h
  · cases h
  · cases h
    exact hsummoned

theorem inOrder_perform {instruction : Instruction} (hs : InOrder s.entries)
    (h : (perform s instruction).next? = some t) : InOrder t.entries := by
  cases instruction with
  | list | help | incomplete | unknown =>
    cases h
    exact hs
  | leave => cases h
  | release name =>
    cases h
    exact Seance.inOrder_release hs
  | invoke target arguments =>
    unfold perform at h
    dsimp only at h
    split at h
    · cases h
      exact hs
    · cases h
      exact Seance.inOrder_onSpirit hs _

theorem Reaches.inOrder (h : Reaches loader world manifests s) : InOrder s.entries := by
  induction h with
  | begun next => exact inOrder_begin next
  | @obeyed s t line _ next ih =>
    unfold obey at next
    split at next
    · cases next
      exact ih
    · exact inOrder_perform ih next

/-! ## What is listed -/

theorem mem_functions_iff (hs : InOrder s.entries) : (name, function) ∈ functions s ↔
    ∃ spirit, s.get? name = some spirit ∧ function ∈ spirit.functions := by
  rw [functions, List.mem_flatMap]
  constructor
  · rintro ⟨⟨n, spirit⟩, hentry, hfunction⟩
    obtain ⟨f, hf, hpair⟩ := List.mem_map.1 hfunction
    cases hpair
    exact ⟨spirit, lookup_of_mem (InOrder.nodup hs) hentry, hf⟩
  · rintro ⟨spirit, hget, hfunction⟩
    exact ⟨(name, spirit), mem_of_lookup hget, List.mem_map_of_mem hfunction⟩

theorem mem_targets_iff (hs : InOrder s.entries) {text : String} : text ∈ targets s ↔
    ∃ name spirit function, s.get? name = some spirit ∧ function ∈ spirit.functions ∧
      text = target name function := by
  rw [targets, List.mem_mergeSort, List.mem_map]
  constructor
  · rintro ⟨⟨name, function⟩, hlisted, rfl⟩
    obtain ⟨spirit, hget, hfunction⟩ := (mem_functions_iff hs).1 hlisted
    exact ⟨name, spirit, function, hget, hfunction, rfl⟩
  · rintro ⟨name, spirit, function, hget, hfunction, rfl⟩
    exact ⟨(name, function), (mem_functions_iff hs).2 ⟨spirit, hget, hfunction⟩, rfl⟩

/-! ## What can be asked for -/

/-- A character between quotes of the kind that it is not. -/
def guarded (c : Char) : List Char :=
  if c = '\x22' then ['\x27', c, '\x27'] else ['\x22', c, '\x22']

/-- A line whose words are the given ones. -/
def spelled : List (List Char) → List Char
  | [] => []
  | [word] => word.flatMap guarded
  | word :: rest => word.flatMap guarded ++ ' ' :: spelled rest

theorem guarded_cases (c : Char) : ∃ q, isQuote q = true ∧ c ≠ q ∧ guarded c = [q, c, q] := by
  unfold guarded
  by_cases hc : c = '\x22'
  · exact ⟨'\x27', rfl, by rw [hc]; decide, if_pos hc⟩
  · exact ⟨'\x22', rfl, hc, if_neg hc⟩

theorem cutWords_guarded : ∀ (word begun rest : List Char),
    cutWords none begun (word.flatMap guarded ++ rest) = cutWords none (begun ++ word) rest
  | [], begun, rest => by simp
  | c :: word, begun, rest => by
    obtain ⟨q, hq, hne, hguarded⟩ := guarded_cases c
    rw [List.flatMap_cons, hguarded, List.append_assoc]
    change cutWords none begun (q :: [c] ++ q :: (word.flatMap guarded ++ rest)) = _
    rw [cutWords_quoted _ _ hq (by simpa using Ne.symm hne), cutWords_guarded word,
      List.append_assoc, List.singleton_append]

theorem cutWords_spelled : ∀ {words : List (List Char)}, [] ∉ words →
    cutWords none [] (spelled words) = words
  | [], _ => rfl
  | [word], h => by
    have hword : word ≠ [] := fun hnil => h (hnil ▸ List.mem_cons_self)
    have hcut := cutWords_guarded word [] []
    rw [List.append_nil, List.nil_append] at hcut
    rw [spelled, hcut, cutWords, wordOf_of_ne_nil hword]
  | word :: next :: rest, h => by
    have hword : word ≠ [] := fun hnil => h (hnil ▸ List.mem_cons_self)
    have ih := cutWords_spelled fun hnil => h (List.mem_cons_of_mem word hnil)
    rw [spelled, cutWords_guarded, List.nil_append, cutWords_space, ih, wordOf_of_ne_nil hword]
    · rfl
    · exact List.cons_ne_nil next rest

/-- The characters begin and end with a quote. -/
def Enclosed (cs : List Char) : Prop :=
  (∃ q tail, isQuote q = true ∧ cs = q :: tail) ∧ ∃ front q, isQuote q = true ∧ cs = front ++ [q]

theorem enclosed_guarded {word : List Char} (h : word ≠ []) : Enclosed (word.flatMap guarded) := by
  constructor
  · obtain ⟨c, rest, rfl⟩ := List.exists_cons_of_ne_nil h
    obtain ⟨q, hq, -, hguarded⟩ := guarded_cases c
    exact ⟨q, _, hq, by rw [List.flatMap_cons, hguarded]; rfl⟩
  · obtain ⟨front, c, rfl⟩ := (List.eq_nil_or_concat word).resolve_left h
    obtain ⟨q, hq, -, hguarded⟩ := guarded_cases c
    refine ⟨front.flatMap guarded ++ [q, c], q, hq, ?_⟩
    simp [hguarded]

theorem enclosed_spelled : ∀ {words : List (List Char)}, words ≠ [] → [] ∉ words →
    Enclosed (spelled words)
  | [word], _, h => enclosed_guarded fun hnil => h (hnil ▸ List.mem_cons_self)
  | word :: next :: rest, _, h => by
    obtain ⟨⟨q, tail, hq, hfirst⟩, -⟩ : Enclosed (word.flatMap guarded) :=
      enclosed_guarded fun hnil => h (hnil ▸ List.mem_cons_self)
    obtain ⟨-, front, p, hp, hlast⟩ : Enclosed (spelled (next :: rest)) :=
      enclosed_spelled (List.cons_ne_nil next rest) fun hnil => h (List.mem_cons_of_mem word hnil)
    refine ⟨⟨q, tail ++ ' ' :: spelled (next :: rest), hq, ?_⟩,
      ⟨word.flatMap guarded ++ ' ' :: front, p, hp, ?_⟩⟩
    · rw [spelled, hfirst]
      · rfl
      · exact List.cons_ne_nil next rest
    · rw [spelled, hlast]
      · simp
      · exact List.cons_ne_nil next rest

theorem Enclosed.firm {cs : List Char} (h : Enclosed cs) : Firm cs := by
  obtain ⟨⟨q, tail, hq, hfirst⟩, front, p, hp, hlast⟩ := h
  constructor
  · rw [hfirst]
    exact fun c hc => Option.some.inj hc ▸ isBlank_of_isQuote hq
  · rw [hlast, List.getLast?_concat]
    exact fun c hc => Option.some.inj hc ▸ isBlank_of_isQuote hp

theorem Enclosed.trim {cs : List Char} (h : Enclosed cs) : Text.trim cs = cs := by
  have htrim : Text.trim ([] ++ cs ++ []) = cs := trim_of_firm nofun h.firm
  simpa using htrim

/-- Whatever words are wanted, a line has them, as long as none of them is empty. -/
theorem exists_line {asked : List String} (hsome : asked ≠ []) (h : "" ∉ asked) :
    ∃ line, words line = asked := by
  have hempty : [] ∉ asked.map String.toList := by
    rintro hmem
    obtain ⟨word, hword, hnil⟩ := List.mem_map.1 hmem
    rw [String.toList_eq_nil_iff] at hnil
    exact h (hnil ▸ hword)
  have henclosed := enclosed_spelled (by simpa using hsome) hempty
  refine ⟨String.ofList (spelled (asked.map String.toList)), ?_⟩
  rw [words, String.toList_ofList, henclosed.trim, cutWords_spelled hempty, List.map_map]
  simp

/-! ## What is called -/

/-- A line asks for a call of a target. -/
def Asks (line target : String) (arguments : List String) : Prop :=
  words line = "invoke" :: target :: arguments

theorem exists_asks (name function : String) {arguments : List String} (h : "" ∉ arguments) :
    ∃ line, Asks line (target name function) arguments := by
  refine exists_line (List.cons_ne_nil _ _) ?_
  have hinvoke : "" ≠ "invoke" := by decide
  have htarget : "" ≠ target name function := by
    intro hempty
    have hlist := congrArg String.toList hempty
    rw [toList_target] at hlist
    simp at hlist
  simp [hinvoke, htarget, h]

/-- What a call of a function of a Spirit gives. -/
def called (s : Seance) (name function : String) (arguments : List String) : Turn :=
  .ofReply (s.invokeJson name function (arguments.map argument)) Json.pretty

theorem ofWords?_invoke (text : String) (arguments : List String) :
    Instruction.ofWords? ("invoke" :: text :: arguments) = some (.invoke text arguments) := by
  simp [Instruction.ofWords?]

theorem obey_of_asks {line text : String} {arguments : List String}
    (h : Asks line text arguments) (hcut : splitTarget? text = some (name, function)) :
    obey s line = called s name function arguments := by
  rw [obey, h, ofWords?_invoke]
  dsimp only
  rw [perform, hcut]
  rfl

theorem invokeJson_of_get? {spirit : Spirit} (h : s.get? name = some spirit) (function : String)
    (args : List Json) :
    s.invokeJson name function args = (spirit.callJson function args).mapState (s.insert name) := by
  rw [Seance.invokeJson, Seance.onSpirit, h]

/-- What a session lists, and what comes of asking for a call of it. -/
structure Lists (s : Seance) : Prop where
  lines : perform s .list = .proceed s ((targets s).map fun t => .text ("- " ++ t))
  /-- The targets are those of the functions of the Spirits that are there. -/
  targets : ∀ text, text ∈ targets s ↔ ∃ name spirit function,
    s.get? name = some spirit ∧ function ∈ spirit.functions ∧ text = target name function
  /-- Without a dot in the Spirit's name, its target calls the function. -/
  calls : ∀ name spirit function line arguments, s.get? name = some spirit →
    '.' ∉ name.toList → Asks line (target name function) arguments →
      obey s line = called s name function arguments ∧
        s.invokeJson name function (arguments.map argument) =
          (spirit.callJson function (arguments.map argument)).mapState (s.insert name)
  /-- A target can be asked for, with any arguments but empty ones. -/
  asked : ∀ name function arguments, "" ∉ arguments →
    ∃ line, Asks line (target name function) arguments
  distinct : ∀ name function other f, '.' ∉ name.toList → '.' ∉ other.toList →
    target name function = target other f → name = other ∧ function = f
  /-- With one, it calls a function of another Spirit, or says that there is none. -/
  miscalls : ∀ name function line arguments, '.' ∈ name.toList →
    Asks line (target name function) arguments →
      ∃ other f, other ≠ name ∧ target other f = target name function ∧
        obey s line = called s other f arguments

/-- **Targets.** At every point of a session a listed target calls the function it stands for, exactly
as without the command line, if the Spirit's name has no dot; with one it never does. -/
theorem lists_targets (h : Reaches loader world manifests s) : Lists s := by
  refine ⟨rfl, fun text => mem_targets_iff h.inOrder, ?_, ?_, ?_, ?_⟩
  · intro name spirit function line arguments hget hdot hasks
    exact ⟨obey_of_asks hasks (splitTarget?_target function hdot),
      invokeJson_of_get? hget function _⟩
  · exact fun name function arguments => exists_asks name function
  · exact fun name function other f => target_inj
  · intro name function line arguments hdot hasks
    obtain ⟨other, f, hother, htarget, hcut⟩ := exists_splitTarget? name function
    refine ⟨other, f, ?_, htarget, obey_of_asks hasks hcut⟩
    rintro rfl
    exact hother hdot

/-! ## Two manifests -/

/-- A module with a function `c` that returns 5. -/
def fiveModule : Bytes := [
  0x00, 0x61, 0x73, 0x6d, 0x01, 0x00, 0x00, 0x00,
  0x01, 0x05, 0x01, 0x60, 0x00, 0x01, 0x7f,
  0x03, 0x02, 0x01, 0x00,
  0x07, 0x05, 0x01, 0x01, 0x63, 0x00, 0x00,
  0x0a, 0x06, 0x01, 0x04, 0x00, 0x41, 0x05, 0x0b]

/-- The files of a module and of a manifest that summons it under a key. -/
def filesFor (key : String) : World := .ofList [
  ("m.toml", .ok (Utf8.encode ("[" ++ key ++ "]\nuri = \"/c.wasm\"\n"))),
  ("/c.wasm", .ok fiveModule)]

theorem lists_plain : ∃ s, Reaches shortLoader (filesFor "a") ["m.toml"] s ∧ Lists s ∧
    "a.c" ∈ targets s := by
  have hbegun : ((begin (.new shortLoader) (filesFor "a") ["m.toml"]).next?.map fun s =>
      decide ("a.c" ∈ targets s)) = some true := by decide +kernel
  obtain ⟨s, hs, hlisted⟩ := Option.map_eq_some_iff.1 hbegun
  have hreaches : Reaches shortLoader (filesFor "a") ["m.toml"] s := .begun hs
  exact ⟨s, hreaches, lists_targets hreaches, of_decide_eq_true hlisted⟩

/-- A session lists a target whose call finds no Spirit, although the Spirit is there. -/
theorem listed_not_called : ∃ s, Reaches shortLoader (filesFor "\"a.b\"") ["m.toml"] s ∧
    target "a.b" "c" ∈ targets s ∧ Asks "invoke a.b.c" (target "a.b" "c") [] ∧
      s.contains "a.b" = true ∧
        obey s "invoke a.b.c" = .proceed s [.fault (.failed (.spiritNotFound "a"))] := by
  have hbegun : ((begin (.new shortLoader) (filesFor "\"a.b\"") ["m.toml"]).next?.map fun s =>
      decide (target "a.b" "c" ∈ targets s ∧ s.contains "a.b" = true ∧
        s.contains "a" = false)) = some true := by decide +kernel
  obtain ⟨s, hs, hchecked⟩ := Option.map_eq_some_iff.1 hbegun
  obtain ⟨hlisted, hthere, habsent⟩ := of_decide_eq_true hchecked
  have hasks : Asks "invoke a.b.c" (target "a.b" "c") [] := by
    rw [Asks]
    decide +kernel
  have hcut : splitTarget? (target "a.b" "c") = some ("a", "b.c") := by decide +kernel
  refine ⟨s, .begun hs, hlisted, hasks, hthere, ?_⟩
  rw [obey_of_asks hasks hcut, called, Seance.invokeJson, Seance.onSpirit_of_absent habsent]
  rfl

end SpiritHost.Command.Session
