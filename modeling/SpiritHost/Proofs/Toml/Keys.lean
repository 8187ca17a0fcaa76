import SpiritHost.Proofs.Except
import SpiritHost.Proofs.Lookup
import SpiritHost.Toml.Reader

/-!
# Keys that differ

No table of a configuration file has a key twice, at whatever depth: a table in the making gets a key
only if it is new or stands for a table that is added to (`Table.Distinct`), and finishing a table
puts its keys in order (`Toml.ordered_parse?`).
-/

namespace SpiritHost.Toml

open Json (Chars)

/-! ## Tables in the making -/

/-- No table in a node has a key twice. -/
inductive Node.Distinct : Node → Prop
  | string (text : String) : Distinct (.string text)
  | integer (value : Int) : Distinct (.integer value)
  | float (text : String) : Distinct (.float text)
  | boolean (value : Bool) : Distinct (.boolean value)
  | time (text : String) : Distinct (.time text)
  | array {items : List Node} (each : ∀ n ∈ items, Distinct n) : Distinct (.array items)
  | table {kind : TableKind} {entries : List (String × Node)} (nodup : (keys entries).Nodup)
      (nodes : ∀ p ∈ entries, Distinct p.2) : Distinct (.table kind entries)
  | tables {kind : TableKind} {entries : List (String × Node)} {earlier : List Node}
      (nodup : (keys entries).Nodup) (nodes : ∀ p ∈ entries, Distinct p.2)
      (each : ∀ n ∈ earlier, Distinct n) : Distinct (.tables (kind, entries) earlier)

namespace Table

/-- The table has no key twice, and neither has a table in it. -/
structure Distinct (t : Table) : Prop where
  nodup : (keys t.2).Nodup
  nodes : ∀ p ∈ t.2, p.2.Distinct

variable {t u : Table} {key : String} {n : Node} {path : List String} {kind : TableKind}
  {entries : List (String × Node)} {earlier : List Node}

theorem distinct_empty (kind : TableKind) : Distinct (kind, []) := ⟨.nil, fun _ hp => by cases hp⟩

theorem Distinct.table (h : Distinct (kind, entries)) (kind' : TableKind) :
    Node.Distinct (.table kind' entries) := .table h.nodup h.nodes

theorem distinct_of_table (h : Node.Distinct (.table kind entries)) (kind' : TableKind) :
    Distinct (kind', entries) := by
  cases h with
  | table nodup nodes => exact ⟨nodup, nodes⟩

theorem Distinct.get? (h : t.Distinct) (hget : t.get? key = some n) : n.Distinct :=
  h.nodes _ (mem_of_lookup hget)

/-- To set a key leaves the others. -/
theorem Distinct.set (h : t.Distinct) (hn : n.Distinct) : (t.set key n).Distinct := by
  unfold Table.set
  split
  · refine ⟨?_, ?_⟩
    · rw [keys_replace]
      exact h.nodup
    · intro p hp
      obtain ⟨⟨k, m⟩, hq, rfl⟩ := List.mem_map.1 hp
      by_cases hk : k = key
      · simpa [hk] using hn
      · simpa [hk] using h.nodes _ hq
  · rename_i hnew
    rw [any_eq_isSome_lookup, isSome_lookup] at hnew
    refine ⟨?_, ?_⟩
    · rw [keys, List.map_append, List.map_singleton, List.nodup_append]
      refine ⟨h.nodup, List.pairwise_singleton _ key, ?_⟩
      rintro k hk other hother rfl
      cases List.mem_singleton.1 hother
      exact hnew hk
    · intro p hp
      rcases List.mem_append.1 hp with hp | hp
      · exact h.nodes p hp
      · rw [List.mem_singleton.1 hp]
        exact hn

/-- To change the table at the end of a path leaves the tables on the way with keys that differ. -/
theorem Distinct.update {byDottedKey : Bool} {change : Table → Option Table}
    (hchange : ∀ {t u : Table}, t.Distinct → change t = some u → u.Distinct) :
    ∀ {path : List String} {t u : Table}, t.Distinct →
      t.update byDottedKey change path = some u → u.Distinct
  | [], _, _, ht, h => hchange ht h
  | key :: rest, t, u, ht, h => by
    rw [Table.update] at h
    split at h
    · obtain ⟨⟨kind, entries⟩, hrest, h⟩ := Option.bind_eq_some_iff.1 h
      cases h
      exact ht.set ((Distinct.update hchange (distinct_empty _) hrest).table kind)
    · rename_i kind entries hget
      split at h
      · cases h
      · obtain ⟨⟨kind', entries'⟩, hrest, h⟩ := Option.bind_eq_some_iff.1 h
        cases h
        have hsub := distinct_of_table (ht.get? hget) kind
        exact ht.set ((Distinct.update hchange hsub hrest).table kind')
    · rename_i newest earlier hget
      obtain ⟨newest', hrest, h⟩ := Option.bind_eq_some_iff.1 h
      cases h
      cases ht.get? hget with
      | tables nodup nodes each =>
        have hnewest := Distinct.update hchange ⟨nodup, nodes⟩ hrest
        exact ht.set (.tables hnewest.nodup hnewest.nodes each)
    · cases h

theorem Distinct.insert (ht : t.Distinct) (hn : n.Distinct)
    (h : t.insert path key n = some u) : u.Distinct := by
  refine Distinct.update (fun {sub changed} hsub hchanged => ?_) ht h
  split at hchanged
  · cases hchanged
  · split at hchanged
    · cases hchanged
      exact hsub.set hn
    · split at hchanged
      · cases hchanged
        have hdotted : Distinct (.dotted, sub.2) := ⟨hsub.nodup, hsub.nodes⟩
        exact hdotted.set hn
      · cases hchanged

theorem Distinct.openHeader (ht : t.Distinct) (h : t.openHeader path key = some u) :
    u.Distinct := by
  refine Distinct.update (fun {sub changed} hsub hchanged => ?_) ht h
  split at hchanged
  · cases hchanged
    exact hsub.set ((distinct_empty .header).table .header)
  · rename_i entries hget
    cases hchanged
    exact hsub.set ((distinct_of_table (hsub.get? hget) .header).table .header)
  · cases hchanged

theorem Distinct.openRepeated (ht : t.Distinct) (h : t.openRepeated path key = some u) :
    u.Distinct := by
  have hnone : ∀ p ∈ ([] : List (String × Node)), p.2.Distinct := fun p hp => by cases hp
  refine Distinct.update (fun {sub changed} hsub hchanged => ?_) ht h
  split at hchanged
  · cases hchanged
    exact hsub.set (.tables .nil hnone fun n hn => by cases hn)
  · rename_i kind entries earlier hget
    cases hchanged
    cases hsub.get? hget with
    | tables nodup nodes each =>
      refine hsub.set (.tables .nil hnone fun n hn => ?_)
      rcases List.mem_cons.1 hn with rfl | hn
      · exact .table nodup nodes
      · exact each n hn
  · cases hchanged

end Table

/-! ## Reading -/

variable {cs rest : Chars} {n : Node} {bound depth : Nat}

theorem distinct_word? (h : word? cs = some (n, rest)) : n.Distinct := by
  unfold word? at h
  split at h
  · split at h
    · cases h
      exact .time _
    · cases h
  · dsimp only at h
    split at h
    · cases h
      exact .boolean _
    · split at h
      · cases h
        exact .boolean _
      · split at h
        · cases h
          exact .integer _
        · split at h
          · cases h
            exact .float _
          · cases h

/-- Whatever is read with a bound has keys that differ: a value, the items of an array, and the
settings of a table in braces that are added to others. -/
structure ReadsDistinct (bound : Nat) : Prop where
  value : ∀ {depth cs n rest}, value? bound depth cs = some (n, rest) → n.Distinct
  items : ∀ {depth cs items rest}, items? bound depth cs = some (items, rest) →
    ∀ n ∈ items, n.Distinct
  settings : ∀ {depth} {t : Table} {cs entries rest}, t.Distinct →
    settings? bound depth t cs = some (entries, rest) → Table.Distinct (t.1, entries)

namespace ReadsDistinct

theorem value_succ (hbound : ReadsDistinct bound)
    (h : value? (bound + 1) depth cs = some (n, rest)) : n.Distinct := by
  unfold value? at h
  split at h
  · split at h
    · cases h
    · obtain ⟨⟨items, rest'⟩, hread, h⟩ := Option.bind_eq_some_iff.1 h
      cases h
      exact .array (hbound.items hread)
  · split at h
    · cases h
    · obtain ⟨⟨entries, rest'⟩, hread, h⟩ := Option.bind_eq_some_iff.1 h
      cases h
      exact (hbound.settings (Table.distinct_empty .header) hread).table .inline
  · obtain ⟨⟨text, rest'⟩, -, h⟩ := Option.bind_eq_some_iff.1 h
    cases h
    exact .string text
  · obtain ⟨⟨text, rest'⟩, -, h⟩ := Option.bind_eq_some_iff.1 h
    cases h
    exact .string text
  · exact distinct_word? h

theorem items_succ {items : List Node} (hbound : ReadsDistinct bound)
    (h : items? (bound + 1) depth cs = some (items, rest)) : ∀ n ∈ items, n.Distinct := by
  unfold items? at h
  obtain ⟨cs', -, h⟩ := Option.bind_eq_some_iff.1 h
  split at h
  · cases h
    exact fun n hn => by cases hn
  · obtain ⟨⟨item, rest'⟩, hitem, h⟩ := Option.bind_eq_some_iff.1 h
    obtain ⟨cs', -, h⟩ := Option.bind_eq_some_iff.1 h
    have hfirst := hbound.value hitem
    split at h
    · cases h
      exact List.forall_mem_singleton.2 hfirst
    · obtain ⟨⟨more, rest'⟩, hmore, h⟩ := Option.bind_eq_some_iff.1 h
      cases h
      exact List.forall_mem_cons.2 ⟨hfirst, hbound.items hmore⟩
    · cases h

theorem settings_succ {t : Table} {entries : List (String × Node)} (hbound : ReadsDistinct bound)
    (ht : t.Distinct) (h : settings? (bound + 1) depth t cs = some (entries, rest)) :
    Table.Distinct (t.1, entries) := by
  unfold settings? at h
  obtain ⟨cs', -, h⟩ := Option.bind_eq_some_iff.1 h
  split at h
  · cases h
    exact ht
  · obtain ⟨⟨⟨path, key⟩, rest'⟩, -, h⟩ := Option.bind_eq_some_iff.1 h
    obtain ⟨cs', -, h⟩ := Option.bind_eq_some_iff.1 h
    split at h
    · obtain ⟨cs', -, h⟩ := Option.bind_eq_some_iff.1 h
      obtain ⟨⟨node, rest'⟩, hnode, h⟩ := Option.bind_eq_some_iff.1 h
      obtain ⟨u, hinsert, h⟩ := Option.bind_eq_some_iff.1 h
      obtain ⟨cs', -, h⟩ := Option.bind_eq_some_iff.1 h
      have hu := ht.insert (hbound.value hnode) hinsert
      split at h
      · cases h
        exact ⟨hu.nodup, hu.nodes⟩
      · have hmore := hbound.settings hu h
        exact ⟨hmore.nodup, hmore.nodes⟩
      · cases h
    · cases h

end ReadsDistinct

/-- By induction on the bound of the readers, which call each other with a smaller one. -/
theorem readsDistinct : ∀ bound : Nat, ReadsDistinct bound
  | 0 => ⟨nofun, nofun, nofun⟩
  | bound + 1 =>
    have hbound := readsDistinct bound
    ⟨hbound.value_succ, hbound.items_succ, hbound.settings_succ⟩

theorem distinct_line? {p q : Progress} (hp : p.root.Distinct)
    (h : p.line? cs = some (q, rest)) : q.root.Distinct := by
  unfold Progress.line? at h
  split at h
  · obtain ⟨⟨⟨path, key⟩, rest'⟩, -, h⟩ := Option.bind_eq_some_iff.1 h
    dsimp only at h
    split at h
    · obtain ⟨root, hroot, h⟩ := Option.bind_eq_some_iff.1 h
      obtain ⟨cs', -, h⟩ := Option.bind_eq_some_iff.1 h
      cases h
      exact hp.openRepeated hroot
    · cases h
  · obtain ⟨⟨⟨path, key⟩, rest'⟩, -, h⟩ := Option.bind_eq_some_iff.1 h
    dsimp only at h
    split at h
    · obtain ⟨root, hroot, h⟩ := Option.bind_eq_some_iff.1 h
      obtain ⟨cs', -, h⟩ := Option.bind_eq_some_iff.1 h
      cases h
      exact hp.openHeader hroot
    · cases h
  · obtain ⟨⟨⟨path, key⟩, rest'⟩, -, h⟩ := Option.bind_eq_some_iff.1 h
    dsimp only at h
    split at h
    · obtain ⟨⟨node, rest'⟩, hnode, h⟩ := Option.bind_eq_some_iff.1 h
      obtain ⟨root, hroot, h⟩ := Option.bind_eq_some_iff.1 h
      obtain ⟨cs', -, h⟩ := Option.bind_eq_some_iff.1 h
      cases h
      have hread := (readsDistinct _).value hnode
      exact Table.Distinct.update (fun hsub hinsert => hsub.insert hread hinsert) hp hroot
    · cases h

theorem distinct_lines? : ∀ {bound : Nat} {p q : Progress} {cs : Chars}, p.root.Distinct →
    p.lines? bound cs = some q → q.root.Distinct
  | 0, _, _, _, _, h => by cases h
  | bound + 1, p, q, cs, hp, h => by
    unfold Progress.lines? at h
    obtain ⟨cs', -, h⟩ := Option.bind_eq_some_iff.1 h
    split at h
    · cases h
      exact hp
    · obtain ⟨⟨next, rest⟩, hline, h⟩ := Option.bind_eq_some_iff.1 h
      exact distinct_lines? (distinct_line? hp hline) h

/-! ## Finishing -/

/-- The keys of every table in a value are in order and differ. -/
inductive Value.Ordered : Value → Prop
  | string (text : String) : Ordered (.string text)
  | integer (value : Int) : Ordered (.integer value)
  | float (text : String) : Ordered (.float text)
  | boolean (value : Bool) : Ordered (.boolean value)
  | time (text : String) : Ordered (.time text)
  | array {items : List Value} (each : ∀ v ∈ items, Ordered v) : Ordered (.array items)
  | table {entries : List (String × Value)} (inOrder : InOrder entries)
      (values : ∀ p ∈ entries, Ordered p.2) : Ordered (.table entries)

/-- Entries as a table has them. -/
structure OrderedEntries (entries : List (String × Value)) : Prop where
  inOrder : InOrder entries
  values : ∀ p ∈ entries, p.2.Ordered

theorem mem_insertEntry {key : String} {value : Value} {p : String × Value} :
    ∀ {entries : List (String × Value)}, p ∈ insertEntry key value entries ↔
      p = (key, value) ∨ p ∈ entries
  | [] => by simp [insertEntry]
  | (k, v) :: rest => by
    unfold insertEntry
    split
    · rw [List.mem_cons]
    · rw [List.mem_cons, List.mem_cons, mem_insertEntry, or_left_comm]

/-- A new key is put in its place. -/
theorem insertEntry_eq_setKey {key : String} {value : Value} :
    ∀ {entries : List (String × Value)}, key ∉ keys entries →
      insertEntry key value entries = setKey key value entries
  | [], _ => rfl
  | (k, v) :: rest, h => by
    rw [keys, List.map_cons, List.mem_cons, not_or] at h
    unfold insertEntry setKey
    rw [if_neg h.1, insertEntry_eq_setKey h.2]

theorem ordered_tableOf? {entries : List (String × Value)} {v : Value}
    (h : OrderedEntries entries) (hv : tableOf? entries = some v) : v.Ordered := by
  unfold tableOf? at hv
  split at hv
  · split at hv
    · split at hv
      · split at hv
        · cases hv
          exact .time _
        · cases hv
      · cases hv
    · cases hv
      exact .table h.inOrder h.values
  · cases hv
    exact .table h.inOrder h.values

mutual

theorem Node.ordered_finish? : ∀ {n : Node} {v : Value}, n.Distinct → n.finish? = some v →
    v.Ordered
  | .string text, _, _, h => by
    cases h
    exact .string text
  | .integer value, _, _, h => by
    cases h
    exact .integer value
  | .float text, _, _, h => by
    cases h
    exact .float text
  | .boolean value, _, _, h => by
    cases h
    exact .boolean value
  | .time text, _, _, h => by
    cases h
    exact .time text
  | .array items, _, hn, h => by
    rw [Node.finish?] at h
    obtain ⟨values, hvalues, h⟩ := Option.bind_eq_some_iff.1 h
    cases h
    cases hn with
    | array each => exact .array (Node.ordered_finishAll? each hvalues)
  | .table kind entries, _, hn, h => by
    rw [Node.finish?] at h
    obtain ⟨finished, hfinished, h⟩ := Option.bind_eq_some_iff.1 h
    cases hn with
    | table nodup nodes =>
      exact ordered_tableOf? (Node.ordered_finishEntries? nodup nodes hfinished).1 h
  | .tables (kind, entries) earlier, _, hn, h => by
    rw [Node.finish?] at h
    obtain ⟨finished, hfinished, h⟩ := Option.bind_eq_some_iff.1 h
    obtain ⟨newest, hnewest, h⟩ := Option.bind_eq_some_iff.1 h
    obtain ⟨values, hvalues, h⟩ := Option.bind_eq_some_iff.1 h
    cases h
    cases hn with
    | tables nodup nodes each =>
      have hlast := ordered_tableOf? (Node.ordered_finishEntries? nodup nodes hfinished).1 hnewest
      refine .array fun v hv => ?_
      rcases List.mem_append.1 hv with hv | hv
      · exact Node.ordered_finishAll? each hvalues v (List.mem_reverse.1 hv)
      · rw [List.mem_singleton.1 hv]
        exact hlast

theorem Node.ordered_finishAll? : ∀ {nodes : List Node} {values : List Value},
    (∀ n ∈ nodes, n.Distinct) → Node.finishAll? nodes = some values → ∀ v ∈ values, v.Ordered
  | [], _, _, h, v, hv => by
    cases h
    cases hv
  | n :: rest, _, hnodes, h, v, hv => by
    rw [Node.finishAll?] at h
    obtain ⟨first, hfirst, h⟩ := Option.bind_eq_some_iff.1 h
    obtain ⟨others, hothers, h⟩ := Option.bind_eq_some_iff.1 h
    cases h
    rcases List.mem_cons.1 hv with rfl | hv
    · exact Node.ordered_finish? (hnodes n List.mem_cons_self) hfirst
    · exact Node.ordered_finishAll? (fun m hm => hnodes m (List.mem_cons_of_mem n hm)) hothers v hv

theorem Node.ordered_finishEntries? : ∀ {nodes : List (String × Node)}
    {entries : List (String × Value)}, (keys nodes).Nodup → (∀ p ∈ nodes, p.2.Distinct) →
      Node.finishEntries? nodes = some entries →
        OrderedEntries entries ∧ ∀ k, k ∈ keys entries ↔ k ∈ keys nodes
  | [], _, _, _, h => by
    cases h
    exact ⟨⟨List.Pairwise.nil, fun p hp => by cases hp⟩, fun k => Iff.rfl⟩
  | (key, n) :: rest, _, hnodup, hnodes, h => by
    rw [Node.finishEntries?] at h
    obtain ⟨value, hvalue, h⟩ := Option.bind_eq_some_iff.1 h
    obtain ⟨finished, hfinished, h⟩ := Option.bind_eq_some_iff.1 h
    cases h
    obtain ⟨hnew, hnodup⟩ := List.nodup_cons.1 hnodup
    have hordered := Node.ordered_finish? (hnodes (key, n) List.mem_cons_self) hvalue
    obtain ⟨hrest, hkeys⟩ := Node.ordered_finishEntries? hnodup
      (fun p hp => hnodes p (List.mem_cons_of_mem _ hp)) hfinished
    have hfresh : key ∉ keys finished := fun hmem => hnew ((hkeys key).1 hmem)
    refine ⟨⟨?_, fun p hp => ?_⟩, fun k => ?_⟩
    · rw [insertEntry_eq_setKey hfresh]
      exact hrest.inOrder.setKey value
    · rcases mem_insertEntry.1 hp with rfl | hp
      · exact hordered
      · exact hrest.values p hp
    · rw [insertEntry_eq_setKey hfresh, mem_keys_setKey, hkeys, keys, keys, List.map_cons,
        List.mem_cons]

end

/-- **Keys.** The tables of a file, whatever their depth, have their keys in order and none twice. -/
theorem ordered_parse? {text : String} {entries : List (String × Value)}
    (h : parse? text = some entries) : OrderedEntries entries := by
  obtain ⟨p, hp, h⟩ := Option.bind_eq_some_iff.1 h
  have hdistinct := distinct_lines? (Table.distinct_empty .header) hp
  exact (Node.ordered_finishEntries? hdistinct.nodup hdistinct.nodes h).1

end SpiritHost.Toml
