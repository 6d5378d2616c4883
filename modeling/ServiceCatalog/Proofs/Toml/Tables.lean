import ServiceCatalog.Proofs.Toml.Line

/-!
The tables that a document with headers makes. A header that is new adds a table at the end, entries
with new names add their values to it, and the header of a list's next table adds an item to the list.
-/
namespace ServiceCatalog.Toml

variable {es sub base last : Entries} {items : List Entries} {cur : List String} {k table list : String}
  {n m : Node} {v : Setting}

def names (es : Entries) : List String := es.map (·.1)

@[simp] theorem names_append (es sub : Entries) : names (es ++ sub) = names es ++ names sub :=
  List.map_append

@[simp] theorem names_singleton (k : String) (n : Node) : names [(k, n)] = [k] := rfl

theorem find?_eq_none (h : k ∉ names es) : Node.find? k es = none := by
  rw [Node.find?, Option.map_eq_none_iff, List.find?_eq_none]
  intro e he hk
  exact h (List.mem_map.mpr ⟨e, he, beq_iff_eq.mp hk⟩)

theorem find?_last (h : k ∉ names es) (n : Node) : Node.find? k (es ++ [(k, n)]) = some n := by
  have hnone := find?_eq_none h
  rw [Node.find?, Option.map_eq_none_iff] at hnone
  simp [Node.find?, List.find?_append, hnone]

theorem replace_last (h : k ∉ names es) (n m : Node) :
    Node.replace k n (es ++ [(k, m)]) = es ++ [(k, n)] := by
  induction es with
  | nil => simp [Node.replace]
  | cons e es ih =>
    have hne : e.1 ≠ k := fun he => h (by simp [names, he])
    have htail : k ∉ names es := fun hk => h (List.mem_cons_of_mem _ hk)
    simp [Node.replace, hne, ih htail]

theorem putKey_new {o : Origin} (ho : o ≠ .dotted) (h : k ∉ names es) (v : Setting) :
    Node.putKey [] k v o es = some (es ++ [(k, .leaf v)]) := by
  have hdotted : (o == Origin.dotted) = false := by simpa using ho
  simp [Node.putKey, Node.update, hdotted, find?_eq_none h]

theorem add_header (h : k ∉ names es) :
    Draft.add ⟨es, cur⟩ (.header [] k) = some ⟨es ++ [(k, .table .header [])], [k]⟩ := by
  simp [Draft.add, Node.openTable, Node.update, find?_eq_none h]

theorem add_entry (ht : table ∉ names es) (hk : k ∉ names sub) (v : Setting) :
    Draft.add ⟨es ++ [(table, .table .header sub)], [table]⟩ (.entry [] k v) =
      some ⟨es ++ [(table, .table .header (sub ++ [(k, .leaf v)]))], [table]⟩ := by
  have hput : Node.putKey [] k v .header sub = some (sub ++ [(k, .leaf v)]) :=
    putKey_new (by decide) hk v
  simp [Draft.add, Node.update, find?_last ht, replace_last ht, hput]

/-- A list of tables, which is not there before its first one. -/
def listed (list : String) (items : List Entries) : Entries :=
  if items.isEmpty then [] else [(list, .tables items)]

theorem listed_concat (list : String) (items : List Entries) (last : Entries) :
    listed list (items ++ [last]) = [(list, .tables (items ++ [last]))] := by
  simp [listed]

theorem add_item (ht : table ∉ names es) (hl : list ∉ names base) :
    Draft.add ⟨es ++ [(table, .table .header (base ++ listed list items))], cur⟩ (.item [table] list) =
      some ⟨es ++ [(table, .table .header (base ++ listed list (items ++ [[]])))], [table, list]⟩ := by
  cases items with
  | nil =>
    simp [Draft.add, Node.openItem, Node.update, listed, find?_last ht, replace_last ht,
      find?_eq_none hl]
  | cons item items =>
    simp [Draft.add, Node.openItem, Node.update, listed, find?_last ht, replace_last ht,
      find?_last hl, replace_last hl]

theorem add_itemEntry (items : List Entries) (ht : table ∉ names es) (hl : list ∉ names base)
    (hk : k ∉ names last) (v : Setting) :
    Draft.add ⟨es ++ [(table, .table .header (base ++ listed list (items ++ [last])))], [table, list]⟩
        (.entry [] k v) =
      some ⟨es ++ [(table, .table .header (base ++ listed list (items ++ [last ++ [(k, .leaf v)]])))],
        [table, list]⟩ := by
  have hput : Node.putKey [] k v .header last = some (last ++ [(k, .leaf v)]) :=
    putKey_new (by decide) hk v
  simp [Draft.add, Node.update, listed_concat, find?_last ht, replace_last ht, find?_last hl,
    replace_last hl, hput]

/-- The entries as they are read. -/
def leaves (es : List (String × Written)) : Entries := es.map fun e => (e.1, .leaf e.2.setting)

@[simp] theorem names_leaves (es : List (String × Written)) : names (leaves es) = es.map (·.1) := by
  simp [names, leaves]

/-- Entries with new names come into the table that is open, wherever it stands. -/
theorem foldlM_entries {place : Entries → Entries}
    (hadd : ∀ sub k v, k ∉ names sub → Draft.add ⟨place sub, cur⟩ (.entry [] k v) =
      some ⟨place (sub ++ [(k, .leaf v)]), cur⟩)
    (written : List (String × Written)) (sub : Entries)
    (hn : (names sub ++ written.map (·.1)).Nodup) :
    (entryStatements written).foldlM Draft.add ⟨place sub, cur⟩ =
      some ⟨place (sub ++ leaves written), cur⟩ := by
  induction written generalizing sub with
  | nil => simp [entryStatements, leaves]
  | cons e written ih =>
    have hk : e.1 ∉ names sub := by
      intro hmem
      exact (List.nodup_append.mp hn).2.2 _ hmem _ (List.mem_cons_self ..) rfl
    have hrest := ih (sub ++ [(e.1, .leaf e.2.setting)]) (by simpa using hn)
    simp only [entryStatements, List.map_cons, List.foldlM_cons, hadd sub e.1 e.2.setting hk,
      Option.bind_eq_bind, Option.bind_some]
    simpa [entryStatements, leaves] using hrest

theorem foldlM_table {t : WrittenTable} (cur : List String) (hitem : t.item = false)
    (ht : t.name ∉ names es) (hn : (t.entries.map (·.1)).Nodup) :
    t.statements.foldlM Draft.add ⟨es, cur⟩ =
      some ⟨es ++ [(t.name, .table .header (leaves t.entries))], [t.name]⟩ := by
  have hentries := foldlM_entries (fun sub k v hk => add_entry ht hk v) t.entries [] hn
  simp only [WrittenTable.statements, hitem, Bool.false_eq_true, if_false, List.foldlM_cons,
    add_header ht, Option.bind_eq_bind, Option.bind_some]
  simpa using hentries

/-- A table as it stands when all its lines are read. -/
def tableNode (t : WrittenTable) : String × Node := (t.name, .table .header (leaves t.entries))

theorem foldlM_tables (ts : List WrittenTable) (es : Entries) (cur : List String)
    (hitem : ∀ t ∈ ts, t.item = false) (hnames : (names es ++ ts.map (·.name)).Nodup)
    (hn : ∀ t ∈ ts, (t.entries.map (·.1)).Nodup) :
    ∃ cur', (ts.flatMap WrittenTable.statements).foldlM Draft.add ⟨es, cur⟩ =
      some ⟨es ++ ts.map tableNode, cur'⟩ := by
  induction ts generalizing es cur with
  | nil => exact ⟨cur, by simp⟩
  | cons t ts ih =>
    have ht : t.name ∉ names es := by
      intro hmem
      exact (List.nodup_append.mp hnames).2.2 _ hmem _ (List.mem_cons_self ..) rfl
    have hstep := foldlM_table cur (hitem t (List.mem_cons_self ..)) ht
      (hn t (List.mem_cons_self ..))
    obtain ⟨cur', hrest⟩ := ih (es ++ [tableNode t]) [t.name]
      (fun u hu => hitem u (List.mem_cons_of_mem _ hu)) (by simpa [tableNode] using hnames)
      fun u hu => hn u (List.mem_cons_of_mem _ hu)
    refine ⟨cur', ?_⟩
    rw [List.flatMap_cons, List.foldlM_append, hstep]
    simpa [tableNode] using hrest

theorem foldlM_item {t : WrittenTable} (hitem : t.item = true) (ht : "topics" ∉ names es)
    (hl : "list" ∉ names base) (hn : (t.entries.map (·.1)).Nodup) :
    t.statements.foldlM Draft.add
        ⟨es ++ [("topics", .table .header (base ++ listed "list" items))], cur⟩ =
      some ⟨es ++ [("topics", .table .header (base ++ listed "list" (items ++ [leaves t.entries])))],
        ["topics", "list"]⟩ := by
  have hentries := foldlM_entries (fun sub k v hk => add_itemEntry items ht hl hk v)
    t.entries [] hn
  simp only [WrittenTable.statements, hitem, if_true, List.foldlM_cons, add_item ht hl,
    Option.bind_eq_bind, Option.bind_some]
  simpa using hentries

theorem foldlM_items {ts : List WrittenTable} (items : List Entries) (cur : List String)
    (ht : "topics" ∉ names es) (hl : "list" ∉ names base)
    (hts : ∀ t ∈ ts, t.item = true ∧ (t.entries.map (·.1)).Nodup) :
    ∃ cur', (ts.flatMap WrittenTable.statements).foldlM Draft.add
        ⟨es ++ [("topics", .table .header (base ++ listed "list" items))], cur⟩ =
      some ⟨es ++ [("topics", .table .header (base ++ listed "list"
        (items ++ ts.map fun t => leaves t.entries)))], cur'⟩ := by
  induction ts generalizing items cur with
  | nil => exact ⟨cur, by simp⟩
  | cons t ts ih =>
    obtain ⟨hitem, hn⟩ := hts t (List.mem_cons_self ..)
    obtain ⟨cur', hrest⟩ := ih (items ++ [leaves t.entries]) ["topics", "list"]
      fun u hu => hts u (List.mem_cons_of_mem _ hu)
    refine ⟨cur', ?_⟩
    rw [List.flatMap_cons, List.foldlM_append, foldlM_item hitem ht hl hn]
    simpa using hrest

/-- The entries of a table as settings. -/
def asSettings (es : List (String × Written)) : List (String × Setting) :=
  es.map fun e => (e.1, e.2.setting)

theorem entriesToSettings_leaves (es : List (String × Written)) :
    Node.entriesToSettings (leaves es) = some (asSettings es) := by
  induction es with
  | nil => rfl
  | cons e es ih =>
    simp only [leaves, asSettings, List.map_cons] at ih ⊢
    simp [Node.entriesToSettings, Node.toSetting, ih]

theorem tableValue_asSettings {es : List (String × Written)} (h : dateMarker ∉ es.map (·.1)) :
    tableValue (asSettings es) = some (.table (asSettings es)) := by
  cases es with
  | nil => rfl
  | cons e es =>
    have he : e.1 ≠ dateMarker := fun he => h (by simp [he])
    simp [asSettings, tableValue, he]

theorem toSetting_leaves {o : Origin} {es : List (String × Written)}
    (h : dateMarker ∉ es.map (·.1)) :
    (Node.table o (leaves es)).toSetting = some (.table (asSettings es)) := by
  simp [Node.toSetting, entriesToSettings_leaves, tableValue_asSettings h]

theorem itemsToSettings_leaves {ts : List WrittenTable}
    (h : ∀ t ∈ ts, dateMarker ∉ t.entries.map (·.1)) :
    Node.itemsToSettings (ts.map fun t => leaves t.entries) =
      some (ts.map fun t => .table (asSettings t.entries)) := by
  induction ts with
  | nil => rfl
  | cons t ts ih =>
    simp [Node.itemsToSettings, entriesToSettings_leaves,
      tableValue_asSettings (h t (List.mem_cons_self ..)),
      ih fun u hu => h u (List.mem_cons_of_mem _ hu)]

end ServiceCatalog.Toml
