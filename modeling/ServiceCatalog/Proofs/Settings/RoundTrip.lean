import ServiceCatalog.CommandLine.Run
import ServiceCatalog.Proofs.Except
import ServiceCatalog.Proofs.Files.Change
import ServiceCatalog.Proofs.Settings.Limits
import ServiceCatalog.Proofs.Toml.Tables

/-!
Settings that are saved are loaded again as they were. The document that is printed is read as the
lines it was made of, the lines make the tables of the settings, and these stand over the defaults
entry by entry. A list of topics without any is written as well, and so is not the default one.
-/
namespace ServiceCatalog

open Toml

namespace Setting

variable {es acc : List (String × Setting)} {k : String} {v : Setting}

theorem lookUp_eq_none (h : k ∉ acc.map (·.1)) : lookUp k acc = none := by
  rw [lookUp, Option.map_eq_none_iff, List.find?_eq_none]
  intro e he hk
  exact h (List.mem_map.mpr ⟨e, he, beq_iff_eq.mp hk⟩)

theorem putEntry_new (h : k ∉ acc.map (·.1)) (v : Setting) : putEntry k v acc = acc ++ [(k, v)] := by
  induction acc with
  | nil => rfl
  | cons e acc ih =>
    have hne : e.1 ≠ k := fun he => h (by simp [he])
    simp [putEntry, hne, ih fun hk => h (List.mem_cons_of_mem _ hk)]

/-- Entries that stand on top as they stand alone: their names are small and differ. -/
structure Plain (es : List (String × Setting)) : Prop where
  nodup : (es.map (·.1)).Nodup
  small : ∀ e ∈ es, lower e.1 = e.1
  alone : ∀ e ∈ es, e.2.onTop none = e.2

theorem Plain.notMem {e : String × Setting} (h : Plain (acc ++ e :: es)) : e.1 ∉ acc.map (·.1) := by
  intro hmem
  have hn := h.nodup
  rw [List.map_append, List.nodup_append] at hn
  exact hn.2.2 _ hmem _ (List.mem_cons_self ..) rfl

theorem onTopEntries_append (h : Plain (acc ++ es)) :
    onTopEntries es (.table acc) = .table (acc ++ es) := by
  induction es generalizing acc with
  | nil => simp [onTopEntries]
  | cons e es ih =>
    have he : e ∈ acc ++ e :: es := by simp
    have happend : acc ++ e :: es = acc ++ [e] ++ es := by simp
    rw [onTopEntries, h.small e he]
    simp only [entries, lookUp_eq_none h.notMem, putEntry_new h.notMem, h.alone e he]
    rw [happend] at h ⊢
    exact ih h

theorem Plain.onTop (h : Plain es) : (Setting.table es).onTop none = .table es := by
  rw [Setting.onTop]
  exact onTopEntries_append h

theorem addLayer_append (h : Plain (acc ++ es)) (hpath : ∀ e ∈ es, Step.path e.1 = [.child e.1]) :
    addLayer (.table acc) es = .table (acc ++ es) := by
  induction es generalizing acc with
  | nil => simp [addLayer]
  | cons e es ih =>
    have he : e ∈ acc ++ e :: es := by simp
    have happend : acc ++ e :: es = acc ++ [e] ++ es := by simp
    rw [addLayer, List.foldl_cons, hpath e (List.mem_cons_self ..), put, h.small e he]
    simp only [entries, lookUp_eq_none h.notMem, putEntry_new h.notMem, h.alone e he]
    rw [happend] at h ⊢
    exact ih h fun d hd => hpath d (List.mem_cons_of_mem _ hd)

end Setting

/-! What each section is written and read as. -/

def StoreSettings.setting (s : StoreSettings) : Setting :=
  .table [("backend", .text s.storage.text), ("directory", .text s.directory),
    ("fetch_timeout_ms", .whole s.fetchTimeout), ("save_timeout_ms", .whole s.saveTimeout)]

def SinkSettings.setting (s : SinkSettings) : Setting :=
  .table [("path", .text s.path), ("publish_timeout_ms", .whole s.publishTimeout)]

def Topic.setting (t : Topic) : Setting := .table [("id", .whole t.id), ("name", .text t.name)]

def TopicSettings.setting (s : TopicSettings) : Setting :=
  .table [("ttl_seconds", .whole s.ttlSeconds), ("list", .list (s.list.map Topic.setting))]

def LogSettings.setting (s : LogSettings) : Setting :=
  .table [("log_level", .text s.level), ("json", .flag s.json)]

theorem StoreSettings.ofSetting_setting (s : StoreSettings) : ofSetting s.setting = some s := by
  have hstorage : Setting.variant? Storage.names (.text s.storage.text) = some s.storage := by
    cases s.storage <;> decide
  simp [setting, ofSetting, Setting.isRecord, Setting.member, Setting.member?, Setting.lookUp,
    hstorage, Setting.text?, Setting.nat?]

theorem SinkSettings.ofSetting_setting (s : SinkSettings) : ofSetting s.setting = some s := by
  simp [setting, ofSetting, Setting.isRecord, Setting.member, Setting.member?, Setting.lookUp,
    Setting.text?, Setting.nat?]

theorem Topic.ofSetting_setting {t : Topic} (h : t.id < 2 ^ 32) : ofSetting t.setting = some t := by
  have hid : Setting.nat32? (.whole t.id) = some t.id := by
    simp [Setting.nat32?, Setting.nat?]
    omega
  simp [setting, ofSetting, Setting.isRecord, Setting.member?, Setting.lookUp, hid, Setting.text?]

theorem TopicSettings.listOf_setting {ts : List Topic} (h : ∀ t ∈ ts, t.id < 2 ^ 32) :
    listOf (.list (ts.map Topic.setting)) = some ts := by
  rw [listOf]
  induction ts with
  | nil => rfl
  | cons t ts ih =>
    have ht := Topic.ofSetting_setting (h t (List.mem_cons_self ..))
    have hts := ih fun u hu => h u (List.mem_cons_of_mem _ hu)
    simp [ht, hts]

theorem TopicSettings.ofSetting_setting {s : TopicSettings} (h : ∀ t ∈ s.list, t.id < 2 ^ 32) :
    ofSetting s.setting = some s := by
  simp [setting, ofSetting, Setting.isRecord, Setting.member, Setting.member?, Setting.lookUp,
    Setting.nat?, listOf_setting h]

theorem LogSettings.ofSetting_setting (s : LogSettings) : ofSetting s.setting = some s := by
  simp [setting, ofSetting, Setting.isRecord, Setting.member, Setting.member?, Setting.lookUp,
    Setting.text?, Setting.bool?]

namespace Settings

variable {s : Settings}

/-- The settings as the entries of a document. -/
def layer (s : Settings) : List (String × Setting) :=
  [("store", s.store.setting), ("sink", s.sink.setting), ("topics", s.topics.setting),
    ("observability", s.log.setting)]

theorem ofSetting_layer (h : ∀ t ∈ s.topics.list, t.id < 2 ^ 32) :
    ofSetting (.table s.layer) = some s := by
  simp [layer, ofSetting, Setting.isRecord, Setting.member, Setting.member?, Setting.lookUp,
    StoreSettings.ofSetting_setting, SinkSettings.ofSetting_setting,
    TopicSettings.ofSetting_setting h, LogSettings.ofSetting_setting]

theorem plain_layer (s : Settings) : Setting.Plain s.layer where
  nodup := by simp [layer]
  small := by
    simp only [layer, List.forall_mem_cons, List.not_mem_nil, false_imp_iff, implies_true, and_true]
    decide
  alone := by
    simp only [layer, List.forall_mem_cons, List.not_mem_nil, false_imp_iff, implies_true, and_true]
    refine ⟨?_, ?_, ?_, ?_⟩
    all_goals
      refine Setting.Plain.onTop ⟨by simp, ?_, by simp [Setting.onTop]⟩
      simp only [List.forall_mem_cons, List.not_mem_nil, false_imp_iff, implies_true, and_true]
      decide

/-- Over the defaults the entries stand as they are. -/
theorem addLayer_layer (s : Settings) : Setting.addLayer (.table []) s.layer = .table s.layer := by
  refine Setting.addLayer_append s.plain_layer ?_
  simp only [layer, List.forall_mem_cons, List.not_mem_nil, false_imp_iff, implies_true, and_true]
  decide

/-- The list of topics comes into its section; without topics the section names an empty list. -/
theorem foldlM_topics (es : Entries) (ht : "topics" ∉ names es) (t : TopicSettings)
    (cur : List String) :
    ∃ cur', ((t.list.map topicTable).flatMap WrittenTable.statements).foldlM Draft.add
        ⟨es ++ [("topics", .table .header (leaves (topicsEntries t)))], cur⟩ =
      some ⟨es ++ [("topics", .table .header (leaves (topicsEntries t) ++
        listed "list" ((t.list.map topicTable).map fun u => leaves u.entries)))], cur'⟩ := by
  cases hlist : t.list with
  | nil => exact ⟨cur, by simp [listed]⟩
  | cons u us =>
    have hl : "list" ∉ names (leaves (topicsEntries t)) := by
      simp [topicsEntries, hlist]
    have hts : ∀ w ∈ (u :: us).map topicTable, w.item = true ∧ (w.entries.map (·.1)).Nodup := by
      intro w hw
      obtain ⟨topic, -, rfl⟩ := List.mem_map.mp hw
      exact ⟨rfl, by simp [topicTable]⟩
    simpa [listed] using foldlM_items [] cur ht hl hts

theorem toSetting_topics (t : TopicSettings) :
    (Node.table .header (leaves (topicsEntries t) ++
      listed "list" ((t.list.map topicTable).map fun u => leaves u.entries))).toSetting =
      some t.setting := by
  cases hlist : t.list with
  | nil =>
    have hnone : listed "list" ([] : List Entries) = [] := rfl
    rw [List.map_nil, List.map_nil, hnone, List.append_nil, toSetting_leaves]
    · simp [topicsEntries, hlist, asSettings, TopicSettings.setting, Written.setting]
    · simp [topicsEntries, hlist, dateMarker]
  | cons u us =>
    have hitems : Node.itemsToSettings (((u :: us).map topicTable).map fun w => leaves w.entries) =
        some ((u :: us).map Topic.setting) := by
      rw [itemsToSettings_leaves]
      · simp [topicTable, asSettings, Topic.setting, Written.setting, Function.comp_def]
      · intro w hw
        obtain ⟨topic, -, rfl⟩ := List.mem_map.mp hw
        simp [topicTable, dateMarker]
    have hlisted : listed "list" (((u :: us).map topicTable).map fun w => leaves w.entries) =
        [("list", .tables (((u :: us).map topicTable).map fun w => leaves w.entries))] := rfl
    have hbase : leaves (topicsEntries t) = [("ttl_seconds", .leaf (.whole t.ttlSeconds))] := by
      simp [topicsEntries, hlist, leaves, Written.setting]
    rw [hlisted, hbase]
    simp only [List.cons_append, List.nil_append, Node.toSetting, Node.entriesToSettings, hitems]
    simp [tableValue, dateMarker, TopicSettings.setting, hlist]

def storeTable (s : StoreSettings) : WrittenTable :=
  { name := "store", entries := [("backend", .text s.storage.text), ("directory", .text s.directory),
      ("fetch_timeout_ms", .number s.fetchTimeout), ("save_timeout_ms", .number s.saveTimeout)] }

def sinkTable (s : SinkSettings) : WrittenTable :=
  { name := "sink", entries := [("path", .text s.path),
      ("publish_timeout_ms", .number s.publishTimeout)] }

def topicsTable (s : TopicSettings) : WrittenTable := { name := "topics", entries := topicsEntries s }

def logTable (s : LogSettings) : WrittenTable :=
  { name := "observability", entries := [("log_level", .text s.level), ("json", .flag s.json)] }

theorem tables_eq (s : Settings) : s.tables =
    [storeTable s.store, sinkTable s.sink, topicsTable s.topics] ++ s.topics.list.map topicTable ++
      [logTable s.log] := rfl

theorem nodup_topicsEntries (t : TopicSettings) : ((topicsEntries t).map (·.1)).Nodup := by
  unfold topicsEntries
  split <;> simp

theorem foldlM_settings (s : Settings) : ∃ cur,
    (s.tables.flatMap WrittenTable.statements).foldlM Draft.add {} =
      some ⟨[tableNode (storeTable s.store), tableNode (sinkTable s.sink),
        ("topics", .table .header (leaves (topicsEntries s.topics) ++
          listed "list" ((s.topics.list.map topicTable).map fun u => leaves u.entries))),
        tableNode (logTable s.log)], cur⟩ := by
  obtain ⟨cur, hsections⟩ :=
    foldlM_tables [storeTable s.store, sinkTable s.sink, topicsTable s.topics] [] []
      (by simp [storeTable, sinkTable, topicsTable])
      (by simp [names, storeTable, sinkTable, topicsTable])
      (by simp [storeTable, sinkTable, topicsTable, nodup_topicsEntries])
  obtain ⟨cur', hlist⟩ := foldlM_topics [tableNode (storeTable s.store), tableNode (sinkTable s.sink)]
    (by simp [names, tableNode, storeTable, sinkTable]) s.topics cur
  obtain ⟨cur'', hlog⟩ := foldlM_tables [logTable s.log]
    [tableNode (storeTable s.store), tableNode (sinkTable s.sink),
      ("topics", .table .header (leaves (topicsEntries s.topics) ++
        listed "list" ((s.topics.list.map topicTable).map fun u => leaves u.entries)))] cur'
    (by simp [logTable]) (by simp [names, tableNode, storeTable, sinkTable, logTable])
    (by simp [logTable])
  refine ⟨cur'', ?_⟩
  rw [tables_eq, List.flatMap_append, List.flatMap_append, List.foldlM_append, List.foldlM_append,
    hsections]
  simp only [Option.bind_eq_bind, Option.bind_some]
  exact (congrArg (Option.bind · _) hlist).trans hlog

theorem ofStatements_tables (s : Settings) :
    ofStatements (s.tables.flatMap WrittenTable.statements) = some s.layer := by
  obtain ⟨cur, hfold⟩ := s.foldlM_settings
  have htable : ∀ t : WrittenTable, dateMarker ∉ t.entries.map (·.1) →
      (tableNode t).2.toSetting = some (.table (asSettings t.entries)) := fun t h => toSetting_leaves h
  have hstore := htable (storeTable s.store) (by simp [storeTable, dateMarker])
  have hsink := htable (sinkTable s.sink) (by simp [sinkTable, dateMarker])
  have hlog := htable (logTable s.log) (by simp [logTable, dateMarker])
  rw [ofStatements, hfold]
  simp only [Option.bind_eq_bind, Option.bind_some, Node.entriesToSettings, hstore, hsink, hlog,
    toSetting_topics]
  rfl

/-- All numbers of the settings. -/
def numbers (s : Settings) : List Nat :=
  [s.store.fetchTimeout, s.store.saveTimeout, s.sink.publishTimeout, s.topics.ttlSeconds] ++
    s.topics.list.map (·.id)

theorem hasForm_iff (s : Settings) : (∀ t ∈ s.tables, ∀ e ∈ t.entries, e.2.hasForm = true) ↔
    ∀ n ∈ s.numbers, n ≤ maxSigned := by
  have hnumber : ∀ n, Written.hasForm (.number n) = true ↔ n ≤ maxSigned := fun n =>
    decide_eq_true_iff
  have htext : ∀ u, Written.hasForm (.text u) = true := fun _ => rfl
  have hflag : ∀ b, Written.hasForm (.flag b) = true := fun _ => rfl
  have htopics : (∀ e ∈ topicsEntries s.topics, e.2.hasForm = true) ↔
      s.topics.ttlSeconds ≤ maxSigned := by
    rw [topicsEntries, List.forall_mem_cons, hnumber, and_iff_left_iff_imp]
    intro _ e he
    split at he
    · rw [List.mem_singleton.mp he]
      rfl
    · cases he
  have hlist : (∀ t ∈ s.topics.list.map topicTable, ∀ e ∈ t.entries, e.2.hasForm = true) ↔
      ∀ n ∈ s.topics.list.map (·.id), n ≤ maxSigned := by
    simp only [List.forall_mem_map, topicTable, List.forall_mem_cons, hnumber, htext,
      List.not_mem_nil, false_imp_iff, implies_true, and_true]
  simp only [tables_eq, numbers, List.forall_mem_append, List.forall_mem_cons, storeTable, sinkTable,
    topicsTable, logTable, hlist, htopics, hnumber, htext, hflag]
  simp only [List.not_mem_nil, false_imp_iff, implies_true, and_true, true_and, and_assoc]

theorem toText?_eq_some_iff {text : String} : s.toText? = some text ↔
    (∀ n ∈ s.numbers, n ≤ maxSigned) ∧ text = String.ofList (printTables s.tables) := by
  rw [← hasForm_iff, toText?, Option.ite_none_right_eq_some, Option.some.injEq]
  simp only [List.all_eq_true]
  exact and_congr_right fun _ => eq_comm

/-- Only a number can lack a form. -/
theorem toText?_eq_none_iff : s.toText? = none ↔ ∃ n ∈ s.numbers, 2 ^ 63 ≤ n := by
  have hle : ∀ n, ¬n ≤ maxSigned ↔ 2 ^ 63 ≤ n := fun n => by
    rw [maxSigned_eq]
    omega
  simp only [← hle]
  rw [← not_iff_not, ← ne_eq, Option.ne_none_iff_exists', not_exists]
  simp only [toText?_eq_some_iff, exists_and_left, exists_eq, and_true, not_and, not_not]

/-- The names that a document of settings writes, but for the list's own. -/
def bareNames : List String :=
  ["store", "backend", "directory", "fetch_timeout_ms", "save_timeout_ms", "sink", "path",
    "publish_timeout_ms", "topics", "ttl_seconds", "list", "id", "name", "observability",
    "log_level", "json"]

theorem isBare_of_mem {k : String} (h : k ∈ bareNames) : IsBare k := by
  have hall : ∀ k ∈ bareNames, IsBare k := by decide
  exact hall k h

theorem names_tables (s : Settings) : ∀ t ∈ s.tables, (t.item = false → t.name ∈ bareNames) ∧
    (t.item = true → t.name = "topics.list") ∧ ∀ e ∈ t.entries, e.1 ∈ bareNames := by
  have htopics : ∀ e ∈ topicsEntries s.topics, e.1 ∈ bareNames := by
    unfold topicsEntries
    split <;> simp [bareNames]
  have hlist : ∀ topic ∈ s.topics.list, ∀ e ∈ (topicTable topic).entries, e.1 ∈ bareNames := by
    simp [topicTable, bareNames]
  rw [tables_eq]
  simp only [List.forall_mem_append, List.forall_mem_cons, List.forall_mem_map]
  refine ⟨⟨⟨?_, ?_, ⟨?_, ?_, htopics⟩, ?_⟩, fun topic ht => ⟨?_, fun _ => rfl, hlist topic ht⟩⟩, ?_, ?_⟩
  all_goals simp [storeTable, sinkTable, topicsTable, topicTable, logTable, bareNames]

theorem readable_tables (h : ∀ n ∈ s.numbers, n ≤ maxSigned) : ∀ t ∈ s.tables, t.Readable := by
  intro t ht
  obtain ⟨hheader, hitem, hkeys⟩ := s.names_tables t ht
  exact ⟨fun h => isBare_of_mem (hheader h), hitem,
    fun e he => ⟨isBare_of_mem (hkeys e he), s.hasForm_iff.mpr h t ht e he⟩⟩

/-- The document is read as the settings it was printed from. -/
theorem ofText?_of_toText? {text : String} (h : s.toText? = some text) :
    Toml.ofText? text = some s.layer := by
  obtain ⟨hnumbers, rfl⟩ := toText?_eq_some_iff.mp h
  obtain ⟨hlength, hread⟩ := readAs_printTables (readable_tables hnumbers)
  have hmark : Text.dropMark (printTables s.tables) = printTables s.tables := rfl
  rw [Toml.ofText?, String.toList_ofList, hmark]
  simp only [hread _ (Nat.lt_succ_of_le hlength), Option.bind_eq_bind, Option.bind_some,
    ofStatements_tables]

theorem read_eq_layer {text : String} (h : s.toText? = some text) :
    FileForm.toml.readEntries text = some s.layer := by
  rw [FileForm.readEntries, FileForm.read, ofText?_of_toText? h]
  rfl

end Settings

open CommandLine

/-- The last name of the path ends in `.toml`. -/
def NamesToml (path : String) : Prop :=
  ∃ name, (Path.ofText path).names.getLast? = some name ∧ FileForm.endingOf name = some "toml"

/-- No variable's name starts with the prefix, in any case. -/
def Environment.Silent (env : Environment) : Prop :=
  ∀ v ∈ env, ¬namePrefix <+: v.1.toList.map Setting.lowerChar

theorem Environment.layer_of_silent {env : Environment} (h : env.Silent) : env.layer = [] := by
  rw [layer, List.filterMap_eq_nil_iff]
  intro v hv
  rw [path?, if_neg, Option.map_none]
  exact fun hp => h v hv (List.isPrefixOf_iff_prefix.mp hp)

namespace Settings

variable {files files' : FileTree} {env : Environment} {s : Settings} {path name : String}

/-- Saved settings are found under the form that the name of their file stands for. -/
theorem locate_of_write {form : FileForm} (h : writeSettings files s path = (.ok (), files'))
    (hname : (Path.ofText path).names.getLast? = some name) (hform : FileForm.ofName name = some form) :
    ∃ text, s.toText? = some text ∧ locate files' path = some (form, text) := by
  unfold writeSettings at h
  split at h
  · cases h
  · next text htext =>
    split at h
    · next written hwrite =>
      cases h
      have hread := FileTree.read_of_write hwrite
      have hmark : Text.dropMark text.toList = text.toList := by
        obtain ⟨-, rfl⟩ := toText?_eq_some_iff.mp htext
        rw [String.toList_ofList]
        rfl
      exact ⟨text, htext, by simp [locate, fileText?, hread, hmark, hname, hform]⟩
    · cases h

theorem load_of_write (hs : s.nonPositive? = none) (hids : ∀ t ∈ s.topics.list, t.id < 2 ^ 32)
    (henv : env.Silent) (hpath : NamesToml path)
    (h : writeSettings files s path = (.ok (), files')) : load files' env (some path) = .ok s := by
  obtain ⟨name, hname, hending⟩ := hpath
  have hform : FileForm.ofName name = some .toml := by
    rw [FileForm.ofName, hending]
    rfl
  obtain ⟨text, htext, hlocate⟩ := locate_of_write h hname hform
  have hlayer : fileLayer files' path = some s.layer := by
    simp [fileLayer, hlocate, read_eq_layer htext]
  simp only [load, sourceLayer, hlayer, ofLayers, Environment.layer_of_silent henv,
    List.foldl_cons, List.foldl_nil, addLayer_layer]
  simp only [Setting.addLayer, List.foldl_nil, ofSetting_layer hids, hs]

/-- Settings that are accepted are loaded from the file that they were saved to, if its name says that
it is a document of tables. Where a number has no form, no file is touched. -/
theorem load_saved {s : Settings} (hs : s.nonPositive? = none)
    (hids : ∀ t ∈ s.topics.list, t.id < 2 ^ 32) (files files' : FileTree) (path : String) :
    (writeSettings files s path = (.ok (), files') → NamesToml path →
      ∀ env : Environment, env.Silent → load files' env (some path) = .ok s) ∧
    (writeSettings files s path = (.error .noForm, files') → files' = files) ∧
    ((writeSettings files s path).1 = .error .noForm ↔ ∃ n ∈ s.numbers, 2 ^ 63 ≤ n) := by
  refine ⟨fun h hpath env henv => load_of_write hs hids henv hpath h, fun h => ?_, ?_⟩
  · unfold writeSettings at h
    repeat' split at h
    all_goals cases h
    rfl
  · rw [← toText?_eq_none_iff]
    unfold writeSettings
    cases htext : s.toText? with
    | none => simp
    | some text => cases hwrite : files.write (.ofText path) text <;> simp [hwrite]

/-- Quotes of both kinds, a line end, and no topics. -/
theorem load_saved_quoted :
    let s : Settings := {
      store := { storage := .memory, directory := "it's a\n\"\"\"place\"\"\" \\ '''" }
      topics := { list := [] } }
    let t : Settings := { s with sink := { publishTimeout := 2 ^ 63 } }
    let files := (writeSettings {} s "c.toml").2
    s.nonPositive? = none ∧ NamesToml "c.toml" ∧ Environment.Silent [("PATH", "/bin")] ∧
      writeSettings {} s "c.toml" = (.ok (), files) ∧
      load files [("PATH", "/bin")] (some "c.toml") = .ok s ∧
      writeSettings files t "c.toml" = (.error .noForm, files) := by
  intro s t files
  have hs : s.nonPositive? = none := by decide
  have hpath : NamesToml "c.toml" := ⟨"c.toml", by decide, by decide⟩
  have henv : Environment.Silent [("PATH", "/bin")] := by
    unfold Environment.Silent
    decide
  have hids : ∀ u ∈ s.topics.list, u.id < 2 ^ 32 := fun _ hu => nomatch hu
  have ht : t.nonPositive? = none := by decide
  have hwrite : writeSettings {} s "c.toml" = (.ok (), files) := Prod.ext (by decide +kernel) rfl
  have hfails : (writeSettings files t "c.toml").1 = .error .noForm :=
    (load_saved ht hids files files "c.toml").2.2.mpr ⟨2 ^ 63, by decide, Nat.le_refl _⟩
  refine ⟨hs, hpath, henv, hwrite, (load_saved hs hids {} files "c.toml").1 hwrite hpath _ henv, ?_⟩
  exact Prod.ext hfails ((load_saved ht hids files _ "c.toml").2.1 (Prod.ext hfails rfl))

/-- No JSON starts like a document of settings. -/
theorem document?_of_toText? {text : String} (h : s.toText? = some text) :
    Json.document? text = none := by
  obtain ⟨-, rfl⟩ := toText?_eq_some_iff.mp h
  obtain ⟨more, hmore⟩ : ∃ more, printTables s.tables = '[' :: 's' :: more := by
    simp [tables_eq, printTables, WrittenTable.chars, WrittenTable.header, storeTable]
  have hword : Json.readLiteral ('s' :: more) = none := by
    simp [Json.readLiteral, Json.literals]
  have hvalue : ∀ fuel, Json.readValue (fuel + 3) Json.maxDepth ('[' :: 's' :: more) = none := by
    intro fuel
    simp [Json.readValue, Json.readItems, Json.skipBlanks, Json.isBlankChar, Json.maxDepth, hword]
  rw [Json.document?, Json.ofText?, String.toList_ofList, hmore]
  simp only [List.length_cons, Nat.mul_add, Nat.add_assoc]
  rw [hvalue]
  rfl

/-- The end of a file's name says how it is read, and not how it is written. -/
theorem load_saved_json :
    ({} : Settings).nonPositive? = none ∧ (writeSettings {} {} "c.json").1 = .ok () ∧
      load (writeSettings {} {} "c.json").2 [] (some "c.json") = .error .unusable := by
  have hok : (writeSettings {} {} "c.json").1 = .ok () := by decide +kernel
  refine ⟨by decide, hok, ?_⟩
  have hwrite : writeSettings {} {} "c.json" = (.ok (), (writeSettings {} {} "c.json").2) :=
    Prod.ext hok rfl
  have hname : (Path.ofText "c.json").names.getLast? = some "c.json" := by decide
  generalize (writeSettings {} {} "c.json").2 = files at hwrite ⊢
  have hform : FileForm.ofName "c.json" = some .json := by decide
  obtain ⟨text, htext, hlocate⟩ := locate_of_write hwrite hname hform
  have hlayer : fileLayer files "c.json" = none := by
    simp [fileLayer, hlocate, FileForm.readEntries, FileForm.read, document?_of_toText? htext]
  rw [load, sourceLayer, hlayer]

end Settings
end ServiceCatalog
