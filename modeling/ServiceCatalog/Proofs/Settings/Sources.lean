import ServiceCatalog.Proofs.Json.RoundTrip
import ServiceCatalog.Proofs.Settings.Guesses
import ServiceCatalog.Proofs.Settings.Limits
import ServiceCatalog.Proofs.Settings.Named
import ServiceCatalog.Settings.Load

/-!
Where each setting comes from. A source may give any of the settings; over the defaults each of them is
what the last source gives that gives it at all, whatever the sources say of the others.
-/
namespace ServiceCatalog

/-- What a source gives of the settings. -/
abbrev Given := (n : SettingName) → Option n.Value

namespace Setting

/-- A number as it is given: an integer, maybe negative, or a text of one, but no fraction, which is
read as another number than it is. -/
def integer? : Setting → Option Int
  | .whole i => some i
  | .text s => (natOfWord s).map Int.ofNat
  | _ => none

/-- A number that is given is read unless it is negative. -/
theorem nat?_of_integer? {v : Setting} {i : Int} (h : v.integer? = some i) :
    v.nat?.map Int.ofNat = if 0 ≤ i then some i else none := by
  cases v with
  | whole j =>
    cases h
    rw [nat?]
    split
    · next hi => simp [Int.toNat_of_nonneg hi]
    · rfl
  | text s =>
    obtain ⟨m, hm, rfl⟩ := Option.map_eq_some_iff.mp h
    rw [nat?, hm, Option.map_some]
    exact (if_pos (Int.natCast_nonneg m)).symm
  | _ => cases h

end Setting

namespace SettingName

/-- What a value in a file gives: what the setting is read as there, but an integer is given also where
it is negative, and a storage is given by its name. -/
def read : (n : SettingName) → Setting → Option n.Value
  | .storage, .table _ => none
  | .storage, v => v.variant? Storage.names
  | .directory, v | .path, v | .level, v => v.text?
  | .fetchTimeout, v | .saveTimeout, v | .publishTimeout, v | .ttlSeconds, v => v.integer?
  | .topics, v => TopicSettings.listOf v
  | .json, v => v.bool?

/-- What the text of a variable gives: the name of a storage in any case, an integer of 64 bits, or a
word for a truth value. -/
def ofText? : (n : SettingName) → String → Option n.Value
  | .storage, s => (Storage.names.find? fun e => e.1 == Setting.lower s).map (·.2)
  | .fetchTimeout, s | .saveTimeout, s | .publishTimeout, s | .ttlSeconds, s =>
    Numeral.signed64? s.toList
  | .json, s => Setting.boolOfWord s
  | .directory, _ | .path, _ | .level, _ | .topics, _ => none

/-- Whether a value can be had: only a number can be out of range, when it is negative. -/
def InRange : (n : SettingName) → n.Value → Prop
  | .fetchTimeout, i | .saveTimeout, i | .publishTimeout, i | .ttlSeconds, i => (0 : Int) ≤ i
  | .storage, _ | .directory, _ | .path, _ | .topics, _ | .level, _ | .json, _ => True

theorem isLeaf_of_read {n : SettingName} {v : Setting} {x : n.Value} (h : n.read v = some x) :
    v.IsLeaf := by
  refine Setting.isLeaf_of_ne_table ?_
  rintro es rfl
  cases n <;> cases h

/-- What is given is what is read, if it is in range. -/
theorem decode_of_read {n : SettingName} {v : Setting} {x : n.Value} (h : n.read v = some x) :
    (n.InRange x → n.decode v = some x) ∧ (¬n.InRange x → n.decode v = none) := by
  have hnumber : ∀ {i : Int}, v.integer? = some i →
      (0 ≤ i → v.nat?.map Int.ofNat = some i) ∧ (¬0 ≤ i → v.nat?.map Int.ofNat = none) := by
    intro i hi
    rw [Setting.nat?_of_integer? hi]
    exact ⟨fun h => if_pos h, fun h => if_neg h⟩
  cases n with
  | fetchTimeout | saveTimeout | publishTimeout | ttlSeconds => exact hnumber h
  | storage =>
    refine ⟨fun _ => ?_, fun hn => absurd trivial hn⟩
    cases v with
    | table es => cases h
    | _ => exact h
  | _ => exact ⟨fun _ => h, fun hn => absurd trivial hn⟩

end SettingName

/-- What a layer gives: it leaves every section a table, and whatever it says of a setting is what is
given. -/
structure Given.Stands (g : Given) (layer : List (String × Setting)) : Prop where
  orderly : ∀ e ∈ layer, ∀ n : SettingName, Setting.Orderly n.part n.key e
  told : ∀ e ∈ layer, ∀ (n : SettingName) (v : Setting), Setting.Says n.part n.key e v →
    ∃ x, n.read v = some x ∧ g n = some x
  all : ∀ (n : SettingName) (x : n.Value), g n = some x →
    ∃ e ∈ layer, ∃ v, Setting.Says n.part n.key e v

namespace Given

variable {g g' : Given} {t : Setting} {es layer : List (String × Setting)} {s : Settings}

/-- What is given by the later of two sources, and else by the earlier one. -/
def above (g' g : Given) : Given := fun n => (g' n).or (g n)

/-- In a tree stands what is given and nothing else. -/
def Holds (g : Given) (t : Setting) : Prop :=
  ∀ n : SettingName, t.IsSection n.part ∧ (t.at? n.part n.key).map n.read = (g n).map some

theorem holds_none : Holds (fun _ => none) (.table []) := fun _ => ⟨fun _ hu => (nomatch hu), rfl⟩

/-- A layer gives what it gives, and the rest is as before. -/
theorem Holds.addLayer (h : g.Holds t) (hg : g'.Stands layer) : (g'.above g).Holds (t.addLayer layer) := by
  intro n
  obtain ⟨hsection, hat⟩ := h n
  have hleaf : ∀ e ∈ layer, ∀ v, Setting.Says n.part n.key e v → v.IsLeaf := by
    intro e he v hv
    obtain ⟨x, hx, -⟩ := hg.told e he n v hv
    exact SettingName.isLeaf_of_read hx
  obtain ⟨hsection', hlayer⟩ :=
    Setting.at?_addLayer (fun e he => hg.orderly e he n) hleaf hsection
  refine ⟨hsection', ?_⟩
  rcases hlayer with ⟨e, he, v, hv, hv'⟩ | ⟨hnone, hkeep⟩
  · obtain ⟨x, hx, hgx⟩ := hg.told e he n v hv
    rw [hv', above, hgx, Option.map_some, hx, Option.some_or, Option.map_some]
  · have hgn : g' n = none := by
      by_contra hne
      obtain ⟨x, hx⟩ := Option.ne_none_iff_exists'.mp hne
      obtain ⟨e, he, v, hv⟩ := hg.all n x hx
      exact hnone e he v hv
    rw [hkeep, above, hgn, Option.none_or, hat]

/-- A setting that stands in a tree is read if it is in range. -/
theorem Holds.decodeOr (h : g.Holds t) (n : SettingName) :
    (n.InRange ((g n).getD n.default) →
      n.decodeOr (t.at? n.part n.key) = some ((g n).getD n.default)) ∧
    (¬n.InRange ((g n).getD n.default) → n.decodeOr (t.at? n.part n.key) = none) := by
  have hat := (h n).2
  cases hv : t.at? n.part n.key with
  | none =>
    rw [hv] at hat
    cases hg : g n with
    | some x => rw [hg] at hat; cases hat
    | none =>
      refine ⟨fun _ => rfl, fun hn => absurd ?_ hn⟩
      cases n <;> first | trivial | exact Int.natCast_nonneg _
  | some v =>
    rw [hv] at hat
    cases hg : g n with
    | none => rw [hg] at hat; cases hat
    | some x =>
      rw [hg] at hat
      exact SettingName.decode_of_read (Option.some.inj hat)

end Given

/-- The settings of some values, numbers being cut at zero. -/
def Settings.ofValues (x : (n : SettingName) → n.Value) : Settings where
  store :=
    { storage := x .storage, directory := x .directory,
      fetchTimeout := Int.toNat (x .fetchTimeout), saveTimeout := Int.toNat (x .saveTimeout) }
  sink := { path := x .path, publishTimeout := Int.toNat (x .publishTimeout) }
  topics := { ttlSeconds := Int.toNat (x .ttlSeconds), list := x .topics }
  log := { level := x .level, json := x .json }

theorem SettingName.value_ofValues {x : (n : SettingName) → n.Value}
    (h : ∀ n : SettingName, n.InRange (x n)) (n : SettingName) : n.value (.ofValues x) = x n := by
  have hn := h n
  cases n with
  | fetchTimeout | saveTimeout | publishTimeout | ttlSeconds => exact Int.toNat_of_nonneg hn
  | _ => rfl

namespace Given

variable {g : Given} {es : List (String × Setting)} {s : Settings}

/-- The settings that are read are those that are given, and they are read unless a number is
negative. -/
theorem Holds.ofSetting (h : g.Holds (.table es)) :
    (∀ s, Settings.ofSetting (.table es) = some s → ∀ n : SettingName, n.value s = (g n).getD n.default) ∧
    ((∃ s, Settings.ofSetting (.table es) = some s) ↔
      ∀ n : SettingName, n.InRange ((g n).getD n.default)) := by
  have hread : ∀ s, Settings.ofSetting (.table es) = some s ↔
      ∀ n : SettingName, n.decodeOr ((Setting.table es).at? n.part n.key) = some (n.value s) :=
    fun s => Settings.ofSetting_eq_some_iff fun n => (h n).1
  have hrange : ∀ s, Settings.ofSetting (.table es) = some s →
      ∀ n : SettingName, n.InRange ((g n).getD n.default) := by
    intro s hs n
    by_contra hn
    have := (h.decodeOr n).2 hn
    rw [(hread s).mp hs n] at this
    cases this
  refine ⟨fun s hs n => ?_, fun ⟨s, hs⟩ => hrange s hs, fun hn => ?_⟩
  · have := (h.decodeOr n).1 (hrange s hs n)
    rw [(hread s).mp hs n] at this
    exact Option.some.inj this
  · refine ⟨.ofValues fun n => (g n).getD n.default, (hread _).mpr fun n => ?_⟩
    rw [SettingName.value_ofValues hn]
    exact (h.decodeOr n).1 (hn n)

end Given

namespace SettingName

/-- The path of a setting. -/
def dotted (n : SettingName) : String := n.part ++ "." ++ n.key

theorem path_dotted (n : SettingName) : Step.path n.dotted = [.child n.part, .child n.key] := by
  cases n <;> decide

theorem lower_key (n : SettingName) : Setting.lower n.key = n.key := by
  cases n <;> decide

/-- What is said of another setting is said elsewhere. -/
theorem apart_of_ne {m n : SettingName} (h : m ≠ n) :
    Step.Apart n.part n.key (Step.path m.dotted) := by
  rw [path_dotted]
  revert h
  cases m <;> cases n <;> decide

/-- The text of a variable is taken for something that is read as it is. -/
theorem read_value_of_ofText? {n : SettingName} {s : String} {x : n.Value} (h : n.ofText? s = some x) :
    n.read (Environment.value s) = some x := by
  cases n with
  | fetchTimeout | saveTimeout | publishTimeout | ttlSeconds =>
    rw [Environment.value_of_signed64? h]
    rfl
  | storage =>
    obtain ⟨e, he, -⟩ := Option.map_eq_some_iff.mp h
    have hname := List.find?_some he
    rw [beq_iff_eq] at hname
    have hforeign : ∀ e ∈ Storage.names, e.1.toList.any Numeral.isForeign = true ∧
        e.1 ≠ "true" ∧ e.1 ≠ "false" := by
      simp only [Storage.names, List.forall_mem_cons]
      decide
    obtain ⟨hletter, htruth⟩ := hforeign e (List.mem_of_find?_eq_some he)
    rw [Environment.value_of_lower hname.symm hletter htruth]
    exact h
  | json => exact Environment.bool?_value h
  | _ => cases h

end SettingName

namespace Environment

variable {env : Environment} {given : Given} {s : String} {v : Setting}

theorem value_ne_table (s : String) (es : List (String × Setting)) : value s ≠ .table es := by
  unfold value
  dsimp only
  repeat' split
  all_goals exact fun h => nomatch h

/-- What the variables give: each of those that count gives a setting or speaks of none. -/
structure Gives (env : Environment) (given : Given) : Prop where
  told : ∀ v ∈ env, ∀ p ∈ path? v.1,
    (∃ (n : SettingName) (x : n.Value), p = n.dotted ∧ n.ofText? v.2 = some x ∧ given n = some x) ∨
      ∀ n : SettingName, Step.Apart n.part n.key (Step.path p)
  all : ∀ (n : SettingName) (x : n.Value), given n = some x →
    ∃ v ∈ env, n.dotted ∈ path? v.1

theorem mem_layer {e : String × Setting} :
    e ∈ env.layer ↔ ∃ v ∈ env, ∃ p ∈ path? v.1, (p, value v.2) = e := by
  simp only [layer, List.mem_filterMap, Option.map_eq_some_iff, Option.mem_def]

/-- An entry that comes from a variable says one thing at most. -/
theorem says_value {n : SettingName} {p : String} (h : Setting.Says n.part n.key (p, value s) v) :
    v = value s := by
  generalize hw : value s = w at h
  cases h with
  | inside => exact absurd hw (value_ne_table s _)
  | along => rfl

theorem says_dotted (n : SettingName) (v : Setting) : Setting.Says n.part n.key (n.dotted, v) v :=
  .along n.path_dotted n.lower_key

theorem Gives.stands (h : env.Gives given) : given.Stands env.layer where
  orderly := by
    intro e he n
    obtain ⟨v, hv, p, hp, rfl⟩ := mem_layer.mp he
    rcases h.told v hv p hp with ⟨m, x, rfl, -, -⟩ | hapart
    · by_cases hmn : m = n
      · subst hmn
        exact .along m.path_dotted m.lower_key
      · exact .apart (SettingName.apart_of_ne hmn)
    · exact .apart (hapart n)
  told := by
    intro e he n w hw
    obtain ⟨v, hv, p, hp, rfl⟩ := mem_layer.mp he
    rcases h.told v hv p hp with ⟨m, x, rfl, hx, hgiven⟩ | hapart
    · obtain rfl : m = n := by
        by_contra hmn
        exact hw.not_apart (SettingName.apart_of_ne hmn)
      rw [says_value hw]
      exact ⟨x, SettingName.read_value_of_ofText? hx, hgiven⟩
    · exact absurd (hapart n) hw.not_apart
  all := by
    intro n x hx
    obtain ⟨v, hv, hp⟩ := h.all n x hx
    exact ⟨_, mem_layer.mpr ⟨v, hv, _, hp, rfl⟩, _, says_dotted n _⟩

end Environment

namespace PositiveSetting

/-- The number of a setting among the values of all settings. -/
def number (x : (n : SettingName) → n.Value) : PositiveSetting → Int
  | .fetchTimeout => x .fetchTimeout
  | .saveTimeout => x .saveTimeout
  | .publishTimeout => x .publishTimeout
  | .ttlSeconds => x .ttlSeconds

theorem number_value (s : Settings) (p : PositiveSetting) :
    number (fun n => n.value s) p = Int.ofNat (p.value s) := by
  cases p <;> rfl

theorem inRange_of_number_pos {x : (n : SettingName) → n.Value} (h : ∀ p, 0 < number x p)
    (n : SettingName) : n.InRange (x n) := by
  cases n with
  | fetchTimeout => exact (h .fetchTimeout).le
  | saveTimeout => exact (h .saveTimeout).le
  | publishTimeout => exact (h .publishTimeout).le
  | ttlSeconds => exact (h .ttlSeconds).le
  | _ => trivial

end PositiveSetting

namespace Settings

variable {files : FileTree} {env : Environment} {path : Option String} {es : List (String × Setting)}
  {s : Settings}

/-- Settings are loaded when they can be read and every number of them is positive. -/
theorem ofLayers_eq_ok_iff {layers : List (List (String × Setting))} : ofLayers layers = .ok s ↔
    ofSetting (layers.foldl Setting.addLayer (.table [])) = some s ∧
      ∀ p : PositiveSetting, 0 < p.value s := by
  rw [ofLayers, ← nonPositive?_eq_none_iff]
  cases ofSetting (layers.foldl Setting.addLayer (.table [])) with
  | none => simp
  | some u =>
    dsimp only
    constructor
    · intro h
      split at h
      · cases h
      · next hu =>
        cases h
        exact ⟨rfl, hu⟩
    · rintro ⟨hu, hs⟩
      cases hu
      rw [hs]

theorem load_eq_ok_iff (hfile : sourceLayer files path = some es) : load files env path = .ok s ↔
    ofSetting (((Setting.table []).addLayer es).addLayer env.layer) = some s ∧
      ∀ p : PositiveSetting, 0 < p.value s := by
  rw [load, hfile]
  exact ofLayers_eq_ok_iff

theorem exists_tree (es layer : List (String × Setting)) :
    ∃ es', ((Setting.table []).addLayer es).addLayer layer = .table es' := by
  obtain ⟨es', hes'⟩ := Setting.exists_addLayer es []
  rw [hes']
  exact Setting.exists_addLayer layer es'

/-- Settings that are loaded are read from a table that the file and then the environment were put
into. -/
theorem exists_of_load (h : load files env path = .ok s) : ∃ es es',
    ((Setting.table []).addLayer es).addLayer env.layer = .table es' ∧
      ofSetting (.table es') = some s := by
  cases hes : sourceLayer files path with
  | none =>
    rw [load, hes] at h
    cases h
  | some es =>
    obtain ⟨hread, -⟩ := (load_eq_ok_iff hes).mp h
    obtain ⟨es', htree⟩ := exists_tree es env.layer
    exact ⟨es, es', htree, htree ▸ hread⟩

/-- Each setting is the environment's if that gives it, else the file's if that does, else the default,
whatever else they give; and the settings are loaded when the four numbers that come of it are
positive. -/
theorem load_resolves {file given : Given} (hfile : sourceLayer files path = some es)
    (hes : file.Stands es) (henv : env.Gives given) :
    (∀ s, load files env path = .ok s →
      ∀ n : SettingName, n.value s = ((given n).or (file n)).getD n.default) ∧
    ((∃ s, load files env path = .ok s) ↔
      ∀ p : PositiveSetting, 0 < p.number fun n => ((given n).or (file n)).getD n.default) := by
  obtain ⟨es', htree⟩ := exists_tree es env.layer
  have hholds : (given.above file).Holds (.table es') := by
    have := (Given.holds_none.addLayer hes).addLayer henv.stands
    rw [htree] at this
    intro n
    simpa only [Given.above, Option.or_none] using this n
  obtain ⟨hvalue, hread⟩ := hholds.ofSetting
  have hload : ∀ s, load files env path = .ok s ↔ ofSetting (.table es') = some s ∧
      ∀ p : PositiveSetting, 0 < p.value s := by
    intro s
    rw [load_eq_ok_iff hfile, htree]
  have hnumber : ∀ s, ofSetting (.table es') = some s → ∀ p : PositiveSetting,
      (p.number fun n => ((given n).or (file n)).getD n.default) = Int.ofNat (p.value s) := by
    intro s hs p
    rw [← PositiveSetting.number_value]
    exact congrArg p.number (funext fun n => (hvalue s hs n).symm)
  refine ⟨fun s hs => hvalue s ((hload s).mp hs).1, fun ⟨s, hs⟩ p => ?_, fun hpos => ?_⟩
  · obtain ⟨hs, hp⟩ := (hload s).mp hs
    rw [hnumber s hs p]
    exact Int.natCast_pos.mpr (hp p)
  · obtain ⟨s, hs⟩ := hread.mpr (PositiveSetting.inRange_of_number_pos hpos)
    refine ⟨s, (hload s).mpr ⟨hs, fun p => ?_⟩⟩
    have := hpos p
    rw [hnumber s hs p] at this
    exact Int.natCast_pos.mp this

/-- A file that gives a part of a section. -/
def halfStore : Json :=
  .obj [("store", .obj [("directory", .str "data"), ("fetch_timeout_ms", .nat 250)])]

def halfStoreGiven : Given
  | .directory => some "data"
  | .fetchTimeout => some (250 : Int)
  | _ => none

/-- Variables that give the rest of the section. -/
def otherHalf : Environment :=
  [("SERVICES_CMS_STORE__SAVE_TIMEOUT_MS", "900"), ("services_cms_store__backend", "Memory"),
    ("PATH", "/bin")]

def otherHalfGiven : Given
  | .storage => some .memory
  | .saveTimeout => some (900 : Int)
  | _ => none

theorem otherHalf_gives : otherHalf.Gives otherHalfGiven where
  told := by
    intro v hv p hp
    simp only [otherHalf, List.mem_cons, List.not_mem_nil, or_false] at hv
    rcases hv with rfl | rfl | rfl
    · have hpath : Environment.path? "SERVICES_CMS_STORE__SAVE_TIMEOUT_MS" =
          some "store.save_timeout_ms" := by decide +kernel
      exact .inl ⟨.saveTimeout, (900 : Int), Option.some.inj (hp.symm.trans hpath), by decide, rfl⟩
    · have hpath : Environment.path? "services_cms_store__backend" = some "store.backend" := by
        decide +kernel
      exact .inl ⟨.storage, .memory, Option.some.inj (hp.symm.trans hpath), by decide, rfl⟩
    · have hpath : Environment.path? "PATH" = none := by decide
      exact nomatch hpath.symm.trans hp
  all := by
    intro n x hx
    cases n with
    | saveTimeout => exact ⟨_, List.mem_cons_self .., by decide⟩
    | storage => exact ⟨_, List.mem_cons_of_mem _ (List.mem_cons_self ..), by decide⟩
    | _ => cases hx

def halfStoreLayer : List (String × Setting) :=
  [("store", .table [("directory", .text "data"), ("fetch_timeout_ms", .whole 250)])]

theorem halfStore_stands : halfStoreGiven.Stands halfStoreLayer := by
  have hstore : Step.path "store" = [.child "store"] := by decide
  refine ⟨fun e he n => ?_, fun e he n v hv => ?_, fun n x hx => ?_⟩
  · obtain rfl := List.mem_singleton.mp he
    cases n with
    | storage | directory | fetchTimeout | saveTimeout => exact .table hstore (by decide)
    | _ => exact .apart (by decide)
  · obtain rfl := List.mem_singleton.mp he
    cases hv with
    | inside _ _ hmem hkey =>
      simp only [List.mem_cons, Prod.mk.injEq, List.not_mem_nil, or_false] at hmem
      rcases hmem with ⟨rfl, rfl⟩ | ⟨rfl, rfl⟩
      · cases n with
        | directory => exact ⟨_, rfl, rfl⟩
        | _ => exact absurd hkey (by decide)
      · cases n with
        | fetchTimeout => exact ⟨_, rfl, rfl⟩
        | _ => exact absurd hkey (by decide)
    | along hpath _ => exact nomatch congrArg List.length (hstore.symm.trans hpath)
  · refine ⟨_, List.mem_cons_self .., ?_⟩
    cases n with
    | directory => exact ⟨.text "data", .inside hstore (by decide) (.head _) (by decide)⟩
    | fetchTimeout =>
      exact ⟨.whole 250, .inside hstore (by decide) (.tail _ (.head _)) (by decide)⟩
    | _ => cases hx

theorem sourceLayer_halfStore {files : FileTree} {path : String}
    (h : locate files path = some (.json, halfStore.toText)) :
    sourceLayer files (some path) = some halfStoreLayer := by
  have hexact : halfStore.Exact := by
    simp only [halfStore, Json.Exact, Json.ExactFields, Json.nat, Number.IsWord]
    decide
  have hread : FileForm.json.readEntries halfStore.toText = some halfStoreLayer := by
    rw [FileForm.readEntries, FileForm.read, Json.document?, Json.ofText?_toText hexact (by decide)]
    rfl
  simp [sourceLayer, fileLayer, h, hread]

theorem load_resolves_store :
    let files : FileTree := ⟨[(["c.json"], .file (.text halfStore.toText))]⟩
    sourceLayer files (some "c.json") = some halfStoreLayer ∧ halfStoreGiven.Stands halfStoreLayer ∧
      otherHalf.Gives otherHalfGiven ∧ ∃ s, load files otherHalf (some "c.json") = .ok s ∧
        s.store = ⟨.memory, "data", 250, 900⟩ := by
  intro files
  have hfile : sourceLayer files (some "c.json") = some halfStoreLayer :=
    sourceLayer_halfStore (by decide +kernel)
  obtain ⟨hvalue, hloads⟩ := load_resolves hfile halfStore_stands otherHalf_gives
  have hpos : ∀ p : PositiveSetting,
      0 < p.number fun n => ((otherHalfGiven n).or (halfStoreGiven n)).getD n.default := by
    intro p
    cases p <;> decide
  obtain ⟨s, hs⟩ := hloads.mpr hpos
  refine ⟨hfile, halfStore_stands, otherHalf_gives, s, hs, ?_⟩
  have hstorage : s.store.storage = .memory := hvalue s hs .storage
  have hdirectory : s.store.directory = "data" := hvalue s hs .directory
  have hfetch : Int.ofNat s.store.fetchTimeout = 250 := hvalue s hs .fetchTimeout
  have hsave : Int.ofNat s.store.saveTimeout = 900 := hvalue s hs .saveTimeout
  calc s.store
      = ⟨s.store.storage, s.store.directory, s.store.fetchTimeout, s.store.saveTimeout⟩ := rfl
    _ = ⟨.memory, "data", 250, 900⟩ := by
        rw [hstorage, hdirectory, Int.ofNat.inj hfetch, Int.ofNat.inj hsave]

/-- A number of 64 bits that is none of those with a sign. -/
def hugeTimeout : FileTree :=
  ⟨[(["c.json"],
    .file (.text "\x7b\"store\":\x7b\"fetch_timeout_ms\":9999999999999999999\x7d\x7d"))]⟩

/-- It is read as a fraction, and so rounded. -/
theorem load_rounds_huge : 9999999999999999999 < 1 <<< 64 ∧
    load hugeTimeout [] (some "c.json") = .ok { store := { fetchTimeout := 10000000000000000000 } } := by
  decide +kernel

end Settings
end ServiceCatalog
