import Mathlib.Data.Option.Basic
import ServiceCatalog.Proofs.Settings.Places
import ServiceCatalog.Settings.Reader

/-!
The settings one by one. Each has a name in one of the sections, and what stands under that name in a
tree decides it and nothing else: where nothing stands, it keeps its default.
-/
namespace ServiceCatalog

/-- The settings by name. -/
inductive SettingName where
  | storage
  | directory
  | fetchTimeout
  | saveTimeout
  | path
  | publishTimeout
  | ttlSeconds
  | topics
  | level
  | json
  deriving DecidableEq, Repr

namespace SettingName

/-- The section of a setting. -/
def part : SettingName → String
  | .storage | .directory | .fetchTimeout | .saveTimeout => "store"
  | .path | .publishTimeout => "sink"
  | .ttlSeconds | .topics => "topics"
  | .level | .json => "observability"

def key : SettingName → String
  | .storage => "backend"
  | .directory => "directory"
  | .fetchTimeout => "fetch_timeout_ms"
  | .saveTimeout => "save_timeout_ms"
  | .path => "path"
  | .publishTimeout => "publish_timeout_ms"
  | .ttlSeconds => "ttl_seconds"
  | .topics => "list"
  | .level => "log_level"
  | .json => "json"

/-- What a setting can be given as; a number may turn out to be negative. -/
def Value : SettingName → Type
  | .storage => Storage
  | .directory | .path | .level => String
  | .fetchTimeout | .saveTimeout | .publishTimeout | .ttlSeconds => Int
  | .topics => List Topic
  | .json => Bool

instance : (n : SettingName) → DecidableEq n.Value
  | .storage => inferInstanceAs (DecidableEq Storage)
  | .directory | .path | .level => inferInstanceAs (DecidableEq String)
  | .fetchTimeout | .saveTimeout | .publishTimeout | .ttlSeconds => inferInstanceAs (DecidableEq Int)
  | .topics => inferInstanceAs (DecidableEq (List Topic))
  | .json => inferInstanceAs (DecidableEq Bool)

def value (s : Settings) : (n : SettingName) → n.Value
  | .storage => s.store.storage
  | .directory => s.store.directory
  | .fetchTimeout => Int.ofNat s.store.fetchTimeout
  | .saveTimeout => Int.ofNat s.store.saveTimeout
  | .path => s.sink.path
  | .publishTimeout => Int.ofNat s.sink.publishTimeout
  | .ttlSeconds => Int.ofNat s.topics.ttlSeconds
  | .topics => s.topics.list
  | .level => s.log.level
  | .json => s.log.json

def default (n : SettingName) : n.Value := n.value {}

/-- How a setting is read where it is given. -/
def decode : (n : SettingName) → Setting → Option n.Value
  | .storage, v => v.variant? Storage.names
  | .directory, v | .path, v | .level, v => v.text?
  | .fetchTimeout, v | .saveTimeout, v | .publishTimeout, v | .ttlSeconds, v => v.nat?.map Int.ofNat
  | .topics, v => TopicSettings.listOf v
  | .json, v => v.bool?

/-- How a setting is read where it may be given. -/
def decodeOr (n : SettingName) : Option Setting → Option n.Value
  | some v => n.decode v
  | none => some n.default

end SettingName

section Reader

open SettingName

variable {es ks : List (String × Setting)} {s : Settings}

namespace Setting

theorem member_table {α : Type} (position : Nat) (name : String) (decode : Setting → Option α)
    (default : α) (ks : List (String × Setting)) :
    (table ks).member position name decode default =
      match lookUp name ks with
      | some v => decode v
      | none => some default := rfl

/-- A section that is absent is read as one that gives nothing. -/
theorem member_section {α : Type} (position : Nat) (part : String) (decode : Setting → Option α)
    {default : α} (h : (table es).IsSection part) (hdefault : decode (.table []) = some default) :
    (table es).member position part decode default =
      decode (.table ((lookUp part es).getD .nothing).entries) := by
  rw [member_table]
  cases hu : lookUp part es with
  | none => exact hdefault.symm
  | some u =>
    obtain ⟨ks, rfl⟩ := h u hu
    rfl

/-- A number is read in the same way whether it is taken for a natural number or for an integer. -/
theorem member_nat {position : Nat} {name : String} {default m : Nat} :
    (table ks).member position name nat? default = some m ↔
      (match lookUp name ks with
        | some v => v.nat?.map Int.ofNat
        | none => some (Int.ofNat default)) = some (Int.ofNat m) := by
  rw [member_table]
  cases lookUp name ks with
  | none => simp only [Option.some.injEq, Int.ofNat.injEq]
  | some v =>
    show v.nat? = some m ↔ v.nat?.map Int.ofNat = (some m).map Int.ofNat
    exact (Option.map_injective fun _ _ => Int.ofNat.inj).eq_iff.symm

end Setting

/-- A record of two members is read when both are. -/
theorem bind_pair {α β γ : Type} {mk : α → β → γ} {x : Option α} {y : Option β} {a : α} {b : β}
    (hmk : ∀ {p q}, mk p q = mk a b → p = a ∧ q = b) :
    (x.bind fun p => y.bind fun q => some (mk p q)) = some (mk a b) ↔ x = some a ∧ y = some b := by
  simp only [Option.bind_eq_some_iff, Option.some.injEq]
  constructor
  · rintro ⟨p, hx, q, hy, h⟩
    obtain ⟨rfl, rfl⟩ := hmk h
    exact ⟨hx, hy⟩
  · rintro ⟨hx, hy⟩
    exact ⟨a, hx, b, hy, rfl⟩

/-- A record of four members is read when all are. -/
theorem bind_quadruple {α β γ δ ε : Type} {mk : α → β → γ → δ → ε} {x : Option α} {y : Option β}
    {z : Option γ} {w : Option δ} {a : α} {b : β} {c : γ} {d : δ}
    (hmk : ∀ {p q r s}, mk p q r s = mk a b c d → p = a ∧ q = b ∧ r = c ∧ s = d) :
    (x.bind fun p => y.bind fun q => z.bind fun r => w.bind fun s => some (mk p q r s)) =
      some (mk a b c d) ↔ x = some a ∧ y = some b ∧ z = some c ∧ w = some d := by
  simp only [Option.bind_eq_some_iff, Option.some.injEq]
  constructor
  · rintro ⟨p, hx, q, hy, r, hz, s, hw, h⟩
    obtain ⟨rfl, rfl, rfl, rfl⟩ := hmk h
    exact ⟨hx, hy, hz, hw⟩
  · rintro ⟨hx, hy, hz, hw⟩
    exact ⟨a, hx, b, hy, c, hz, d, hw, rfl⟩

theorem StoreSettings.ofSetting_table {c : StoreSettings} : ofSetting (.table ks) = some c ↔
    decodeOr .storage (Setting.lookUp "backend" ks) = some c.storage ∧
    decodeOr .directory (Setting.lookUp "directory" ks) = some c.directory ∧
    decodeOr .fetchTimeout (Setting.lookUp "fetch_timeout_ms" ks) = some (Int.ofNat c.fetchTimeout) ∧
    decodeOr .saveTimeout (Setting.lookUp "save_timeout_ms" ks) = some (Int.ofNat c.saveTimeout) :=
  (bind_quadruple StoreSettings.mk.inj).trans
    (and_congr_right' (and_congr_right' (and_congr Setting.member_nat Setting.member_nat)))

theorem SinkSettings.ofSetting_table {c : SinkSettings} : ofSetting (.table ks) = some c ↔
    decodeOr .path (Setting.lookUp "path" ks) = some c.path ∧
    decodeOr .publishTimeout (Setting.lookUp "publish_timeout_ms" ks) =
      some (Int.ofNat c.publishTimeout) :=
  (bind_pair SinkSettings.mk.inj).trans (and_congr_right' Setting.member_nat)

theorem TopicSettings.ofSetting_table {c : TopicSettings} : ofSetting (.table ks) = some c ↔
    decodeOr .ttlSeconds (Setting.lookUp "ttl_seconds" ks) = some (Int.ofNat c.ttlSeconds) ∧
    decodeOr .topics (Setting.lookUp "list" ks) = some c.list :=
  (bind_pair TopicSettings.mk.inj).trans (and_congr_left' Setting.member_nat)

theorem LogSettings.ofSetting_table {c : LogSettings} : ofSetting (.table ks) = some c ↔
    decodeOr .level (Setting.lookUp "log_level" ks) = some c.level ∧
    decodeOr .json (Setting.lookUp "json" ks) = some c.json :=
  bind_pair LogSettings.mk.inj

namespace Settings

theorem ofSetting_table : ofSetting (.table es) = some s ↔
    (Setting.table es).member 0 "store" StoreSettings.ofSetting {} = some s.store ∧
    (Setting.table es).member 1 "sink" SinkSettings.ofSetting {} = some s.sink ∧
    (Setting.table es).member 2 "topics" TopicSettings.ofSetting {} = some s.topics ∧
    (Setting.table es).member 3 "observability" LogSettings.ofSetting {} = some s.log :=
  bind_quadruple Settings.mk.inj

/-- A setting whose section is a table is read from what stands there, whatever the other sections
are. -/
theorem decodeOr_of_ofSetting (h : ofSetting (.table es) = some s) (n : SettingName)
    (hsection : (Setting.table es).IsSection n.part) :
    n.decodeOr ((Setting.table es).at? n.part n.key) = some (n.value s) := by
  obtain ⟨hstore, hsink, htopics, hlog⟩ := ofSetting_table.mp h
  cases n with
  | storage | directory | fetchTimeout | saveTimeout =>
    rw [Setting.member_section 0 "store" StoreSettings.ofSetting hsection rfl,
      StoreSettings.ofSetting_table] at hstore
    obtain ⟨h1, h2, h3, h4⟩ := hstore
    assumption
  | path | publishTimeout =>
    rw [Setting.member_section 1 "sink" SinkSettings.ofSetting hsection rfl,
      SinkSettings.ofSetting_table] at hsink
    obtain ⟨h1, h2⟩ := hsink
    assumption
  | ttlSeconds | topics =>
    rw [Setting.member_section 2 "topics" TopicSettings.ofSetting hsection rfl,
      TopicSettings.ofSetting_table] at htopics
    obtain ⟨h1, h2⟩ := htopics
    assumption
  | level | json =>
    rw [Setting.member_section 3 "observability" LogSettings.ofSetting hsection rfl,
      LogSettings.ofSetting_table] at hlog
    obtain ⟨h1, h2⟩ := hlog
    assumption

/-- Where every section is a table, the settings are read when each of them is. -/
theorem ofSetting_eq_some_iff
    (hsection : ∀ n : SettingName, (Setting.table es).IsSection n.part) :
    ofSetting (.table es) = some s ↔
      ∀ n : SettingName, n.decodeOr ((Setting.table es).at? n.part n.key) = some (n.value s) := by
  refine ⟨fun h n => decodeOr_of_ofSetting h n (hsection n), fun h => ?_⟩
  rw [ofSetting_table, Setting.member_section 0 "store" StoreSettings.ofSetting (hsection .storage) rfl,
    Setting.member_section 1 "sink" SinkSettings.ofSetting (hsection .path) rfl,
    Setting.member_section 2 "topics" TopicSettings.ofSetting (hsection .topics) rfl,
    Setting.member_section 3 "observability" LogSettings.ofSetting (hsection .level) rfl,
    StoreSettings.ofSetting_table, SinkSettings.ofSetting_table, TopicSettings.ofSetting_table,
    LogSettings.ofSetting_table]
  exact ⟨⟨h .storage, h .directory, h .fetchTimeout, h .saveTimeout⟩, ⟨h .path, h .publishTimeout⟩,
    ⟨h .ttlSeconds, h .topics⟩, h .level, h .json⟩

end Settings

end Reader

end ServiceCatalog
