import ServiceCatalog.Proofs.Settings.Sources

/-!
Texts from the environment. The text of a variable is guessed to be a truth value or a number before it
is known what is wanted, and where a text is wanted, what was guessed is written out again. Most texts
come out as they went in; the others are told apart here.
-/
namespace ServiceCatalog

namespace Environment

variable {s : String}

/-- What is made of the text of a variable where a text is wanted. -/
def rendered (s : String) : String :=
  if Setting.lower s = "true" ∨ Setting.lower s = "false" then Setting.lower s
  else match Numeral.signed64? s.toList with
    | some i => toString i
    | none =>
      match Numeral.decimal? s.toList with
      | some x => x.plain
      | none => s

theorem text?_value (s : String) : (value s).text? = some (rendered s) := by
  unfold value rendered
  by_cases htrue : Setting.lower s = "true"
  · simp [htrue, Setting.text?]
  · by_cases hfalse : Setting.lower s = "false"
    · simp [hfalse, Setting.text?]
    · simp only [htrue, hfalse, or_self, if_false]
      cases Numeral.signed64? s.toList with
      | some i => rfl
      | none => cases Numeral.decimal? s.toList <;> rfl

/-- A text that comes out as it went in: a truth value in small letters, an integer without a plus sign
or a zero too much, a decimal as it is written, or anything else. -/
structure Verbatim (s : String) : Prop where
  truth : Setting.lower s = "true" ∨ Setting.lower s = "false" → Setting.lower s = s
  integer : ∀ i, Numeral.signed64? s.toList = some i → Numeral.IsPlain s.toList
  decimal : ∀ x, Numeral.signed64? s.toList = none → Numeral.decimal? s.toList = some x → x.plain = s

/-- A truth value is no number. -/
theorem numerals_of_truth (h : Setting.lower s = "true" ∨ Setting.lower s = "false") :
    Numeral.signed64? s.toList = none ∧ Numeral.decimal? s.toList = none := by
  refine numerals_of_foreign ?_
  rcases h with h | h
  · exact exists_foreign_of_lower h (by decide)
  · exact exists_foreign_of_lower h (by decide)

theorem rendered_eq_iff : rendered s = s ↔ Verbatim s := by
  unfold rendered
  split
  · next htruth =>
    obtain ⟨hsigned, hdecimal⟩ := numerals_of_truth htruth
    exact ⟨fun h => ⟨fun _ => h, by simp [hsigned], by simp [hdecimal]⟩, fun h => h.truth htruth⟩
  · next htruth =>
    split
    · next i hi =>
      rw [← String.toList_inj, Numeral.toString_signed64? hi]
      exact ⟨fun h => ⟨fun ht => absurd ht htruth, fun _ _ => h, by simp [hi]⟩,
        fun h => h.integer i hi⟩
    · next hsigned =>
      split
      · next x hx =>
        refine ⟨fun h => ⟨fun ht => absurd ht htruth, by simp [hsigned], ?_⟩,
          fun h => h.decimal x hsigned hx⟩
        intro y _ hy
        rwa [Option.some.inj (hy.symm.trans hx)]
      · next hdecimal =>
        exact iff_of_true rfl ⟨fun ht => absurd ht htruth, by simp [hsigned], by simp [hdecimal]⟩

example : ["007", "+7", "1.10", "1e5", "infinity", "TRUE", "7", "v1.10"].map rendered =
    ["7", "7", "1.1", "100000", "inf", "true", "7", "v1.10"] := by
  decide +kernel

theorem rendered_of_foreign (h : ∃ c ∈ s.toList, Numeral.isNumeralChar c = false)
    (htrue : Setting.lower s ≠ "true") (hfalse : Setting.lower s ≠ "false") : rendered s = s := by
  have htext := text?_value s
  rw [value_of_foreign h htrue hfalse] at htext
  exact (Option.some.inj htext).symm

end Environment

/-- The settings that are texts of any form. -/
inductive TextSetting where
  | directory
  | path
  | level
  deriving DecidableEq, Repr

namespace TextSetting

def name : TextSetting → SettingName
  | .directory => .directory
  | .path => .path
  | .level => .level

/-- The variable that gives it. -/
def variableName : TextSetting → String
  | .directory => "SERVICES_CMS_STORE__DIRECTORY"
  | .path => "SERVICES_CMS_SINK__PATH"
  | .level => "SERVICES_CMS_OBSERVABILITY__LOG_LEVEL"

def value (s : Settings) : TextSetting → String
  | .directory => s.store.directory
  | .path => s.sink.path
  | .level => s.log.level

theorem path?_variableName (t : TextSetting) :
    Environment.path? t.variableName = some t.name.dotted := by
  cases t <;> decide +kernel

theorem text?_of_decodeOr {t : TextSetting} {v : Setting} {s : Settings}
    (h : t.name.decodeOr (some v) = some (t.name.value s)) : v.text? = some (t.value s) := by
  cases t <;> exact h

end TextSetting

/-- What the variable of a text leaves in a tree: the value that was guessed, whatever stood there. -/
theorem Environment.at?_layer {env : Environment} {s : String} (t : TextSetting)
    (hmem : (t.variableName, s) ∈ env)
    (hothers : ∀ v ∈ env, ∀ p ∈ path? v.1,
      v = (t.variableName, s) ∨ Step.Apart t.name.part t.name.key (Step.path p)) (tree : Setting) :
    (tree.addLayer env.layer).IsSection t.name.part ∧
      (tree.addLayer env.layer).at? t.name.part t.name.key = some (value s) := by
  have hentry : (t.name.dotted, value s) ∈ env.layer :=
    mem_layer.mpr ⟨_, hmem, _, t.path?_variableName, rfl⟩
  have hleaf : (value s).IsLeaf := Setting.isLeaf_of_ne_table (value_ne_table s)
  have hlayer : ∀ d ∈ env.layer, d = (t.name.dotted, value s) ∨
      Step.Apart t.name.part t.name.key (Step.path d.1) := by
    intro d hd
    obtain ⟨v, hv, p, hp, rfl⟩ := mem_layer.mp hd
    refine (hothers v hv p hp).imp_left ?_
    rintro rfl
    rw [Option.some.inj (hp.symm.trans t.path?_variableName)]
  exact Setting.at?_addLayer_of_mem (e := (t.name.dotted, value s)) t.name.path_dotted
    t.name.lower_key hleaf hlayer hentry tree

namespace Settings

variable {files : FileTree} {env : Environment} {path : Option String} {c : Settings} {s : String}

/-- Of a variable that alone speaks of a text the settings have what it is rendered as: the text itself
just when that is verbatim, and so whenever it has a character that no number has and is not a truth
value. -/
theorem load_text (t : TextSetting) (hmem : (t.variableName, s) ∈ env)
    (hothers : ∀ v ∈ env, ∀ p ∈ Environment.path? v.1,
      v = (t.variableName, s) ∨ Step.Apart t.name.part t.name.key (Step.path p))
    (hload : load files env path = .ok c) :
    t.value c = Environment.rendered s ∧ (t.value c = s ↔ Environment.Verbatim s) ∧
      ((∃ d ∈ s.toList, Numeral.isNumeralChar d = false) →
        Setting.lower s ≠ "true" → Setting.lower s ≠ "false" → t.value c = s) := by
  obtain ⟨es, es', htree, hread⟩ := exists_of_load hload
  obtain ⟨hsection, hat⟩ := Environment.at?_layer t hmem hothers ((Setting.table []).addLayer es)
  rw [htree] at hsection hat
  have hvalue := decodeOr_of_ofSetting hread t.name hsection
  rw [hat] at hvalue
  have hrendered : t.value c = Environment.rendered s := by
    have htext := TextSetting.text?_of_decodeOr hvalue
    rw [Environment.text?_value] at htext
    exact (Option.some.inj htext).symm
  refine ⟨hrendered, ?_, fun hforeign htrue hfalse => ?_⟩
  · rw [hrendered, Environment.rendered_eq_iff]
  · rw [hrendered, Environment.rendered_of_foreign hforeign htrue hfalse]

/-- A directory that is named like a decimal, and a file inside it. -/
def decimalPlaces : Environment :=
  [("SERVICES_CMS_STORE__DIRECTORY", "1.10"), ("SERVICES_CMS_SINK__PATH", "1.10/sink.jsonl"),
    ("SERVICES_CMS_STORE__BACKEND", "memory"), ("PATH", "/bin")]

/-- The directory loses its last digit, the path of the file is kept. -/
theorem load_text_decimal : ∃ c, load {} decimalPlaces none = .ok c ∧
    c.store.directory = Environment.rendered "1.10" ∧ ¬Environment.Verbatim "1.10" ∧
      c.sink.path = "1.10/sink.jsonl" := by
  have hload : load {} decimalPlaces none = .ok
      { store := { storage := .memory, directory := "1.1" }, sink := { path := "1.10/sink.jsonl" } } := by
    decide +kernel
  obtain ⟨hdirectory, hverbatim, -⟩ :=
    load_text .directory (.head _) (by decide +kernel) hload
  obtain ⟨-, -, hkept⟩ := load_text .path (.tail _ (.head _)) (by decide +kernel) hload
  refine ⟨_, hload, hdirectory, fun h => ?_, hkept ⟨'/', by decide, by decide⟩ (by decide) (by decide)⟩
  exact absurd (hverbatim.mpr h) (by decide)

/-- Zeros in front of a number are lost, so the directory is another one. -/
theorem load_text_zeros : load {} [("SERVICES_CMS_STORE__DIRECTORY", "007")] none =
    .ok { store := { directory := "7" } } := by
  decide +kernel

end Settings
end ServiceCatalog
