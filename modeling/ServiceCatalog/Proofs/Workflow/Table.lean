import Mathlib.Data.List.Nodup
import ServiceCatalog.Machines.Lifecycle

/-!
A table is built from declarations exactly if they declare a row and no pair twice; it then holds the
declared rows and no others, in whatever order they are kept.
-/
namespace ServiceCatalog.Table

variable {S K A T : Type} [DecidableEq S] [DecidableEq K] {rows : List (Transition S K A T)}
  {row : Transition S K A T} {t : Table S K A T} {source : Option S} {kind : K}

omit [DecidableEq S] [DecidableEq K] in
theorem key_eq_iff : row.key = (source, kind) ↔ row.source = source ∧ row.kind = kind := by
  rw [Transition.key, Prod.mk.injEq]

theorem lookup_eq_some (h : t.lookup source kind = some row) :
    row ∈ t.rows ∧ row.source = source ∧ row.kind = kind :=
  ⟨List.mem_of_find?_eq_some h, key_eq_iff.mp (beq_iff_eq.mp (List.find?_some h :))⟩

/-- The row that is found is the only one if no pair has two. -/
theorem lookup_eq_some_iff (hn : (t.rows.map Transition.key).Nodup) :
    t.lookup source kind = some row ↔ row ∈ t.rows ∧ row.source = source ∧ row.kind = kind := by
  refine ⟨lookup_eq_some, fun ⟨hrow, hsource, hkind⟩ => ?_⟩
  have hkey : row.key = (source, kind) := key_eq_iff.mpr ⟨hsource, hkind⟩
  cases hfound : t.lookup source kind with
  | none =>
    have hnone := List.find?_eq_none.mp hfound row hrow
    simp [hkey] at hnone
  | some other =>
    obtain ⟨hother, hs, hk⟩ := lookup_eq_some hfound
    rw [List.inj_on_of_nodup_map hn hother hrow ((key_eq_iff.mpr ⟨hs, hk⟩).trans hkey.symm)]

omit [DecidableEq K] in
theorem mem_actionsFrom :
    kind ∈ t.actionsFrom source ↔ ∃ row ∈ t.rows, row.source = source ∧ row.kind = kind := by
  simp [actionsFrom, and_assoc]

omit [DecidableEq K] in
theorem nodup_actionsFrom (hn : (t.rows.map Transition.key).Nodup) :
    (t.actionsFrom source).Nodup := by
  refine (hn.of_map.filter _).map_on fun a ha b hb hkind => ?_
  obtain ⟨ha, hsource⟩ := List.mem_filter.mp ha
  obtain ⟨hb, hsource'⟩ := List.mem_filter.mp hb
  refine List.inj_on_of_nodup_map hn ha hb (key_eq_iff.mpr ⟨?_, hkind⟩)
  rw [beq_iff_eq.mp hsource, beq_iff_eq.mp hsource']

/-- The table answers as the declared rows say. -/
structure Answers (t : Table S K A T) (rows : List (Transition S K A T)) : Prop where
  lookup : ∀ source kind row,
    t.lookup source kind = some row ↔ row ∈ rows ∧ row.source = source ∧ row.kind = kind
  size : t.size = rows.length
  nodup : ∀ source, (t.actionsFrom source).Nodup
  actions : ∀ source kind,
    kind ∈ t.actionsFrom source ↔ ∃ row ∈ rows, row.source = source ∧ row.kind = kind

/-- How the rows are ordered in the table makes no difference. -/
theorem answers_of_perm (hn : (rows.map Transition.key).Nodup) (hperm : t.rows.Perm rows) :
    t.Answers rows where
  lookup source kind row := by
    rw [lookup_eq_some_iff ((hperm.map _).nodup_iff.mpr hn), hperm.mem_iff]
  size := hperm.length_eq
  nodup source := nodup_actionsFrom ((hperm.map _).nodup_iff.mpr hn)
  actions source kind := by
    simp only [mem_actionsFrom, hperm.mem_iff]

/-- The row has a pair that was declared before, and no row before it has. -/
def FirstRepeat (rows : List (Transition S K A T)) (row : Transition S K A T) : Prop :=
  ∃ before after, rows = before ++ row :: after ∧ (before.map Transition.key).Nodup ∧
    row.key ∈ before.map Transition.key

theorem firstRepeat_eq_none_iff {seen : List (Option S × K)} (hseen : seen.Nodup) :
    firstRepeat seen rows = none ↔ ((rows.map Transition.key).reverse ++ seen).Nodup := by
  induction rows generalizing seen with
  | nil => simpa [firstRepeat] using hseen
  | cons row rows ih =>
    rw [firstRepeat]
    split
    · next hmem =>
      simp [List.nodup_append, hmem]
    · next hmem =>
      rw [ih (List.nodup_cons.mpr ⟨hmem, hseen⟩)]
      simp

/-- What was seen before are the pairs of the rows before, latest first. -/
theorem firstRepeat_of_some (earlier : List (Transition S K A T))
    (hn : (earlier.map Transition.key).Nodup)
    (h : firstRepeat (earlier.map Transition.key).reverse rows = some row) :
    FirstRepeat (earlier ++ rows) row := by
  induction rows generalizing earlier with
  | nil => cases h
  | cons next rows ih =>
    rw [firstRepeat] at h
    split at h
    · next hmem =>
      cases h
      exact ⟨earlier, rows, rfl, hn, List.mem_reverse.mp hmem⟩
    · next hmem =>
      have hnext : ((earlier ++ [next]).map Transition.key).Nodup := by
        rw [List.map_append, List.nodup_append_comm]
        exact List.nodup_cons.mpr ⟨fun h => hmem (List.mem_reverse.mpr h), hn⟩
      simpa using ih (earlier ++ [next]) hnext (by simpa using h)

variable [Named S] [Named K] {machine : String} {declarations : List (Declaration S K A T)}

theorem build_eq_ok_iff : build machine declarations = .ok t ↔
    t = ⟨machine, expand declarations⟩ ∧ expand declarations ≠ [] ∧
      ((expand declarations).map Transition.key).Nodup := by
  have hnone : firstRepeat [] (expand declarations) = none ↔
      ((expand declarations).map Transition.key).Nodup := by
    rw [firstRepeat_eq_none_iff List.nodup_nil, List.append_nil, List.nodup_reverse]
  unfold build
  split
  · next hrows => simp [hrows]
  · next hrows =>
    rw [← hnone]
    split
    · next hrepeat => simp [hrepeat]
    · next hrepeat =>
      rw [Except.ok.injEq]
      exact ⟨fun h => ⟨h.symm, hrows, hrepeat⟩, fun h => h.1.symm⟩

theorem build_eq_error {e : TableError} (h : build machine declarations = .error e) :
    expand declarations = [] ∧ e = .empty machine ∨
      ∃ row, FirstRepeat (expand declarations) row ∧
        e = .duplicate machine ((row.source.map name).getD "*") (name row.kind) := by
  unfold build at h
  split at h
  · next hrows =>
    cases h
    exact .inl ⟨hrows, rfl⟩
  · next hrows =>
    split at h
    · next row hrepeat =>
      cases h
      exact .inr ⟨row, firstRepeat_of_some [] List.nodup_nil hrepeat, rfl⟩
    · cases h

/-- The table is independent of the order in which its rows are kept, and the error names the first
pair that is declared again. -/
theorem build_exact (machine : String) (declarations : List (Declaration S K A T)) :
    ((∃ t, build machine declarations = .ok t) ↔
      expand declarations ≠ [] ∧ ((expand declarations).map Transition.key).Nodup) ∧
    (∀ t, build machine declarations = .ok t →
      t.machine = machine ∧
        ∀ kept : List (Transition S K A T), kept.Perm t.rows →
          Answers ⟨t.machine, kept⟩ (expand declarations)) ∧
    ∀ e, build machine declarations = .error e →
      expand declarations = [] ∧ e = .empty machine ∨
        ∃ row, FirstRepeat (expand declarations) row ∧
          e = .duplicate machine ((row.source.map name).getD "*") (name row.kind) := by
  refine ⟨⟨fun ⟨t, ht⟩ => (build_eq_ok_iff.mp ht).2, fun h => ⟨_, build_eq_ok_iff.mpr ⟨rfl, h⟩⟩⟩,
    fun t ht => ?_, fun e he => build_eq_error he⟩
  obtain ⟨rfl, -, hn⟩ := build_eq_ok_iff.mp ht
  exact ⟨rfl, fun kept hperm => answers_of_perm hn hperm⟩

/-- A state that stands twice in one list is a repetition as well. -/
theorem build_exact_lifecycle :
    let repeated := Lifecycle.declarations ++
      [.moves [.submitted, .submitted] .edit .draft Lifecycle.editService]
    let e := TableError.duplicate "lifecycle" "submitted" "edit"
    Answers ⟨"lifecycle", Lifecycle.table.rows.reverse⟩ (expand Lifecycle.declarations) ∧
      build "lifecycle" repeated = .error e ∧
      ∃ row, FirstRepeat (expand repeated) row ∧
        e = .duplicate "lifecycle" ((row.source.map name).getD "*") (name row.kind) := by
  intro repeated e
  have hbuild : build "lifecycle" Lifecycle.declarations = .ok Lifecycle.table := rfl
  have he : build "lifecycle" repeated = .error e := rfl
  have hanswers := ((build_exact "lifecycle" Lifecycle.declarations).2.1 _ hbuild).2
  refine ⟨hanswers _ (List.reverse_perm _), he, ?_⟩
  exact ((build_exact "lifecycle" repeated).2.2 e he).resolve_left fun h => nomatch h.2

end ServiceCatalog.Table
