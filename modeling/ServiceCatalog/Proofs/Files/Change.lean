import Mathlib.Data.Set.Insert
import ServiceCatalog.Proofs.Files.Tree

/-! Which files an operation that succeeds has changed. -/
namespace ServiceCatalog.FileTree

variable {t u v : FileTree} {places others : Set Place} {p q : Place}

/-- Away from some places nothing has changed, and at them no directory has come or gone. -/
def ChangesFiles (places : Set Place) (t u : FileTree) : Prop :=
  ∀ p, u.get? p = t.get? p ∨
    p ∈ places ∧ t.get? p ≠ some .directory ∧ u.get? p ≠ some .directory

namespace ChangesFiles

theorem refl (places : Set Place) (t : FileTree) : ChangesFiles places t t := fun _ => .inl rfl

theorem mono (h : ChangesFiles places t u) (hs : places ⊆ others) : ChangesFiles others t u :=
  fun p => (h p).imp_right fun hp => ⟨hs hp.1, hp.2⟩

theorem of_update {n : Option Node} (hp : p ∈ places) (ht : t.get? p ≠ some .directory)
    (hn : n ≠ some .directory) (hu : u.get? = Function.update t.get? p n) :
    ChangesFiles places t u := by
  intro q
  by_cases hq : q = p
  · subst hq
    exact .inr ⟨hp, ht, by rwa [hu, Function.update_self]⟩
  · exact .inl (by rw [hu, Function.update_of_ne hq])

theorem of_update_update {m n : Option Node} (hp : p ∈ places) (hq : q ∈ places)
    (htp : t.get? p ≠ some .directory) (htq : t.get? q ≠ some .directory)
    (hm : m ≠ some .directory) (hn : n ≠ some .directory)
    (hu : u.get? = Function.update (Function.update t.get? p m) q n) : ChangesFiles places t u := by
  intro r
  by_cases hrq : r = q
  · subst hrq
    exact .inr ⟨hq, htq, by rwa [hu, Function.update_self]⟩
  · by_cases hrp : r = p
    · subst hrp
      exact .inr ⟨hp, htp, by rwa [hu, Function.update_of_ne hrq, Function.update_self]⟩
    · exact .inl (by rw [hu, Function.update_of_ne hrq, Function.update_of_ne hrp])

theorem trans (h : ChangesFiles places t u) (h' : ChangesFiles places u v) :
    ChangesFiles places t v := by
  intro p
  rcases h p with he | ⟨hp, ht, hu⟩
  · rcases h' p with he' | ⟨hp, hu, hv⟩
    · exact .inl (he'.trans he)
    · exact .inr ⟨hp, he ▸ hu, hv⟩
  · rcases h' p with he' | ⟨-, -, hv⟩
    · exact .inr ⟨hp, ht, he' ▸ hu⟩
    · exact .inr ⟨hp, ht, hv⟩

theorem get?_of_notMem (h : ChangesFiles places t u) (hp : p ∉ places) : u.get? p = t.get? p :=
  (h p).resolve_right fun hr => hp hr.1

theorem get?_of_directory (h : ChangesFiles places t u) (hp : t.get? p = some .directory) :
    u.get? p = t.get? p :=
  (h p).resolve_right fun hr => hr.2.1 hp

theorem directoriesStay (h : ChangesFiles places t u) : DirectoriesStay t u :=
  fun _ hp => (h.get?_of_directory hp).trans hp

theorem symm (h : ChangesFiles places t u) : ChangesFiles places u t :=
  fun p => (h p).imp Eq.symm fun hp => ⟨hp.1, hp.2.2, hp.2.1⟩

theorem isDirectory_iff (h : ChangesFiles places t u) :
    u.get? p = some .directory ↔ t.get? p = some .directory :=
  ⟨h.symm.directoriesStay p, h.directoriesStay p⟩

/-- Files that come and go do not change where a path leads. -/
theorem resolve_eq_ok_iff (h : ChangesFiles places t u) {path : Path} :
    u.resolve path = .ok q ↔ t.resolve path = .ok q :=
  ⟨resolve_mono h.symm.directoriesStay, resolve_mono h.directoriesStay⟩

end ChangesFiles

theorem isInner_of_get?_ne (h : t.get? p ≠ some .directory) : IsInner p := by
  by_contra hn
  exact h (get?_of_not_isInner hn t)

theorem touch_eq_ok {path : Path} (h : t.touch path = .ok (q, u)) :
    path.ending = .name ∧ t.resolve path = .ok q ∧ t.get? q ≠ some .directory ∧
      ∃ contents, u.get? = Function.update t.get? q (some (.file contents)) := by
  obtain ⟨place, hr, h⟩ := bind_eq_ok.mp h
  split at h
  · cases h
  · cases h
  · next contents he hg =>
    cases h
    exact ⟨he, hr, by simp [hg], contents, by rw [← hg, Function.update_eq_self]⟩
  · next he hg =>
    cases h
    have hne : t.get? q ≠ some .directory := by simp [hg]
    exact ⟨he, hr, hne, .text "", get?_put (isInner_of_get?_ne hne) t _⟩
  · cases h
  · cases h

theorem write_eq_ok {path : Path} {text : String} (h : t.write path text = .ok u) :
    ∃ q, t.resolve path = .ok q ∧ t.get? q ≠ some .directory ∧
      u.get? = Function.update t.get? q (some (.file (.text text))) := by
  obtain ⟨⟨q, touched⟩, ht, h⟩ := bind_eq_ok.mp h
  cases h
  obtain ⟨-, hr, hne, old, hg⟩ := touch_eq_ok ht
  refine ⟨q, hr, hne, ?_⟩
  rw [get?_put (isInner_of_get?_ne hne), hg, Function.update_idem]

theorem rename_eq_ok {source target : Path} (h : t.rename source target = .ok u) :
    ∃ p q contents, t.resolve source = .ok p ∧ t.resolve target = .ok q ∧
      t.get? p = some (.file contents) ∧ t.get? q ≠ some .directory ∧
      u.get? = Function.update (Function.update t.get? p none) q (some (.file contents)) := by
  obtain ⟨p, hp, h⟩ := bind_eq_ok.mp h
  obtain ⟨q, hq, h⟩ := bind_eq_ok.mp h
  split at h
  · next contents hg =>
    split at h
    · cases h
    · next hne =>
      cases h
      have hinner : IsInner p := isInner_of_get?_ne (t := t) (by simp [hg])
      refine ⟨p, q, contents, hp, hq, hg, hne, ?_⟩
      rw [get?_put (isInner_of_get?_ne hne), get?_erase hinner]
  · cases h
  · cases h

/-- The path names a file, or a place where one can be created. -/
def TakesText (t : FileTree) (path : Path) : Prop :=
  path.ending = .name ∧ ∃ q, t.resolve path = .ok q ∧ t.get? q ≠ some .directory

theorem TakesText.append {path : Path} (h : t.TakesText path) (text : String) :
    ∃ u, t.append path text = .ok u := by
  obtain ⟨he, q, hr, hne⟩ := h
  unfold FileTree.append touch
  rw [hr, ok_bind, he]
  cases hg : t.get? q with
  | none =>
    refine ⟨(t.put q (.file (.text ""))).put q (.file ((Contents.text "").append text)), ?_⟩
    dsimp only
    rw [pure_eq_ok, ok_bind]
    dsimp only
    rw [get?_put (isInner_of_get?_ne hne), Function.update_self]
    rfl
  | some n =>
    cases n with
    | file old =>
      refine ⟨t.put q (.file (old.append text)), ?_⟩
      dsimp only
      rw [pure_eq_ok, ok_bind]
      dsimp only
      rw [hg]
      rfl
    | directory => exact absurd hg hne

/-- Only one file has changed, by what was added to its end. -/
theorem append_eq_ok {path : Path} {text : String} (h : t.append path text = .ok u) :
    path.ending = .name ∧ ∃ q old, t.resolve path = .ok q ∧
      (t.get? q = none ∧ old = .text "" ∨ t.get? q = some (.file old)) ∧
      u.get? = Function.update t.get? q (some (.file (old.append text))) := by
  obtain ⟨⟨q, touched⟩, ht, h⟩ := bind_eq_ok.mp h
  obtain ⟨he, hr, hne, old, hg⟩ := touch_eq_ok ht
  dsimp only at h
  rw [hg, Function.update_self] at h
  cases h
  refine ⟨he, q, old, hr, ?_, ?_⟩
  · unfold touch at ht
    rw [hr, ok_bind, he] at ht
    cases hq : t.get? q with
    | none =>
      rw [hq] at ht
      cases ht
      have hold := congrFun hg q
      rw [get?_put (isInner_of_get?_ne hne), Function.update_self, Function.update_self] at hold
      exact .inl ⟨rfl, by simpa using hold.symm⟩
    | some n =>
      cases n with
      | directory => exact absurd hq hne
      | file contents =>
        rw [hq] at ht
        cases ht
        have hold := congrFun hg q
        rw [Function.update_self, hq] at hold
        exact .inr hold
  · rw [get?_put (isInner_of_get?_ne hne), hg, Function.update_idem]

theorem changes_of_append {path : Path} {text : String} (h : t.append path text = .ok u) :
    ∃ q, t.resolve path = .ok q ∧ t.ChangesFiles {q} u := by
  obtain ⟨-, q, old, hr, hold, hu⟩ := append_eq_ok h
  have hne : t.get? q ≠ some .directory := by
    rcases hold with ⟨hq, -⟩ | hq <;> simp [hq]
  exact ⟨q, hr, .of_update rfl hne (by simp) hu⟩

/-- A path that took a text takes the next one as well. -/
theorem takesText_of_append {path : Path} {text : String} (h : t.append path text = .ok u) :
    t.TakesText path ∧ u.TakesText path := by
  obtain ⟨he, q, old, hr, hold, hu⟩ := append_eq_ok h
  have hne : t.get? q ≠ some .directory := by
    rcases hold with ⟨hq, -⟩ | hq <;> simp [hq]
  have hstay := directoriesStay_of_update hne hu
  exact ⟨⟨he, q, hr, hne⟩, he, q, resolve_mono hstay hr, by rw [hu, Function.update_self]; simp⟩

/-- What was written is read. -/
theorem read_of_write {path : Path} {text : String} (h : t.write path text = .ok u) :
    u.read path = .ok (.text text) := by
  have he : path.ending = .name := by
    obtain ⟨⟨q, touched⟩, ht, -⟩ := bind_eq_ok.mp h
    exact (touch_eq_ok ht).1
  obtain ⟨q, hr, hne, hu⟩ := write_eq_ok h
  have hresolve : u.resolve path = .ok q := resolve_mono (directoriesStay_of_update hne hu) hr
  have hget : u.get? q = some (.file (.text text)) := by rw [hu, Function.update_self]
  rw [read, hresolve, ok_bind, hget]
  exact if_pos he

/-- A path that leads to the same contents as before is read as before. -/
theorem read_congr {path : Path} (hr : u.resolve path = t.resolve path)
    (hg : ∀ q, t.resolve path = .ok q → u.get? q = t.get? q) : u.read path = t.read path := by
  unfold read
  rw [hr]
  cases hq : t.resolve path with
  | error e => rfl
  | ok q =>
    rw [ok_bind, ok_bind, hg q hq]

/-- What a path leads to. -/
def look (t : FileTree) (path : Path) : Except FileError (Option Node) :=
  (t.resolve path).map t.get?

/-- Whether a directory is where a path leads. -/
def isBlocked (t : FileTree) (path : Path) : Except FileError Bool :=
  (t.look path).map (· == some .directory)

section Look

variable {path : Path}

theorem look_congr (hr : u.resolve path = t.resolve path)
    (hg : ∀ q, t.resolve path = .ok q → u.get? q = t.get? q) : u.look path = t.look path := by
  unfold look
  rw [hr]
  cases hq : t.resolve path with
  | error e => rfl
  | ok q =>
    rw [map_ok, map_ok, hg q hq]

theorem isBlocked_congr (hr : u.resolve path = t.resolve path)
    (hg : ∀ q, t.resolve path = .ok q →
      (u.get? q = some .directory ↔ t.get? q = some .directory)) :
    u.isBlocked path = t.isBlocked path := by
  unfold isBlocked look
  rw [hr]
  cases hq : t.resolve path with
  | error e => rfl
  | ok q =>
    rw [map_ok, map_ok, map_ok, map_ok, Except.ok.injEq, Bool.eq_iff_iff]
    simpa using hg q hq

/-- What is read where a path leads to this. -/
def contentsOf : Except FileError (Option Node) → Except FileError Contents
  | .error e => .error e
  | .ok none => .error .notFound
  | .ok (some .directory) => .error .isDirectory
  | .ok (some (.file contents)) => .ok contents

theorem contentsOf_eq_ok {n : Except FileError (Option Node)} {contents : Contents} :
    contentsOf n = .ok contents ↔ n = .ok (some (.file contents)) := by
  unfold contentsOf
  split <;> simp

theorem read_eq_contentsOf (he : path.ending = .name) :
    t.read path = contentsOf (t.look path) := by
  unfold read look
  cases t.resolve path with
  | error e => rfl
  | ok q =>
    rw [ok_bind, map_ok]
    cases t.get? q with
    | none => rfl
    | some n => cases n <;> simp [he, contentsOf]

/-- A file can be opened for writing unless its path leads nowhere or a directory is there. -/
theorem touch_cases (he : path.ending = .name) :
    (∃ e, t.isBlocked path = .error e ∧ t.touch path = .error e) ∨
      (t.isBlocked path = .ok true ∧ t.touch path = .error .isDirectory) ∨
        (t.isBlocked path = .ok false ∧ ∃ q u, t.touch path = .ok (q, u)) := by
  unfold isBlocked look touch
  cases t.resolve path with
  | error e => exact .inl ⟨e, rfl, rfl⟩
  | ok q =>
    refine .inr ?_
    rw [ok_bind, he, map_ok, map_ok]
    cases t.get? q with
    | none => exact .inr ⟨rfl, _, _, rfl⟩
    | some n =>
      cases n with
      | file contents => exact .inr ⟨rfl, _, _, rfl⟩
      | directory => exact .inl ⟨rfl, rfl⟩

theorem exists_of_rename {source target : Path} {contents : Contents} (hp : t.resolve source = .ok p)
    (hq : t.resolve target = .ok q) (hold : t.get? p = some (.file contents))
    (hnew : t.get? q ≠ some .directory) : ∃ u, t.rename source target = .ok u := by
  unfold rename
  rw [hp, ok_bind, hq, ok_bind, hold]
  dsimp only
  split
  · next hd => exact absurd hd hnew
  · exact ⟨_, rfl⟩

end Look

end ServiceCatalog.FileTree
