import ServiceCatalog.Proofs.Files.Change

/-!
Trees that differ in what has been set up. What is missing on the way to a directory is made in the
smaller tree and found in the larger one, and both lead to the same places.
-/
namespace ServiceCatalog.FileTree

variable {t u v : FileTree} {places others : Set Place} {p q here place : Place} {path : Path}

theorem get?_put_of_none (h : t.get? p = none) (n : Node) :
    (t.put p n).get? = Function.update t.get? p (some n) := by
  have hne : t.get? p ≠ some .directory := by simp [h]
  exact get?_put (isInner_of_get?_ne hne) t n

/-- Beside what `t` holds there are directories in `u`, and empty files at some places. -/
def Grows (places : Set Place) (t u : FileTree) : Prop :=
  ∀ p, u.get? p = t.get? p ∨ t.get? p = none ∧
    (u.get? p = some .directory ∨ p ∈ places ∧ u.get? p = some (.file (.text "")))

namespace Grows

theorem refl (places : Set Place) (t : FileTree) : Grows places t t := fun _ => .inl rfl

theorem mono (h : Grows places t u) (hs : places ⊆ others) : Grows others t u :=
  fun p => (h p).imp_right fun hp => ⟨hp.1, hp.2.imp_right fun hq => ⟨hs hq.1, hq.2⟩⟩

theorem trans (h : Grows places t u) (h' : Grows places u v) : Grows places t v := by
  intro p
  rcases h' p with he | ⟨hnone, hnew⟩
  · rw [he]
    exact h p
  · refine .inr ⟨?_, hnew⟩
    rcases h p with he | ⟨hnone', -⟩
    · rw [← he, hnone]
    · exact hnone'

theorem directoriesStay (h : Grows places t u) : DirectoriesStay t u := by
  intro p hp
  rcases h p with he | ⟨hnone, -⟩
  · rw [he, hp]
  · rw [hp] at hnone
    cases hnone

/-- No file of the smaller tree has changed. -/
theorem file (h : Grows places t u) {contents : Contents} (hp : t.get? p = some (.file contents)) :
    u.get? p = some (.file contents) := by
  rcases h p with he | ⟨hnone, -⟩
  · rw [he, hp]
  · rw [hp] at hnone
    cases hnone

/-- What the larger tree has neither made new as a directory nor as an empty file. -/
theorem get?_eq (h : Grows places t u) (hd : u.get? p ≠ some .directory) (hp : p ∉ places) :
    t.get? p = u.get? p := by
  rcases h p with he | ⟨-, hnew | ⟨hmem, -⟩⟩
  · exact he.symm
  · exact absurd hnew hd
  · exact absurd hmem hp

/-- Where only directories are new, the files are the same. -/
theorem file_iff (h : Grows ∅ t u) {contents : Contents} :
    u.get? p = some (.file contents) ↔ t.get? p = some (.file contents) :=
  ⟨fun hp => by rw [h.get?_eq (by simp [hp]) (Set.notMem_empty p), hp], h.file⟩

theorem get?_cases (h : Grows places t u) (hp : u.get? p = some .directory) :
    t.get? p = some .directory ∨ t.get? p = none := by
  rcases h p with he | ⟨hnone, -⟩
  · exact .inl (he ▸ hp)
  · exact .inr hnone

/-- A walk of the larger tree leads to the same place in the smaller one, or nowhere. -/
theorem walk (h : Grows places t u) {names : List String} (hw : u.walk here names = .ok place) :
    t.walk here names = .ok place ∨ t.walk here names = .error .notFound := by
  induction names generalizing here with
  | nil => exact .inl hw
  | cons s names ih =>
    obtain ⟨hd, hrest⟩ := walk_cons_eq_ok.mp hw
    rw [FileTree.walk]
    rcases h.get?_cases hd with hd' | hnone
    · rw [hd']
      dsimp only
      split at hrest
      · next hs =>
        rw [if_pos hs]
        exact ih hrest
      · next hs =>
        rw [if_neg hs, hrest.1, ok_bind]
        exact ih hrest.2
    · rw [hnone]
      exact .inr rfl

theorem resolve (h : Grows places t u) (hr : u.resolve path = .ok p) :
    t.resolve path = .ok p ∨ t.resolve path = .error .notFound := by
  obtain ⟨x, hc, hr⟩ := bind_eq_ok.mp hr
  unfold FileTree.resolve
  rw [hc, ok_bind]
  split at hr
  · cases hr
  · next hn =>
    rw [if_neg hn]
    exact h.walk hr

/-- A file that can be read goes on being so. -/
theorem read (h : Grows places t u) {contents : Contents} (hr : t.read path = .ok contents) :
    u.read path = .ok contents := by
  obtain ⟨q, hq, hr⟩ := bind_eq_ok.mp hr
  unfold FileTree.read
  rw [resolve_mono h.directoriesStay hq, ok_bind]
  split at hr
  · cases hr
  · cases hr
  · next hf =>
    rw [h.file hf]
    exact hr

/-- An empty file of the larger tree may be missing in the smaller one. -/
theorem read_empty (h : Grows places t u) (he : path.ending = .name) (hr : u.resolve path = .ok p)
    (hp : u.get? p = some (.file (.text ""))) :
    t.read path = .ok (.text "") ∨ t.read path = .error .notFound := by
  unfold FileTree.read
  rcases h.resolve hr with hr' | hr'
  · rw [hr', ok_bind]
    rcases h p with hsame | ⟨hnone, -⟩
    · rw [← hsame, hp]
      exact .inl (if_pos he)
    · rw [hnone]
      exact .inr rfl
  · rw [hr', error_bind]
    exact .inr rfl

/-- What the larger tree has may be put where the smaller one has nothing. -/
theorem put (h : Grows places t u) {n : Node} (hnone : t.get? p = none) (hp : u.get? p = some n) :
    Grows places (t.put p n) u := by
  intro q
  rw [get?_put_of_none hnone]
  by_cases hq : q = p
  · subst hq
    exact .inl (by rw [hp, Function.update_self])
  · rw [Function.update_of_ne hq]
    exact h q

/-- The directories on the way to one that the larger tree has can be made in the smaller one. -/
theorem makeAlong (h : Grows places t u) {names : List String} (hw : u.walk here names = .ok place)
    (hp : u.get? place = some .directory) :
    ∃ t', FileTree.makeAlong here names t = (.ok (), t') ∧ Grows places t' u := by
  induction names generalizing here t with
  | nil => exact ⟨t, rfl, h⟩
  | cons s names ih =>
    obtain ⟨-, hrest⟩ := walk_cons_eq_ok.mp hw
    rw [FileTree.makeAlong]
    split at hrest
    · next hs =>
      rw [if_pos hs]
      exact ih h hrest
    · next hs =>
      rw [if_neg hs, hrest.1]
      dsimp only
      have hnext : u.get? (here ++ [s]) = some .directory := by
        cases names with
        | nil =>
          cases hrest.2
          exact hp
        | cons r names => exact (walk_cons_eq_ok.mp hrest.2).1
      rcases h.get?_cases hnext with hd | hnone
      · rw [hd]
        exact ih h hrest.2
      · rw [hnone]
        exact ih (h.put hnone hnext) hrest.2

end Grows

theorem grows_of_put {n : Node} (hnone : t.get? p = none)
    (hn : n = .directory ∨ p ∈ places ∧ n = .file (.text "")) : Grows places t (t.put p n) := by
  intro q
  rw [get?_put_of_none hnone]
  by_cases hq : q = p
  · subst hq
    rw [Function.update_self, Option.some.injEq, Option.some.injEq]
    exact .inr ⟨hnone, hn⟩
  · exact .inl (Function.update_of_ne hq ..)

theorem grows_of_makeAlong {names : List String} {made : Except FileError Unit}
    (h : makeAlong here names t = (made, u)) : Grows ∅ t u := by
  induction names generalizing here t with
  | nil =>
    cases h
    exact .refl ∅ _
  | cons s names ih =>
    rw [makeAlong] at h
    split at h
    · exact ih h
    · dsimp only at h
      split at h
      · cases h
        exact .refl ∅ _
      · exact ih h
      · cases h
        exact .refl ∅ _
      · next hnone _ => exact (grows_of_put hnone (.inl rfl)).trans (ih h)

theorem grows_of_createDirectories {made : Except FileError Unit}
    (h : t.createDirectories path = (made, u)) : Grows ∅ t u := by
  unfold createDirectories at h
  split at h
  · cases h
    exact .refl ∅ _
  · split at h
    · cases h
      exact .refl ∅ _
    · split at h
      · split at h
        · next hm =>
          cases h
          exact grows_of_makeAlong hm
        · next hm =>
          cases h
          exact grows_of_makeAlong hm
      · exact grows_of_makeAlong h

theorem grows_of_makeDirectories (h : t.makeDirectories path = .ok u) : Grows ∅ t u := by
  rcases hm : t.createDirectories path with ⟨made, made'⟩
  unfold makeDirectories at h
  rw [hm] at h
  cases made with
  | error e => cases h
  | ok x =>
    cases h
    exact grows_of_createDirectories hm

/-- A directory of the larger tree can be made in the smaller one. -/
theorem Grows.makeDirectories (h : Grows places t u) (hc : checkText path = .ok ())
    (he : path.ending ≠ .dot) (hw : u.walk (top path) path.names = .ok place)
    (hp : u.get? place = some .directory) :
    ∃ t', t.makeDirectories path = .ok t' ∧ Grows places t' u ∧
      t'.walk (top path) path.names = .ok place ∧ t'.get? place = some .directory := by
  have hmade : ∃ t', t.createDirectories path = (.ok (), t') ∧ Grows places t' u := by
    unfold createDirectories
    rw [hc]
    dsimp only
    rw [if_neg he]
    split
    · exact ⟨t, rfl, h⟩
    · exact h.makeAlong hw hp
  obtain ⟨t', hmade, hgrows⟩ := hmade
  obtain ⟨-, place', hw', hp'⟩ := walk_of_createDirectories hmade
  have hsame : u.walk (top path) path.names = .ok place' := walk_mono hgrows.directoriesStay hw'
  obtain rfl : place = place' := by
    rw [hw] at hsame
    exact Except.ok.inj hsame
  exact ⟨t', by rw [FileTree.makeDirectories, hmade]; rfl, hgrows, hw', hp'⟩

/-- Opening a file for writing creates it at most. -/
theorem grows_of_touch (h : t.touch path = .ok (q, u)) :
    Grows {q} t u ∧ ∃ contents, u.get? q = some (.file contents) := by
  obtain ⟨he, hr, hne, contents, hu⟩ := touch_eq_ok h
  refine ⟨?_, contents, by rw [hu, Function.update_self]⟩
  unfold touch at h
  rw [hr, ok_bind, he] at h
  cases hq : t.get? q with
  | none =>
    rw [hq] at h
    cases h
    exact grows_of_put hq (.inr ⟨rfl, rfl⟩)
  | some n =>
    cases n with
    | directory => exact absurd hq hne
    | file old =>
      rw [hq] at h
      cases h
      exact .refl _ t

/-- A file of the larger tree can be opened in the smaller one, where its directory is there. -/
theorem Grows.touch (h : Grows {q} t u) {contents : Contents} (he : path.ending = .name)
    (hr : t.resolve path = .ok q) (hq : u.get? q = some (.file contents)) :
    ∃ t', t.touch path = .ok (q, t') ∧ Grows {q} t' u ∧ t'.get? q = some (.file contents) := by
  unfold FileTree.touch
  rw [hr, ok_bind, he]
  rcases h q with hsame | ⟨hnone, hnew | ⟨-, hnew⟩⟩
  · rw [hq] at hsame
    rw [← hsame]
    exact ⟨t, rfl, h, hsame.symm⟩
  · rw [hq] at hnew
    cases hnew
  · rw [hq] at hnew
    cases hnew
    rw [hnone]
    exact ⟨t.put q (.file (.text "")), rfl, h.put hnone hq,
      by rw [get?_put_of_none hnone, Function.update_self]⟩

/-- A path to a file comes by the directory that the file stands in, and does so in any tree that has
this directory. -/
theorem exists_parent_of_resolve (hr : u.resolve path = .ok q) (hq : u.get? q ≠ some .directory) :
    ∃ place, u.walk (top path) path.parent.names = .ok place ∧ u.get? place = some .directory ∧
      ∀ t : FileTree, t.walk (top path) path.parent.names = .ok place →
        t.get? place = some .directory → t.resolve path = .ok q := by
  obtain ⟨x, hc, hr⟩ := bind_eq_ok.mp hr
  split at hr
  · cases hr
  · next hn =>
    rcases List.eq_nil_or_concat path.names with hnil | ⟨names, last, hnames⟩
    · rw [hnil] at hr
      cases hr
      exact absurd (isDeep_top u path (top path) List.prefix_rfl) hq
    · have hparent : path.parent.names = names := by
        rw [Path.parent, hnames, List.concat_eq_append, List.dropLast_concat]
      rw [hnames, List.concat_eq_append, walk_append] at hr
      obtain ⟨place, hw, hlast⟩ := bind_eq_ok.mp hr
      obtain ⟨hd, hlast⟩ := walk_cons_eq_ok.mp hlast
      rw [hparent]
      refine ⟨place, hw, hd, fun t ht htd => ?_⟩
      unfold resolve
      rw [hc, ok_bind, if_neg hn, hnames, List.concat_eq_append, walk_append, ht, ok_bind]
      exact walk_cons_eq_ok.mpr ⟨htd, hlast⟩

theorem checkText_parent (h : checkText path = .ok ()) : checkText path.parent = .ok () := by
  unfold checkText at h ⊢
  split at h
  · cases h
  · next hnul =>
    have hparent : ¬(path.parent.names.any fun s => s.toList.contains (Char.ofNat 0)) = true := by
      rw [Bool.not_eq_true, List.any_eq_false] at hnul ⊢
      exact fun s hs => hnul s ((List.dropLast_sublist _).subset hs)
    rw [if_neg hparent]
    exact h

end ServiceCatalog.FileTree
