import Mathlib.Logic.Function.Basic
import ServiceCatalog.Files.Tree
import ServiceCatalog.Proofs.Except
import ServiceCatalog.Proofs.Files.Contents

/-! What operations on a tree leave at each place, and when a walk still leads where it led. -/
namespace ServiceCatalog.FileTree

variable {t u : FileTree} {p q here : Place}

/-- Places where nodes are kept; the two tops are always directories. -/
def IsInner (p : Place) : Prop := p ≠ [] ∧ p ≠ ["/"]

theorem get?_of_isInner (h : IsInner p) (t : FileTree) :
    t.get? p = (t.nodes.find? (·.1 == p)).map (·.2) := by
  rw [get?, if_neg (not_or.mpr h)]

theorem get?_of_not_isInner (h : ¬IsInner p) (t : FileTree) : t.get? p = some .directory := by
  rw [IsInner, not_and_or, not_not, not_not] at h
  rw [get?, if_pos h]

theorem find?_putNode (p q : Place) (n : Node) (nodes : List (Place × Node)) :
    ((putNode p n nodes).find? (·.1 == q)).map (·.2) =
      if q = p then some n else (nodes.find? (·.1 == q)).map (·.2) := by
  induction nodes with
  | nil =>
    by_cases h : q = p
    · simp [putNode, h]
    · simp [putNode, h, Ne.symm h]
  | cons e nodes ih =>
    rw [putNode]
    by_cases he : e.1 = p
    · by_cases h : q = p
      · simp [he, h]
      · simp [he, h, Ne.symm h]
    · by_cases h : e.1 = q
      · have hqp : q ≠ p := h ▸ he
        simp [h, hqp]
      · simpa [he, h] using ih

theorem get?_put (h : IsInner p) (t : FileTree) (n : Node) :
    (t.put p n).get? = Function.update t.get? p (some n) := by
  funext q
  by_cases hq : IsInner q
  · rw [get?_of_isInner hq, put, find?_putNode, Function.update_apply, get?_of_isInner hq]
  · have hne : q ≠ p := by
      rintro rfl
      exact hq h
    rw [Function.update_of_ne hne, get?_of_not_isInner hq, get?_of_not_isInner hq]

theorem get?_erase (h : IsInner p) (t : FileTree) :
    (t.erase p).get? = Function.update t.get? p none := by
  funext q
  by_cases hq : IsInner q
  · rw [get?_of_isInner hq, erase, Function.update_apply, get?_of_isInner hq, List.find?_filter]
    by_cases hqp : q = p
    · subst hqp
      simp
    · rw [if_neg hqp]
      congr 2
      funext e
      by_cases he : e.1 = q
      · simp [he, hqp]
      · simp [he]
  · have hne : q ≠ p := by
      rintro rfl
      exact hq h
    rw [Function.update_of_ne hne, get?_of_not_isInner hq, get?_of_not_isInner hq]

/-- Every directory of one tree is one of the other. -/
def DirectoriesStay (t u : FileTree) : Prop :=
  ∀ p, t.get? p = some .directory → u.get? p = some .directory

theorem DirectoriesStay.refl (t : FileTree) : DirectoriesStay t t := fun _ h => h

theorem DirectoriesStay.trans {v : FileTree} (h : DirectoriesStay t u) (h' : DirectoriesStay u v) :
    DirectoriesStay t v := fun p hp => h' p (h p hp)

theorem directoriesStay_of_update {n : Option Node} (hp : t.get? p ≠ some .directory)
    (hu : u.get? = Function.update t.get? p n) : DirectoriesStay t u := by
  intro q hq
  have hne : q ≠ p := by
    rintro rfl
    exact hp hq
  rw [hu, Function.update_of_ne hne, hq]

theorem walk_cons_eq_ok {s : String} {names : List String} {place : Place} :
    t.walk here (s :: names) = .ok place ↔ t.get? here = some .directory ∧
      (if s = ".." then t.walk here.dropLast names = .ok place
        else checkName s = .ok () ∧ t.walk (here ++ [s]) names = .ok place) := by
  rw [walk]
  cases hg : t.get? here with
  | none => simp [throw, throwThe, MonadExceptOf.throw]
  | some n =>
    cases n with
    | file text => simp [throw, throwThe, MonadExceptOf.throw]
    | directory =>
      by_cases hs : s = ".."
      · simp [hs]
      · cases hc : checkName s with
        | error e => simp [hs]
        | ok x => simp [hs]

theorem walk_mono (hd : DirectoriesStay t u) {names : List String} {place : Place}
    (h : t.walk here names = .ok place) : u.walk here names = .ok place := by
  induction names generalizing here with
  | nil => simpa [walk] using h
  | cons s names ih =>
    rw [walk_cons_eq_ok] at h ⊢
    refine ⟨hd _ h.1, ?_⟩
    have hr := h.2
    split
    · next hs =>
      rw [if_pos hs] at hr
      exact ih hr
    · next hs =>
      rw [if_neg hs] at hr
      exact ⟨hr.1, ih hr.2⟩

/-- A walk sees nothing of a tree but what stands at its places. -/
theorem walk_congr (h : u.get? = t.get?) (here : Place) (names : List String) :
    u.walk here names = t.walk here names := by
  induction names generalizing here with
  | nil => rw [walk, walk]
  | cons s names ih => simp only [walk, h, ih]

theorem resolve_congr (h : u.get? = t.get?) (path : Path) : u.resolve path = t.resolve path := by
  unfold resolve
  rw [walk_congr h]

/-- A walk goes on from where it led. -/
theorem walk_append (t : FileTree) (here : Place) (names rest : List String) :
    t.walk here (names ++ rest) = (t.walk here names >>= fun place => t.walk place rest) := by
  induction names generalizing here with
  | nil => rw [List.nil_append, walk, ok_bind]
  | cons s names ih =>
    rw [List.cons_append, walk, walk]
    cases hg : t.get? here with
    | none => rfl
    | some n =>
      cases n with
      | file text => rfl
      | directory =>
        by_cases hs : s = ".."
        · simp only [if_pos hs]
          exact ih _
        · simp only [if_neg hs]
          cases hc : checkName s with
          | error e => rfl
          | ok x => exact ih _

theorem walk_singleton_eq_ok {s : String} (hs : s ≠ "..") {place : Place} :
    t.walk here [s] = .ok place ↔
      t.get? here = some .directory ∧ checkName s = .ok () ∧ place = here ++ [s] := by
  rw [walk_cons_eq_ok, if_neg hs, walk, Except.ok.injEq, eq_comm (a := here ++ [s])]

theorem walk_append_singleton {names : List String} {place : Place} {s : String}
    (h : t.walk here names = .ok place) (hplace : t.get? place = some .directory)
    (hs : s ≠ "..") (hc : checkName s = .ok ()) :
    t.walk here (names ++ [s]) = .ok (place ++ [s]) := by
  rw [walk_append, h, ok_bind]
  exact (walk_singleton_eq_ok hs).mpr ⟨hplace, hc, rfl⟩

theorem walk_of_resolve {path : Path} (h : t.resolve path = .ok q) :
    t.walk (top path) path.names = .ok q := by
  obtain ⟨u, -, h⟩ := bind_eq_ok.mp h
  split at h
  · cases h
  · exact h

/-- Where directories stay, a path leads where it led. -/
theorem resolve_mono (hd : DirectoriesStay t u) {path : Path} (h : t.resolve path = .ok q) :
    u.resolve path = .ok q := by
  obtain ⟨x, hc, h⟩ := bind_eq_ok.mp h
  unfold resolve
  rw [hc, ok_bind]
  split at h
  · cases h
  · next hn =>
    rw [if_neg hn]
    exact walk_mono hd h

/-- Every directory on the way down to a place is there. -/
def IsDeep (t : FileTree) (here : Place) : Prop := ∀ q, q <+: here → t.get? q = some .directory

theorem isDeep_top (t : FileTree) (p : Path) : t.IsDeep (top p) := by
  intro q hq
  refine get?_of_not_isInner ?_ t
  rintro ⟨hnil, htop⟩
  unfold top at hq
  split at hq
  · rcases List.prefix_cons_iff.mp hq with rfl | ⟨r, rfl, hr⟩
    · exact hnil rfl
    · rw [List.prefix_nil.mp hr] at htop
      exact htop rfl
  · exact hnil (List.prefix_nil.mp hq)

theorem IsDeep.concat (h : t.IsDeep here) (hd : DirectoriesStay t u) {s : String}
    (hs : u.get? (here ++ [s]) = some .directory) : u.IsDeep (here ++ [s]) := by
  intro q hq
  rcases List.prefix_concat_iff.mp hq with rfl | hq
  · exact hs
  · exact hd q (h q hq)

/-- Directories that were made can be walked. -/
theorem walk_of_makeAlong {names : List String} (h : t.IsDeep here)
    (hm : makeAlong here names t = (.ok (), u)) :
    DirectoriesStay t u ∧
      ∃ place, u.walk here names = .ok place ∧ u.get? place = some .directory := by
  induction names generalizing here t with
  | nil =>
    obtain rfl : t = u := by simpa [makeAlong] using hm
    exact ⟨.refl t, here, by rw [walk], h here List.prefix_rfl⟩
  | cons s names ih =>
    rw [makeAlong] at hm
    by_cases hs : s = ".."
    · rw [if_pos hs] at hm
      obtain ⟨hd, place, hw, hp⟩ := ih (fun q hq => h q (hq.trans here.dropLast_prefix)) hm
      exact ⟨hd, place, walk_cons_eq_ok.mpr ⟨hd _ (h here List.prefix_rfl), by rwa [if_pos hs]⟩, hp⟩
    · rw [if_neg hs] at hm
      have hstep : ∀ v : FileTree, checkName s = .ok () → DirectoriesStay t v →
          v.get? (here ++ [s]) = some .directory → makeAlong (here ++ [s]) names v = (.ok (), u) →
          DirectoriesStay t u ∧
            ∃ place, u.walk here (s :: names) = .ok place ∧ u.get? place = some .directory := by
        intro v hc htv hv hmv
        obtain ⟨hvu, place, hw, hp⟩ := ih (h.concat htv hv) hmv
        refine ⟨htv.trans hvu, place, walk_cons_eq_ok.mpr ⟨?_, by rw [if_neg hs]; exact ⟨hc, hw⟩⟩, hp⟩
        exact hvu _ (htv _ (h here List.prefix_rfl))
      dsimp only at hm
      cases hc : checkName s with
      | error e => simp [hc] at hm
      | ok x =>
        cases hg : t.get? (here ++ [s]) with
        | some n =>
          cases n with
          | file text => simp [hc, hg] at hm
          | directory => exact hstep t hc (.refl t) hg (by simpa [hc, hg] using hm)
        | none =>
          have hinner : IsInner (here ++ [s]) := by
            by_contra hn
            rw [get?_of_not_isInner hn] at hg
            cases hg
          have hput := get?_put hinner t .directory
          refine hstep _ hc (directoriesStay_of_update (by simp [hg]) hput) ?_
            (by simpa [hc, hg] using hm)
          rw [hput, Function.update_self]

theorem walk_of_createDirectories {p : Path} (hm : t.createDirectories p = (.ok (), u)) :
    checkText p = .ok () ∧
      ∃ place, u.walk (top p) p.names = .ok place ∧ u.get? place = some .directory := by
  unfold createDirectories at hm
  split at hm
  · simp at hm
  · next hc =>
    refine ⟨hc, ?_⟩
    split at hm
    · next hd =>
      obtain rfl : t = u := by simpa using hm
      unfold isDirectory resolve at hd
      rw [hc, ok_bind] at hd
      split at hd
      · next place hr =>
        refine ⟨place, ?_, by simpa using hd⟩
        split at hr
        · simp [throw, throwThe, MonadExceptOf.throw] at hr
        · simpa using hr
      · cases hd
    · split at hm
      · split at hm <;> simp at hm
      · exact (walk_of_makeAlong (isDeep_top t p) hm).2

/-- A directory that is there need not be made. -/
theorem createDirectories_of_walk {p : Path} {place : Place} (hc : checkText p = .ok ())
    (hw : t.walk (top p) p.names = .ok place) (hd : t.get? place = some .directory) :
    t.createDirectories p = (.ok (), t) := by
  unfold createDirectories
  rw [hc]
  dsimp only
  by_cases he : (p.names.isEmpty && p.ending == .name && !p.absolute) = true
  · simp only [Bool.and_eq_true, beq_iff_eq, List.isEmpty_iff] at he
    split
    · rfl
    · rw [if_neg (by simp [he.1.2]), he.1.1, makeAlong]
  · have hdir : t.isDirectory p = true := by
      unfold isDirectory resolve
      rw [hc, ok_bind, if_neg he]
      simp [hw, hd]
    rw [if_pos hdir]

end ServiceCatalog.FileTree
