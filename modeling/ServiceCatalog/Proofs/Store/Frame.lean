import ServiceCatalog.Proofs.Files.Change
import ServiceCatalog.Proofs.Store.Shelf

/-!
What a save does to the records of its own store and to those of a store beside it. The tree of files
may be anything: records can be broken and directories can stand in the way.
-/
namespace ServiceCatalog

/-- Two names in one directory. -/
def Path.Siblings (p q : String) : Prop :=
  ∃ base f g, IsFileName f ∧ IsFileName g ∧ f ≠ g ∧ p = join base f ∧ q = join base g

theorem Path.Siblings.symm {p q : String} (h : Siblings p q) : Siblings q p := by
  obtain ⟨base, f, g, hf, hg, hne, hp, hq⟩ := h
  exact ⟨base, g, f, hg, hf, hne.symm, hq, hp⟩

namespace Directory

variable {D E : Type} {files files' : FileTree} {s s' : Directory D} {t : Directory E} {home : Place}
  {places : Set Place} {id : String}

theorem Reaches.eq_of_resolve (h : Reaches files s home) {f : String} (hf : IsFileName f) {q : Place}
    (hq : files.resolve (s.place f) = .ok q) :
    q = home ++ [f] ∧ ¬(s.place f).bytes > FileTree.maxPathBytes := by
  rw [h.resolve hf] at hq
  split at hq
  · cases hq
  · next hshort =>
    cases hq
    exact ⟨rfl, hshort⟩

/-- A file away from the changes is read as before. -/
theorem Reaches.read_congr (h : Reaches files s home) (hc : files.ChangesFiles places files')
    {f : String} (hf : IsFileName f) (hp : home ++ [f] ∉ places) :
    files'.read (s.place f) = files.read (s.place f) := by
  refine FileTree.read_congr ?_ fun q hq => ?_
  · rw [h.resolve hf, (h.mono hc.directoriesStay).resolve hf]
  · rw [(h.eq_of_resolve hf hq).1, hc.get?_of_notMem hp]

/-- The walk to a file beside the directory comes by the directory above both. -/
theorem Reaches.walk_sibling (h : Reaches files s home) (hst : Path.Siblings s.path t.path) :
    ∃ up own other, home = up ++ [own] ∧ own ≠ other ∧ other ≠ ".." ∧
      files.get? up = some .directory ∧ ∀ {u : FileTree}, files.DirectoriesStay u → ∀ {f : String},
        IsFileName f → u.walk (FileTree.top (t.place f)) (t.place f).names = u.walk up [other, f] := by
  obtain ⟨base, own, other, hown, hother, hne, hs, ht⟩ := hst
  have hbase := h.walk
  rw [FileTree.top, hs, Path.absolute_join base hown, Path.names_join base hown,
    FileTree.walk_append] at hbase
  obtain ⟨up, hup, hlast⟩ := bind_eq_ok.mp hbase
  obtain ⟨hd, -, rfl⟩ := (FileTree.walk_singleton_eq_ok hown.notParent).mp hlast
  refine ⟨up, own, other, rfl, hne, hother.notParent, hd, fun {u} hu {f} hf => ?_⟩
  have hupper := FileTree.walk_mono hu hup
  rw [top_place t hf, names_place t hf, ht, FileTree.top, Path.absolute_join base hother,
    Path.names_join base hother, List.append_assoc, FileTree.walk_append, hupper, ok_bind]
  rfl

/-- Changes in one directory do not show in another one beside it. -/
theorem Reaches.look_sibling (h : Reaches files s home) (hst : Path.Siblings s.path t.path)
    (hc : files.ChangesFiles {p | ∃ f, p = home ++ [f]} files') {f : String} (hf : IsFileName f) :
    files'.look (t.place f) = files.look (t.place f) := by
  obtain ⟨up, own, other, rfl, hne, hother, hd, hwalk⟩ := h.walk_sibling hst
  have hdirectory : files'.get? (up ++ [other]) = files.get? (up ++ [other]) := by
    refine hc.get?_of_notMem ?_
    rintro ⟨g, hg⟩
    simpa using congrArg List.length hg
  have hfile : files'.get? (up ++ [other] ++ [f]) = files.get? (up ++ [other] ++ [f]) := by
    refine hc.get?_of_notMem ?_
    rintro ⟨g, hg⟩
    simp [hne.symm] at hg
  have hrest : files'.walk up [other, f] = files.walk up [other, f] := by
    simp only [FileTree.walk, hc.get?_of_directory hd, hdirectory, if_neg hother]
  refine FileTree.look_congr ?_ fun q hq => ?_
  · rw [FileTree.resolve, FileTree.resolve, hwalk hc.directoriesStay hf, hwalk (.refl files) hf, hrest]
  · have hq := FileTree.walk_of_resolve hq
    rw [hwalk (.refl files) hf, ← List.singleton_append, FileTree.walk_append] at hq
    obtain ⟨inner, hinner, hq⟩ := bind_eq_ok.mp hq
    obtain ⟨-, -, rfl⟩ := (FileTree.walk_singleton_eq_ok hother).mp hinner
    obtain ⟨-, -, rfl⟩ := (FileTree.walk_singleton_eq_ok hf.notParent).mp hq
    exact hfile

theorem Reaches.read_sibling (h : Reaches files s home) (hst : Path.Siblings s.path t.path)
    (hc : files.ChangesFiles {p | ∃ f, p = home ++ [f]} files') {f : String} (hf : IsFileName f) :
    files'.read (t.place f) = files.read (t.place f) := by
  have he := ending_place t hf
  rw [FileTree.read_eq_contentsOf he, FileTree.read_eq_contentsOf he, h.look_sibling hst hc hf]

theorem changes_of_touch {f : String} (hf : IsFileName f) {q : Place}
    (h : files.touch (s.place f) = .ok (q, files')) :
    ∃ home, Reaches files s home ∧ files.ChangesFiles {home ++ [f]} files' := by
  obtain ⟨-, hr, hne, text, hu⟩ := FileTree.touch_eq_ok h
  obtain ⟨home, hreaches, rfl⟩ := reaches_of_resolve hf hr
  exact ⟨home, hreaches, .of_update rfl hne (by simp) hu⟩

/-- Where a save writes. -/
def written (home : Place) (id : String) : Set Place :=
  {home ++ [lockName], home ++ [draftName id], home ++ [recordName id]}

theorem Reaches.changes_of_replace (h : Reaches files s home) (hid : isValidId id = true)
    {text : String} (hr : s.replace files id text = .ok files') :
    files.ChangesFiles (written home id) files' ∧
      files'.read (s.place (recordName id)) = .ok (.text text) := by
  have hdraft := isFileName_draftName hid
  have hrecord := isFileName_recordName hid
  obtain ⟨drafted, hwrite, hrename⟩ := bind_eq_ok.mp hr
  obtain ⟨p, hp, hpne, hpu⟩ := FileTree.write_eq_ok hwrite
  obtain ⟨rfl, -⟩ := h.eq_of_resolve hdraft hp
  have hc : files.ChangesFiles (written home id) drafted :=
    .of_update (by simp [written]) hpne (by simp) hpu
  have hreaches := h.mono hc.directoriesStay
  obtain ⟨q, r, old, hq, hnew, hold, hrne, hru⟩ := FileTree.rename_eq_ok hrename
  obtain ⟨rfl, -⟩ := hreaches.eq_of_resolve hdraft hq
  obtain ⟨rfl, hshort⟩ := hreaches.eq_of_resolve hrecord hnew
  obtain rfl : .text text = old := by
    rw [hpu, Function.update_self] at hold
    cases hold
    rfl
  have hc' : drafted.ChangesFiles (written home id) files' :=
    .of_update_update (by simp [written]) (by simp [written]) (by simp [hold]) hrne (by simp)
      (by simp) hru
  refine ⟨hc.trans hc', ?_⟩
  have hresolve := (hreaches.mono hc'.directoriesStay).resolve hrecord
  rw [if_neg hshort] at hresolve
  rw [FileTree.read, hresolve, ok_bind, hru, Function.update_self]
  simp [ending_place s hrecord]

variable [Document D] [Document E]

theorem fetch_congr (h : isValidId id = true →
    files'.read (s.place (recordName id)) = files.read (s.place (recordName id))) :
    fetch files' s id = fetch files s id := by
  unfold fetch
  cases hid : isValidId id with
  | false => rw [validateId_of_invalid hid, error_bind, error_bind]
  | true => rw [readRecord, readRecord, h hid]

/-- What is read of a record once it has been written. -/
def reread (r : Versioned D) : Except StoreError (Versioned D) :=
  match Stored.ofText? (stored r).toText with
  | some kept => .ok (kept.versioned r.id)
  | none => .error .serialization

theorem reread_of_readable {r : Versioned D} (hd : Document.Readable r.document)
    (ht : r.modifiedAt.Valid) : reread r = .ok r := by
  have htext : Stored.ofText? (stored r).toText = some (stored r) := Stored.ofText?_toText hd ht
  rw [reread, htext]
  rfl

theorem fetch_of_read {r : Versioned D} (hid : isValidId r.id = true)
    (hr : files.read (s.place (recordName r.id)) = .ok (.text (stored r).toText)) :
    fetch files s r.id = (reread r).map some := by
  rw [fetch, validateId_of_isValidId hid, ok_bind, readRecord, hr, reread]
  cases ht : Stored.ofText? (D := D) (stored r).toText <;> simp [ht, Except.map]

variable {now : Instant} {fresh : Token} {lockFree : Bool} {document : D} {expected : Option Token}

/-- How a save can go: it stops with the lock file there at most, or the record is replaced and
published. -/
theorem save_cases {answer : Except StoreError (Versioned D)}
    (h : save files s now fresh lockFree id document expected = (answer, files', s')) :
    (∃ e, answer = .error e ∧ s' = s ∧
      (files' = files ∨ ∃ q, files.touch (s.place lockName) = .ok (q, files'))) ∨
    (isValidId id = true ∧ answer = .ok ⟨id, document, fresh, now⟩ ∧
      s' = { s with feed := s.feed.publish ⟨id, document, fresh, now⟩ } ∧
      ∃ q touched, files.touch (s.place lockName) = .ok (q, touched) ∧
        s.replace touched id (stored ⟨id, document, fresh, now⟩).toText = .ok files') := by
  unfold save at h
  cases hid : isValidId id with
  | false =>
    rw [validateId_of_invalid hid] at h
    cases h
    exact .inl ⟨_, rfl, rfl, .inl rfl⟩
  | true =>
    rw [validateId_of_isValidId hid] at h
    dsimp only at h
    split at h
    · cases h
      exact .inl ⟨_, rfl, rfl, .inl rfl⟩
    · next q touched ht =>
      split at h
      · split at h
        · next hl =>
          cases h
          obtain ⟨found, -, hl⟩ := bind_eq_ok.mp hl
          dsimp only at hl
          split at hl
          · split at hl
            · next hr =>
              cases hl
              exact .inr ⟨rfl, rfl, rfl, q, touched, ht, hr⟩
            · cases hl
          · cases hl
        · cases h
          exact .inl ⟨_, rfl, rfl, .inr ⟨q, ht⟩⟩
      · cases h
        exact .inl ⟨_, rfl, rfl, .inr ⟨q, ht⟩⟩

/-- A save that fails has touched the lock file at most. -/
theorem save_eq_error {e : StoreError}
    (h : save files s now fresh lockFree id document expected = (.error e, files', s')) :
    s' = s ∧ (files' = files ∨
      ∃ home, Reaches files s home ∧ files.ChangesFiles {home ++ [lockName]} files') := by
  rcases save_cases h with ⟨-, -, hs, hfiles⟩ | ⟨-, hanswer, -⟩
  · refine ⟨hs, hfiles.imp_right ?_⟩
    rintro ⟨q, ht⟩
    exact changes_of_touch isFileName_lockName ht
  · cases hanswer

theorem save_eq_ok {r : Versioned D}
    (h : save files s now fresh lockFree id document expected = (.ok r, files', s')) :
    isValidId id = true ∧ r = ⟨id, document, fresh, now⟩ ∧
      s' = { s with feed := s.feed.publish r } ∧
      ∃ home, Reaches files s home ∧ files.ChangesFiles (written home id) files' ∧
        files'.read (s.place (recordName id)) = .ok (.text (stored r).toText) := by
  rcases save_cases h with ⟨e, hanswer, -⟩ | ⟨hid, hanswer, hs, q, touched, ht, hr⟩
  · cases hanswer
  · cases hanswer
    obtain ⟨home, hreaches, hc⟩ := changes_of_touch isFileName_lockName ht
    have hsub : {home ++ [lockName]} ⊆ written home id := by simp [written]
    obtain ⟨hc', hread⟩ := (hreaches.mono hc.directoriesStay).changes_of_replace hid hr
    exact ⟨hid, rfl, hs, home, hreaches, (hc.mono hsub).trans hc', hread⟩

/-- Whatever it answers, a save writes where it should at most. -/
theorem changes_of_save {answer : Except StoreError (Versioned D)}
    (h : save files s now fresh lockFree id document expected = (answer, files', s')) :
    s'.path = s.path ∧ (files' = files ∨
      ∃ home, Reaches files s home ∧ files.ChangesFiles (written home id) files') := by
  cases answer with
  | error e =>
    obtain ⟨rfl, hfiles⟩ := save_eq_error h
    refine ⟨rfl, hfiles.imp_right ?_⟩
    rintro ⟨home, hreaches, hc⟩
    exact ⟨home, hreaches, hc.mono (by simp [written])⟩
  | ok r =>
    obtain ⟨-, -, rfl, home, hreaches, hc, -⟩ := save_eq_ok h
    exact ⟨rfl, .inr ⟨home, hreaches, hc⟩⟩

theorem written_subset (home : Place) (id : String) :
    written home id ⊆ {p | ∃ f, p = home ++ [f]} := by
  rintro p (rfl | rfl | rfl) <;> exact ⟨_, rfl⟩

/-- The record of another id is not written. -/
theorem recordName_notMem_written {i : String} (hi : i ≠ id) :
    home ++ [recordName i] ∉ written home id := by
  simp [written, recordName_ne_lockName, recordName_ne_draftName, recordName_injective.eq_iff, hi]

end Directory

namespace Memory

variable {D : Type} {m m' : Memory D} {now : Instant} {fresh : Token} {id : String} {document : D}
  {expected : Option Token} {r : Versioned D}

theorem save_eq_ok (h : m.save now fresh id document expected = .ok (r, m')) :
    isValidId id = true ∧ r = ⟨id, document, fresh, now⟩ ∧
      m' = { records := put m.records r, feed := m.feed.publish r } := by
  obtain ⟨u, hv, h⟩ := bind_eq_ok.mp h
  have hid : isValidId id = true := by
    by_contra hn
    rw [validateId_of_invalid (Bool.not_eq_true _ ▸ hn)] at hv
    cases hv
  dsimp only at h
  split at h
  · cases h
    exact ⟨hid, rfl, rfl⟩
  · cases h

end Memory

namespace Shelf

variable {D E : Type} {files files' : FileTree} {s s' : Shelf D} {t : Shelf E}

/-- Where the store is kept, if it is kept in files. -/
def path? : Shelf D → Option String
  | .memory _ => none
  | .directory d => some d.path

/-- The stores share no file. -/
def Beside (s : Shelf D) (t : Shelf E) : Prop := ∀ p ∈ s.path?, ∀ q ∈ t.path?, Path.Siblings p q

theorem Beside.congr {t' : Shelf E} (h : Beside s t) (hs : s'.path? = s.path?)
    (ht : t'.path? = t.path?) : Beside s' t' := by
  rwa [Beside, hs, ht]

theorem Beside.symm (h : Beside s t) : Beside t s := fun q hq p hp => (h p hp q hq).symm

variable [Document D] [Document E]

/-- Every read is answered as before, and nothing was queued. -/
structure Unchanged (files : FileTree) (s : Shelf D) (files' : FileTree) (s' : Shelf D) : Prop where
  fetch : ∀ id, s'.fetch files' id = s.fetch files id
  feed : s'.feed = s.feed

/-- One record was inserted or replaced and published, and all others are as before. -/
structure Commits (files : FileTree) (s : Shelf D) (files' : FileTree) (s' : Shelf D)
    (r : Versioned D) : Prop where
  stored : s'.fetch files' r.id = .ok (some r)
  others : ∀ id, id ≠ r.id → s'.fetch files' id = s.fetch files id
  feed : s'.feed = s.feed.publish r

variable {now : Instant} {fresh : Token} {lockFree : Bool} {id : String} {document : D}
  {expected : Option Token} {answer : Except StoreError (Versioned D)} {r : Versioned D}

theorem exists_of_save_directory {d : Directory D}
    (h : save files (.directory d) now fresh lockFree id document expected = (answer, files', s')) :
    ∃ d', d.save files now fresh lockFree id document expected = (answer, files', d') ∧
      s' = .directory d' := by
  unfold save at h
  rcases hd : d.save files now fresh lockFree id document expected with ⟨a, f, d'⟩
  simp only [hd] at h
  cases h
  exact ⟨d', rfl, rfl⟩

/-- A save that fails changes nothing. -/
theorem save_unchanged {e : StoreError}
    (h : s.save files now fresh lockFree id document expected = (.error e, files', s')) :
    Unchanged files s files' s' := by
  cases s with
  | memory m =>
    unfold save at h
    dsimp only at h
    split at h <;> cases h
    exact ⟨fun _ => rfl, rfl⟩
  | directory d =>
    obtain ⟨d', hd, rfl⟩ := exists_of_save_directory h
    obtain ⟨rfl, rfl | ⟨home, hreaches, hc⟩⟩ := Directory.save_eq_error hd
    · exact ⟨fun _ => rfl, rfl⟩
    · refine ⟨fun i => Directory.fetch_congr fun hi => ?_, rfl⟩
      refine hreaches.read_congr hc (Directory.isFileName_recordName hi) ?_
      simp [Directory.recordName_ne_lockName]

/-- Files come and go, directories do not. -/
theorem changes_of_save
    (h : s.save files now fresh lockFree id document expected = (answer, files', s')) :
    ∃ places, files.ChangesFiles places files' := by
  cases s with
  | memory m =>
    unfold save at h
    dsimp only at h
    split at h <;> cases h <;> exact ⟨∅, .refl ∅ files⟩
  | directory d =>
    obtain ⟨d', hs, rfl⟩ := exists_of_save_directory h
    obtain ⟨-, rfl | ⟨home, -, hc⟩⟩ := Directory.changes_of_save hs
    · exact ⟨∅, .refl ∅ _⟩
    · exact ⟨_, hc⟩

/-- A store beside it does not show a save. -/
theorem fetch_beside (hb : Beside s t)
    (h : s.save files now fresh lockFree id document expected = (answer, files', s')) (i : String) :
    t.fetch files' i = t.fetch files i := by
  cases s with
  | memory m =>
    unfold save at h
    dsimp only at h
    split at h <;> cases h <;> rfl
  | directory d =>
    obtain ⟨d', hs, rfl⟩ := exists_of_save_directory h
    cases t with
    | memory m => rfl
    | directory e =>
      have hsiblings : Path.Siblings d.path e.path := hb _ rfl _ rfl
      refine Directory.fetch_congr fun hv => ?_
      obtain ⟨-, rfl | ⟨home, hreaches, hc⟩⟩ := Directory.changes_of_save hs
      · rfl
      · exact hreaches.read_sibling hsiblings (hc.mono (Directory.written_subset home id))
          (Directory.isFileName_recordName hv)

theorem path?_save
    (h : s.save files now fresh lockFree id document expected = (answer, files', s')) :
    s'.path? = s.path? := by
  cases s with
  | memory m =>
    unfold save at h
    dsimp only at h
    split at h <;> cases h <;> rfl
  | directory d =>
    obtain ⟨d', hs, rfl⟩ := exists_of_save_directory h
    exact congrArg some (Directory.changes_of_save hs).1

/-- What a store shows of a record that was saved in it: one in a directory keeps its text. -/
def reread (s : Shelf D) (r : Versioned D) : Except StoreError (Versioned D) :=
  match s.path? with
  | none => .ok r
  | some _ => Directory.reread r

/-- The store gives this record back as it was saved: if it is kept in a file, its text does. -/
def Returns (s : Shelf D) (r : Versioned D) : Prop :=
  s.path? = none ∨ Stored.ofText? (Directory.stored r).toText = some (Directory.stored r)

theorem returns_of_readable (s : Shelf D) (hd : Document.Readable r.document)
    (ht : r.modifiedAt.Valid) : s.Returns r := .inr (Stored.ofText?_toText hd ht)

theorem Returns.reread (h : s.Returns r) : s.reread r = .ok r := by
  unfold Shelf.reread
  cases hp : s.path? with
  | none => rfl
  | some path =>
    rcases h with h | h
    · rw [hp] at h
      cases h
    · dsimp only
      rw [Directory.reread, h]
      rfl

theorem reread_congr (h : s'.path? = s.path?) : s'.reread = s.reread := by
  unfold Shelf.reread
  rw [h]

/-- A save that succeeds changes the record of its id only. -/
theorem save_eq_ok
    (h : s.save files now fresh lockFree id document expected = (.ok r, files', s')) :
    isValidId id = true ∧ r = ⟨id, document, fresh, now⟩ ∧
      s'.fetch files' id = (s.reread r).map some ∧
      ∀ i, i ≠ id → s'.fetch files' i = s.fetch files i := by
  cases s with
  | memory m =>
    unfold save at h
    dsimp only at h
    split at h
    · next hm =>
      cases h
      obtain ⟨hid, rfl, rfl⟩ := Memory.save_eq_ok hm
      refine ⟨hid, rfl, ?_, fun i hi => ?_⟩
      · show Memory.fetch _ id = _
        rw [Memory.fetch_eq, Memory.get?_put, View.fetch, if_pos hid, Function.update_self]
        rfl
      · show Memory.fetch _ i = Memory.fetch _ i
        rw [Memory.fetch_eq, Memory.fetch_eq, Memory.get?_put, View.fetch, View.fetch,
          Function.update_of_ne hi]
    · cases h
  | directory d =>
    obtain ⟨d', hs, rfl⟩ := exists_of_save_directory h
    obtain ⟨hid, rfl, rfl, home, hreaches, hc, hread⟩ := Directory.save_eq_ok hs
    have hstored := Directory.fetch_of_read (r := ⟨id, document, fresh, now⟩) hid hread
    refine ⟨hid, rfl, hstored, fun i hi => Directory.fetch_congr fun hv => ?_⟩
    exact hreaches.read_congr hc (Directory.isFileName_recordName hv)
      (Directory.recordName_notMem_written hi)

/-- Only a commit shows in the feed. -/
theorem feed_save
    (h : s.save files now fresh lockFree id document expected = (answer, files', s')) :
    s'.feed = s.feed.after answer := by
  cases s with
  | memory m =>
    unfold save at h
    dsimp only at h
    split at h
    · next hm =>
      cases h
      obtain ⟨-, -, rfl⟩ := Memory.save_eq_ok hm
      rfl
    · cases h
      rfl
  | directory d =>
    obtain ⟨d', hs, rfl⟩ := exists_of_save_directory h
    cases answer with
    | error e =>
      obtain ⟨rfl, -⟩ := Directory.save_eq_error hs
      rfl
    | ok r =>
      obtain ⟨-, -, rfl, -⟩ := Directory.save_eq_ok hs
      rfl

theorem save_commits (hd : Document.Readable document) (hnow : now.Valid)
    (h : s.save files now fresh lockFree id document expected = (.ok r, files', s')) :
    r = ⟨id, document, fresh, now⟩ ∧ Commits files s files' s' r := by
  obtain ⟨-, rfl, hstored, hothers⟩ := save_eq_ok h
  rw [(returns_of_readable s (r := ⟨id, document, fresh, now⟩) hd hnow).reread] at hstored
  exact ⟨rfl, hstored, hothers, feed_save h⟩

end Shelf
end ServiceCatalog
