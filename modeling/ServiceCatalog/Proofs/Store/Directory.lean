import ServiceCatalog.Proofs.Files.Path
import ServiceCatalog.Proofs.Files.Tree
import ServiceCatalog.Proofs.Store.RoundTrip
import ServiceCatalog.Proofs.Store.View

/-! The store in a directory answers as its view does, while nobody else writes to the directory. -/
namespace ServiceCatalog

theorem isIdChar_of_mem {id : String} (h : isValidId id = true) :
    ∀ c ∈ id.toList, isIdChar c = true := by
  simp only [isValidId, Bool.and_eq_true, List.all_eq_true] at h
  exact h.2

/-- An id with a short suffix names a file. -/
theorem isFileName_of_isValidId {id suffix : String} (h : isValidId id = true)
    (hs : suffix.utf8ByteSize ≤ 9) (hslash : '/' ∉ suffix.toList)
    (hnul : Char.ofNat 0 ∉ suffix.toList) : IsFileName (id ++ suffix) := by
  have hchars := isIdChar_of_mem h
  simp only [isValidId, Bool.and_eq_true, decide_eq_true_eq, Bool.not_eq_true',
    String.isEmpty_eq_false_iff] at h
  obtain ⟨c, cs, hid⟩ : ∃ c cs, id.toList = c :: cs :=
    List.exists_cons_of_ne_nil (by simpa using h.1.1)
  have hne : ∀ d : Char, isIdChar d = false → d ∉ id.toList := by
    intro d hd hm
    rw [hchars d hm] at hd
    cases hd
  have hdot : ∀ s : String, s.toList.head? = some '.' → id ++ suffix ≠ s := by
    rintro s hhead rfl
    rw [String.toList_append, hid, List.cons_append, List.head?_cons, Option.some.injEq] at hhead
    exact hne '.' (by decide) (by simp [hid, hhead])
  refine ⟨hdot "." (by decide), hdot ".." (by decide), ?_, ?_, ?_, ?_⟩
  · intro he
    have := congrArg String.toList he
    simp [hid] at this
  · rw [String.toList_append, List.mem_append, not_or]
    exact ⟨hne '/' (by decide), hslash⟩
  · rw [String.toList_append, List.mem_append, not_or]
    exact ⟨hne _ (by decide), hnul⟩
  · have := h.1.2
    rw [String.utf8ByteSize_append]
    unfold maxIdBytes at this
    omega

namespace Directory

theorem isFileName_recordName {id : String} (h : isValidId id = true) : IsFileName (recordName id) :=
  isFileName_of_isValidId h (by decide) (by decide) (by decide)

theorem isFileName_draftName {id : String} (h : isValidId id = true) : IsFileName (draftName id) :=
  isFileName_of_isValidId h (by decide) (by decide) (by decide)

theorem isFileName_lockName : IsFileName lockName :=
  ⟨by decide, by decide, by decide, by decide, by decide, by decide⟩

theorem getLast?_recordName (id : String) : (recordName id).toList.getLast? = some 'n' := by
  simp [recordName]

theorem getLast?_draftName (id : String) : (draftName id).toList.getLast? = some 'p' := by
  simp [draftName]

theorem ne_of_getLast? {f g : String} {a b : Char} (hf : f.toList.getLast? = some a)
    (hg : g.toList.getLast? = some b) (h : a ≠ b) : f ≠ g := by
  rintro rfl
  exact h (Option.some.inj (hf.symm.trans hg))

theorem recordName_ne_draftName (id other : String) : recordName id ≠ draftName other :=
  ne_of_getLast? (getLast?_recordName id) (getLast?_draftName other) (by decide)

theorem recordName_ne_lockName (id : String) : recordName id ≠ lockName :=
  ne_of_getLast? (b := 'k') (getLast?_recordName id) (by decide) (by decide)

theorem draftName_ne_lockName (id : String) : draftName id ≠ lockName :=
  ne_of_getLast? (b := 'k') (getLast?_draftName id) (by decide) (by decide)

theorem recordName_injective : Function.Injective recordName := by
  intro a b h
  have := congrArg String.toList h
  simpa [recordName, String.toList_inj] using this

variable {D : Type} {files : FileTree} {s : Directory D} {home : Place}

/-- The path leads to the directory. -/
structure Reaches (files : FileTree) (s : Directory D) (home : Place) : Prop where
  walk : files.walk (FileTree.top (.ofText s.path)) (Path.ofText s.path).names = .ok home
  isDirectory : files.get? home = some .directory
  noNul : ∀ n ∈ (Path.ofText s.path).names, Char.ofNat 0 ∉ n.toList

theorem Reaches.mono {files' : FileTree} (h : Reaches files s home)
    (hd : files.DirectoriesStay files') : Reaches files' s home :=
  ⟨FileTree.walk_mono hd h.walk, hd _ h.isDirectory, h.noNul⟩

theorem names_place (s : Directory D) {f : String} (hf : IsFileName f) :
    (s.place f).names = (Path.ofText s.path).names ++ [f] :=
  Path.names_join s.path hf

theorem top_place (s : Directory D) {f : String} (hf : IsFileName f) :
    FileTree.top (s.place f) = FileTree.top (.ofText s.path) := by
  rw [FileTree.top, FileTree.top, place, Path.absolute_join s.path hf]

theorem ending_place (s : Directory D) {f : String} (hf : IsFileName f) :
    (s.place f).ending = .name :=
  Path.ending_join s.path hf

theorem checkName_of_isFileName {f : String} (hf : IsFileName f) :
    FileTree.checkName f = .ok () := by
  have := hf.short
  rw [FileTree.checkName, if_neg (by omega)]

/-- A file of the directory is where its path leads, if that is not too long. -/
theorem Reaches.resolve (h : Reaches files s home) {f : String} (hf : IsFileName f) :
    files.resolve (s.place f) =
      if (s.place f).bytes > FileTree.maxPathBytes then .error .nameTooLong
      else .ok (home ++ [f]) := by
  have hnul : ((s.place f).names.any fun n => n.toList.contains (Char.ofNat 0)) = false := by
    simp only [List.any_eq_false, List.contains_iff_mem, names_place s hf, List.mem_append,
      List.mem_singleton]
    rintro n (hn | rfl)
    · exact h.noNul n hn
    · exact hf.noNul
  have hwalk : files.walk (FileTree.top (s.place f)) (s.place f).names = .ok (home ++ [f]) := by
    rw [top_place s hf, names_place s hf]
    exact FileTree.walk_append_singleton h.walk h.isDirectory hf.notParent (checkName_of_isFileName hf)
  unfold FileTree.resolve FileTree.checkText
  rw [hnul, if_neg Bool.false_ne_true]
  split
  · rfl
  · rw [ok_bind, hwalk]
    simp [names_place s hf]

theorem reaches_of_resolve {f : String} (hf : IsFileName f) {q : Place}
    (h : files.resolve (s.place f) = .ok q) : ∃ home, Reaches files s home ∧ q = home ++ [f] := by
  have hwalk := FileTree.walk_of_resolve h
  obtain ⟨u, hc, -⟩ := bind_eq_ok.mp h
  rw [top_place s hf, names_place s hf, FileTree.walk_append] at hwalk
  obtain ⟨home, hw, hlast⟩ := bind_eq_ok.mp hwalk
  obtain ⟨hd, -, rfl⟩ := (FileTree.walk_singleton_eq_ok hf.notParent).mp hlast
  refine ⟨home, ⟨hw, hd, fun n hn hz => ?_⟩, rfl⟩
  unfold FileTree.checkText at hc
  split at hc
  · cases hc
  · next hnul =>
    simp only [List.any_eq_true, List.contains_iff_mem, not_exists, not_and] at hnul
    exact hnul n (by simp [names_place s hf, hn]) hz

/-- The directory is there, and its path leaves room for the names of its files. -/
structure Stands (files : FileTree) (s : Directory D) (home : Place) : Prop where
  walk : files.walk (FileTree.top (.ofText s.path)) (Path.ofText s.path).names = .ok home
  isDirectory : files.get? home = some .directory
  checked : FileTree.checkText (.ofText s.path) = .ok ()
  room : s.path.utf8ByteSize + 138 ≤ FileTree.maxPathBytes

theorem stands_of_makeDirectories {before : FileTree}
    (h : before.makeDirectories (.ofText s.path) = .ok files)
    (hroom : s.path.utf8ByteSize + 138 ≤ FileTree.maxPathBytes) : ∃ home, Stands files s home := by
  unfold FileTree.makeDirectories at h
  rcases hm : before.createDirectories (.ofText s.path) with ⟨made, t⟩
  rw [hm] at h
  obtain ⟨u, rfl, rfl⟩ := map_eq_ok.mp h
  obtain ⟨hc, home, hw, hd⟩ := FileTree.walk_of_createDirectories hm
  exact ⟨home, hw, hd, hc, hroom⟩

theorem stands_of_create {path : String} {before : FileTree}
    (h : create before path = .ok (s, files))
    (hroom : path.utf8ByteSize + 138 ≤ FileTree.maxPathBytes) : ∃ home, Stands files s home := by
  obtain ⟨made, hm, h⟩ := bind_eq_ok.mp h
  cases h
  exact stands_of_makeDirectories (s := ⟨path, {}⟩) hm hroom

/-- Opening a directory again that is there changes nothing on disk. -/
theorem Stands.create (h : Stands files s home) :
    Directory.create files s.path = .ok ((⟨s.path, {}⟩ : Directory D), files) := by
  unfold Directory.create FileTree.makeDirectories
  rw [FileTree.createDirectories_of_walk h.checked h.walk h.isDirectory]
  rfl

theorem Stands.mono {files' : FileTree} (h : Stands files s home)
    (hd : files.DirectoriesStay files') : Stands files' s home :=
  ⟨FileTree.walk_mono hd h.walk, hd _ h.isDirectory, h.checked, h.room⟩

theorem isInner_concat {f : String} (home : Place) (hf : IsFileName f) :
    FileTree.IsInner (home ++ [f]) := by
  refine ⟨by simp, fun h => ?_⟩
  have hlast := congrArg List.getLast? h
  rw [List.getLast?_concat, List.getLast?_singleton, Option.some.injEq] at hlast
  exact hf.noSlash (by simp [hlast])

theorem Stands.reaches (h : Stands files s home) : Reaches files s home where
  walk := h.walk
  isDirectory := h.isDirectory
  noNul n hn hz := by
    have hc := h.checked
    unfold FileTree.checkText at hc
    split at hc
    · cases hc
    · next hnul =>
      simp only [List.any_eq_true, List.contains_iff_mem, not_exists, not_and] at hnul
      exact hnul n hn hz

/-- Where a file of the directory stands. -/
theorem Stands.resolve (h : Stands files s home) {f : String} (hf : IsFileName f) :
    files.resolve (s.place f) = .ok (home ++ [f]) := by
  have hbytes : ¬(s.place f).bytes > FileTree.maxPathBytes := by
    have hjoin := Path.bytes_join s.path f
    have hroom := h.room
    have hshort := hf.short
    show ¬(Path.join s.path f).utf8ByteSize > _
    omega
  rw [h.reaches.resolve hf, if_neg hbytes]

theorem Stands.read (h : Stands files s home) {f : String} (hf : IsFileName f) :
    files.read (s.place f) =
      match files.get? (home ++ [f]) with
      | none => .error .notFound
      | some .directory => .error .isDirectory
      | some (.file contents) => .ok contents := by
  rw [FileTree.read, h.resolve hf, ok_bind]
  cases files.get? (home ++ [f]) with
  | none => rfl
  | some n =>
    cases n with
    | file contents => simp [ending_place s hf]
    | directory => rfl

theorem Stands.touch (h : Stands files s home) {f : String} (hf : IsFileName f)
    (hn : files.get? (home ++ [f]) ≠ some .directory) :
    ∃ files' contents, files.touch (s.place f) = .ok (home ++ [f], files') ∧
      files'.get? = Function.update files.get? (home ++ [f]) (some (.file contents)) := by
  rw [FileTree.touch, h.resolve hf, ok_bind, ending_place s hf]
  cases hg : files.get? (home ++ [f]) with
  | none => exact ⟨_, .text "", rfl, FileTree.get?_put (isInner_concat home hf) files _⟩
  | some n =>
    cases n with
    | file contents => exact ⟨files, contents, rfl, by rw [← hg, Function.update_eq_self]⟩
    | directory => exact absurd hg hn

theorem Stands.write (h : Stands files s home) {f : String} (hf : IsFileName f)
    (hn : files.get? (home ++ [f]) ≠ some .directory) (text : String) :
    ∃ files', files.write (s.place f) text = .ok files' ∧
      files'.get? = Function.update files.get? (home ++ [f]) (some (.file (.text text))) := by
  obtain ⟨files', old, ht, hg⟩ := h.touch hf hn
  refine ⟨files'.put (home ++ [f]) (.file (.text text)), by simp [FileTree.write, ht], ?_⟩
  rw [FileTree.get?_put (isInner_concat home hf), hg, Function.update_idem]

theorem Stands.rename (h : Stands files s home) {f g : String} (hf : IsFileName f)
    (hg : IsFileName g) {contents : Contents}
    (hold : files.get? (home ++ [f]) = some (.file contents))
    (hnew : files.get? (home ++ [g]) ≠ some .directory) :
    ∃ files', files.rename (s.place f) (s.place g) = .ok files' ∧
      files'.get? = Function.update (Function.update files.get? (home ++ [f]) none) (home ++ [g])
        (some (.file contents)) := by
  refine ⟨(files.erase (home ++ [f])).put (home ++ [g]) (.file contents), ?_, ?_⟩
  · rw [FileTree.rename, h.resolve hf, ok_bind, h.resolve hg, ok_bind, hold]
    cases hn : files.get? (home ++ [g]) with
    | none => rfl
    | some n =>
      cases n with
      | file old => rfl
      | directory => exact absurd hn hnew
  · rw [FileTree.get?_put (isInner_concat home hg), FileTree.get?_erase (isInner_concat home hf)]

/-- The draft is gone and the record is there. -/
theorem Stands.replace (h : Stands files s home) {id : String} (hid : isValidId id = true)
    (hdraft : files.get? (home ++ [draftName id]) ≠ some .directory)
    (hrecord : files.get? (home ++ [recordName id]) ≠ some .directory) (text : String) :
    ∃ files', s.replace files id text = .ok files' ∧
      files'.get? = Function.update (Function.update files.get? (home ++ [draftName id]) none)
        (home ++ [recordName id]) (some (.file (.text text))) := by
  have hd := isFileName_draftName hid
  have hr := isFileName_recordName hid
  have hne : home ++ [recordName id] ≠ home ++ [draftName id] := by
    simpa using recordName_ne_draftName id id
  obtain ⟨written, hw, hwg⟩ := h.write hd hdraft text
  have hstands : Stands written s home :=
    h.mono (FileTree.directoriesStay_of_update hdraft hwg)
  have hold : written.get? (home ++ [draftName id]) = some (.file (.text text)) := by
    rw [hwg, Function.update_self]
  have hnew : written.get? (home ++ [recordName id]) ≠ some .directory := by
    rw [hwg, Function.update_of_ne hne]
    exact hrecord
  obtain ⟨files', hm, hmg⟩ := hstands.rename hd hr hold hnew
  refine ⟨files', by simp [Directory.replace, hw, hm], ?_⟩
  rw [hmg, hwg, Function.update_idem]

variable [Document D] {v : View D}

def stored (r : Versioned D) : Stored D := ⟨r.version, r.modifiedAt, r.document⟩

/-- The record files are those of the view, and no directory is where the store writes. -/
structure Keeps (files : FileTree) (s : Directory D) (home : Place) (v : View D) : Prop extends
    Stands files s home where
  records : ∀ id, isValidId id = true →
    files.get? (home ++ [recordName id]) = (v id).map fun r => .file (.text (stored r).toText)
  drafts : ∀ id, isValidId id = true → files.get? (home ++ [draftName id]) ≠ some .directory
  lock : files.get? (home ++ [lockName]) ≠ some .directory
  readable : ∀ id r, v id = some r →
    r.id = id ∧ Document.Readable r.document ∧ r.modifiedAt.Valid

theorem Keeps.readRecord (h : Keeps files s home v) {id : String} (hid : isValidId id = true) :
    readRecord files s id = .ok ((v id).map stored) := by
  unfold Directory.readRecord
  rw [h.read (isFileName_recordName hid), h.records id hid]
  cases hv : v id with
  | none => rfl
  | some r =>
    obtain ⟨-, hd, ht⟩ := h.readable id r hv
    have htext : Stored.ofText? (stored r).toText = some (stored r) := Stored.ofText?_toText hd ht
    simp [htext]

theorem Keeps.fetch (h : Keeps files s home v) (id : String) :
    fetch files s id = v.fetch id := by
  unfold Directory.fetch View.fetch
  cases hid : isValidId id with
  | false => simp [validateId_of_invalid hid]
  | true =>
    rw [validateId_of_isValidId hid, ok_bind, h.readRecord hid]
    cases hv : v id with
    | none => simp
    | some r =>
      obtain ⟨rfl, -⟩ := h.readable id r hv
      simp [stored, Stored.versioned]

/-- The lock file may appear. -/
theorem Keeps.touch_lock (h : Keeps files s home v) :
    ∃ place files', files.touch (s.place lockName) = .ok (place, files') ∧
      Keeps files' s home v := by
  obtain ⟨files', text, ht, hg⟩ := h.touch isFileName_lockName h.lock
  have hne : ∀ {f : String}, f ≠ lockName →
      files'.get? (home ++ [f]) = files.get? (home ++ [f]) := by
    intro f hf
    rw [hg, Function.update_of_ne (by simpa using hf)]
  refine ⟨_, files', ht, h.mono (FileTree.directoriesStay_of_update h.lock hg), ?_, ?_, ?_, ?_⟩
  · intro id hid
    rw [hne (recordName_ne_lockName id), h.records id hid]
  · intro id hid
    rw [hne (draftName_ne_lockName id)]
    exact h.drafts id hid
  · rw [hg, Function.update_self]
    simp
  · exact h.readable

theorem Keeps.replace (h : Keeps files s home v) {r : Versioned D} (hid : isValidId r.id = true)
    (hd : Document.Readable r.document) (ht : r.modifiedAt.Valid) :
    ∃ files', s.replace files r.id (stored r).toText = .ok files' ∧
      Keeps files' s home (Function.update v r.id (some r)) := by
  have hrecord : files.get? (home ++ [recordName r.id]) ≠ some .directory := by
    rw [h.records r.id hid]
    cases v r.id <;> simp
  obtain ⟨files', hr, hg⟩ := h.toStands.replace hid (h.drafts r.id hid) hrecord (stored r).toText
  have hdraft : ∀ id, home ++ [recordName id] ≠ home ++ [draftName r.id] := fun id => by
    simpa using recordName_ne_draftName id r.id
  have hstay : files.DirectoriesStay files' := by
    intro p hp
    rw [hg, Function.update_of_ne, Function.update_of_ne, hp]
    · rintro rfl
      exact h.drafts r.id hid hp
    · rintro rfl
      exact hrecord hp
  have hold : ∀ p, files'.get? p = some .directory → files.get? p = some .directory := by
    intro p hp
    rw [hg, Function.update_apply, Function.update_apply] at hp
    split at hp
    · cases hp
    · split at hp
      · cases hp
      · exact hp
  refine ⟨files', hr, h.mono hstay, ?_, fun id hv hp => h.drafts id hv (hold _ hp),
    fun hp => h.lock (hold _ hp), ?_⟩
  · intro id hv
    by_cases he : id = r.id
    · subst he
      rw [hg, Function.update_self, Function.update_self]
      rfl
    · have hne : home ++ [recordName id] ≠ home ++ [recordName r.id] := by
        simpa using fun hn => he (recordName_injective hn)
      rw [hg, Function.update_of_ne hne, Function.update_of_ne (hdraft id),
        Function.update_of_ne he, h.records id hv]
  · intro id q hq
    rw [Function.update_apply] at hq
    split at hq
    · next he =>
      obtain rfl := Option.some.inj hq
      exact ⟨he.symm, hd, ht⟩
    · exact h.readable id q hq

/-- A feed is no file. -/
theorem Keeps.withFeed (h : Keeps files s home v) (f : Feed D) :
    Keeps files { s with feed := f } home v :=
  ⟨⟨h.walk, h.isDirectory, h.checked, h.room⟩, h.records, h.drafts, h.lock, h.readable⟩

theorem Keeps.saveLocked_of_eq (h : Keeps files s home v) {r : Versioned D}
    (hid : isValidId r.id = true) (hd : Document.Readable r.document) (ht : r.modifiedAt.Valid)
    {expected : Option Token} (he : v.version? r.id = expected) :
    ∃ files', saveLocked files s r.modifiedAt r.version r.id r.document expected =
        .ok (r, files', { s with feed := s.feed.publish r }) ∧
      Keeps files' s home (Function.update v r.id (some r)) := by
  obtain ⟨files', hr, hk⟩ := h.replace hid hd ht
  have hversion : ((v r.id).map stored).map (·.version) = expected := by
    rw [Option.map_map]
    exact he
  refine ⟨files', ?_, hk⟩
  unfold saveLocked
  rw [h.readRecord hid, ok_bind, if_pos hversion]
  unfold stored at hr
  simp [hr, Stored.versioned]

theorem Keeps.saveLocked_of_ne (h : Keeps files s home v) {r : Versioned D}
    (hid : isValidId r.id = true) {expected : Option Token} (he : v.version? r.id ≠ expected) :
    saveLocked files s r.modifiedAt r.version r.id r.document expected =
      .error (.conflict r.id expected (v.version? r.id)) := by
  have hversion : ((v r.id).map stored).map (·.version) = v.version? r.id := by
    rw [Option.map_map]
    rfl
  unfold saveLocked
  rw [h.readRecord hid, ok_bind, hversion, if_neg he]
  rfl

/-- An opened directory in which nothing stands keeps the empty view. -/
theorem Stands.keeps_of_empty (h : Stands files s home)
    (he : ∀ f, files.get? (home ++ [f]) = none) : Keeps files s home fun _ => none :=
  ⟨h, fun id _ => he _, fun id _ => by simp [he], by simp [he], by simp⟩

end Directory
end ServiceCatalog
