import ServiceCatalog.Proofs.App.Serving

/-!
Where the application stands on disk. It can be set up again wherever it has been set up before, in
whole or in part, and finds what was there.
-/
namespace ServiceCatalog

namespace ItemLog

variable {path : String} {files files' : FileTree} {log : Place}

/-- First the directories, then the file. -/
def madeFor (files : FileTree) (path : Path) : Except FileError FileTree :=
  if path.parent.names.isEmpty then .ok files else files.makeDirectories path.parent

theorem openAt_eq (files : FileTree) (path : String) : openAt files path =
    (madeFor files (.ofText path) >>= fun made => (made.touch (.ofText path)).map (·.2)) := by
  unfold openAt madeFor
  dsimp only
  split
  · rfl
  · rfl

theorem openAt_eq_ok (h : openAt files path = .ok files') :
    (Path.ofText path).ending = .name ∧ ∃ log, files'.resolve (.ofText path) = .ok log ∧
      files.Grows {log} files' ∧ ∃ contents, files'.get? log = some (.file contents) := by
  rw [openAt_eq] at h
  obtain ⟨made, hm, h⟩ := bind_eq_ok.mp h
  obtain ⟨⟨log, touched⟩, ht, rfl⟩ := map_eq_ok.mp h
  obtain ⟨he, hr, -⟩ := FileTree.touch_eq_ok ht
  obtain ⟨hgrows, hcontents⟩ := FileTree.grows_of_touch ht
  have hmade : files.Grows ∅ made := by
    unfold madeFor at hm
    split at hm
    · cases hm
      exact .refl ∅ _
    · exact FileTree.grows_of_makeDirectories hm
  exact ⟨he, log, FileTree.resolve_mono hgrows.directoriesStay hr,
    (hmade.mono (Set.empty_subset _)).trans hgrows, hcontents⟩

/-- The log of a larger tree can be opened in the smaller one. -/
theorem openAt_of_grows {contents : Contents} (hg : files.Grows {log} files')
    (he : (Path.ofText path).ending = .name) (hr : files'.resolve (.ofText path) = .ok log)
    (hl : files'.get? log = some (.file contents)) :
    ∃ opened, openAt files path = .ok opened ∧ opened.Grows {log} files' ∧
      opened.resolve (.ofText path) = .ok log ∧ opened.get? log = some (.file contents) := by
  obtain ⟨place, hw, hd, hparent⟩ := FileTree.exists_parent_of_resolve hr (by simp [hl])
  have hmade : ∃ made, madeFor files (.ofText path) = .ok made ∧
      made.Grows {log} files' ∧ made.resolve (.ofText path) = .ok log := by
    unfold madeFor
    split
    · next hempty =>
      rw [List.isEmpty_iff] at hempty
      rw [hempty] at hw hparent
      cases hw
      exact ⟨files, rfl, hg, hparent files rfl
        (FileTree.isDeep_top files _ _ List.prefix_rfl)⟩
    · obtain ⟨x, hc, -⟩ := bind_eq_ok.mp hr
      obtain ⟨made, hm, hgm, hwm, hdm⟩ := hg.makeDirectories (FileTree.checkText_parent hc)
        (by simp [Path.parent]) hw hd
      exact ⟨made, hm, hgm, hparent made hwm hdm⟩
  obtain ⟨made, hm, hgm, hrm⟩ := hmade
  obtain ⟨opened, ht, hgo, hlo⟩ := hgm.touch he hrm hl
  have hopen : openAt files path = .ok opened := by
    rw [openAt_eq, hm, ok_bind, ht]
    rfl
  have hstay : made.DirectoriesStay opened := (FileTree.grows_of_touch ht).1.directoriesStay
  exact ⟨opened, hopen, hgo, FileTree.resolve_mono hstay hrm, hlo⟩

end ItemLog

namespace World

variable {s : Settings} {files files' : FileTree} {w : World} {now : Instant} {mint : Nat → Token}
  {sink : SinkState} {ttl : Span} {home : MachineName → Place} {log : Place} {m : MachineName}

theorem isFileName_text (m : MachineName) : IsFileName m.text := by
  cases m
  · exact isFileName_lifecycle
  · exact isFileName_publication

/-- The directory in which the store of a machine is kept. -/
def directory (s : Settings) (m : MachineName) : Directory (Item m.State) where
  path := Path.join s.store.directory m.text

/-- The application as it is when its stores have been opened on disk. -/
def onDisk (s : Settings) (ttl : Span) (now : Instant) (mint : Nat → Token) (sink : SinkState)
    (files : FileTree) : World where
  now; mint; files; sink
  lifecycle := .directory (directory s .lifecycle)
  publication := .directory (directory s .publication)
  topicList := s.topics.list
  topicCache := ⟨ttl, none⟩

@[simp] theorem shelf_onDisk :
    (onDisk s ttl now mint sink files).shelf m = .directory (directory s m) := by
  cases m <;> rfl

@[simp] theorem path?_onDisk :
    ((onDisk s ttl now mint sink files).shelf m).path? = some (directory s m).path := by
  rw [shelf_onDisk]
  rfl

theorem openShelf_eq_ok_iff {S : Type} (hs : s.store.storage = .filesystem) {machine : String}
    {shelf : Shelf (Item S)} : openShelf s.store machine files = .ok (shelf, files') ↔
      files.makeDirectories (.ofText (Path.join s.store.directory machine)) = .ok files' ∧
        shelf = .directory ⟨Path.join s.store.directory machine, {}⟩ := by
  unfold openShelf Directory.create
  rw [hs]
  dsimp only
  cases files.makeDirectories (.ofText (Path.join s.store.directory machine)) with
  | error e => simp
  | ok made => simp [and_comm, eq_comm]

/-- Two directories are made, one after the other. -/
theorem openAll_eq_ok_iff (hs : s.store.storage = .filesystem) :
    openAll s now mint sink files = (.ok w, files') ↔
      ∃ ttl opened, s.topicsTtl? = some ttl ∧
        files.makeDirectories (.ofText (directory s .lifecycle).path) = .ok opened ∧
        opened.makeDirectories (.ofText (directory s .publication).path) = .ok files' ∧
        w = onDisk s ttl now mint sink files' := by
  constructor
  · intro h
    unfold openAll at h
    split at h
    · cases h
    · next lifecycle opened hl =>
      split at h
      · cases h
      · next publication opened' hp =>
        obtain ⟨hmade, rfl⟩ := (openShelf_eq_ok_iff hs).mp hl
        obtain ⟨hmade', rfl⟩ := (openShelf_eq_ok_iff hs).mp hp
        split at h
        · cases h
        · next ttl httl =>
          cases h
          exact ⟨ttl, opened, httl, hmade, hmade', rfl⟩
  · rintro ⟨ttl, opened, httl, hl, hp, rfl⟩
    have hlifecycle : openShelf s.store Lifecycle.machineName files =
        .ok (.directory (directory s .lifecycle), opened) := (openShelf_eq_ok_iff hs).mpr ⟨hl, rfl⟩
    have hpublication : openShelf s.store Publication.machineName opened =
        .ok (.directory (directory s .publication), files') := (openShelf_eq_ok_iff hs).mpr ⟨hp, rfl⟩
    unfold openAll
    rw [hlifecycle]
    dsimp only
    rw [hpublication, httl]
    rfl

/-- A directory that stands in the larger tree can be made in the smaller one. -/
theorem stands_of_grows {places : Set Place} {place : Place}
    (hu : Directory.Stands files' (directory s m) place) (hg : files.Grows places files') :
    ∃ made, files.makeDirectories (.ofText (directory s m).path) = .ok made ∧
      made.Grows places files' ∧ Directory.Stands made (directory s m) place := by
  have he : (Path.ofText (directory s m).path).ending = .name :=
    Path.ending_join _ (isFileName_text m)
  obtain ⟨made, hmade, hgrows, hw, hd⟩ :=
    hg.makeDirectories hu.checked (by simp [he]) hu.walk hu.isDirectory
  exact ⟨made, hmade, hgrows, hw, hd, hu.checked, hu.room⟩

/-- The stores stand in their directories and the log is where its path leads. No store writes to it. -/
structure Site (s : Settings) (home : MachineName → Place) (log : Place) (files : FileTree) : Prop where
  stands : ∀ m, Directory.Stands files (directory s m) (home m)
  named : (Path.ofText s.sink.path).ending = .name
  resolve : files.resolve (.ofText s.sink.path) = .ok log
  aside : ∀ m id, isValidId id = true → log ∉ Directory.written (home m) id

theorem Site.mono (h : Site s home log files) (hd : files.DirectoriesStay files') :
    Site s home log files' where
  stands m := (h.stands m).mono hd
  named := h.named
  resolve := FileTree.resolve_mono hd h.resolve
  aside := h.aside

theorem Site.read (h : Site s home log files) {contents : Contents}
    (hl : files.get? log = some (.file contents)) :
    files.read (.ofText s.sink.path) = .ok contents := by
  rw [FileTree.read, h.resolve, ok_bind, hl]
  exact if_pos h.named

/-- Where part of a site has been set up, the rest can be. -/
theorem Site.openAll (h : Site s home log files') (hs : s.store.storage = .filesystem)
    (httl : s.topicsTtl? = some ttl) (hg : files.Grows {log} files') (now : Instant)
    (mint : Nat → Token) (sink : SinkState) :
    ∃ opened, World.openAll s now mint sink files =
        (.ok (onDisk s ttl now mint sink opened), opened) ∧
      files.Grows ∅ opened ∧ opened.Grows {log} files' ∧
      ∀ m, Directory.Stands opened (directory s m) (home m) := by
  obtain ⟨made, hmade, hgm, hsm⟩ := stands_of_grows (h.stands .lifecycle) hg
  obtain ⟨opened, hopened, hgo, hso⟩ := stands_of_grows (h.stands .publication) hgm
  have hm := FileTree.grows_of_makeDirectories hmade
  have ho := FileTree.grows_of_makeDirectories hopened
  refine ⟨opened, (openAll_eq_ok_iff hs).mpr ⟨ttl, made, httl, hmade, hopened, rfl⟩, hm.trans ho, hgo,
    fun m => ?_⟩
  cases m with
  | lifecycle => exact hsm.mono ho.directoriesStay
  | publication => exact hso

theorem Site.openAt (h : Site s home log files') {contents : Contents}
    (hg : files.Grows {log} files') (hl : files'.get? log = some (.file contents)) :
    ∃ opened, ItemLog.openAt files s.sink.path = .ok opened ∧ opened.Grows {log} files' ∧
      opened.resolve (.ofText s.sink.path) = .ok log ∧ opened.get? log = some (.file contents) :=
  ItemLog.openAt_of_grows hg h.named h.resolve hl

/-- What a store on disk is to an id, in a tree that is still to grow. -/
theorem Site.slot_of_grows (h : Site s home log files') {ρ : Token → Token} {id : String}
    (hg : files.Grows {log} files') (hstands : ∀ m, Directory.Stands files (directory s m) (home m))
    {x : Shelf.Slot (Item m.State)}
    (hx : x.Matches ρ id ((Shelf.directory (directory s m)).slot files' id)) :
    (Shelf.directory (directory s m)).slot files id =
      (Shelf.directory (directory s m)).slot files' id := by
  unfold Shelf.slot at hx ⊢
  cases hid : isValidId id with
  | false => rw [if_neg Bool.false_ne_true, if_neg Bool.false_ne_true]
  | true =>
    rw [hid, if_pos rfl] at hx
    obtain ⟨found, hfound⟩ := hx.exists_of_directory
    have hrecord : home m ++ [Directory.recordName id] ∉ ({log} : Set Place) := by
      intro hl
      exact h.aside m id hid (by simp [Directory.written, ← Set.mem_singleton_iff.mp hl])
    rw [if_pos rfl, if_pos rfl]
    dsimp only
    rw [hfound, (hstands m).slot_of_grows (h.stands m) hg hid hrecord hfound]

/-- On disk the stores write to their directories only. -/
theorem Site.spares_onDisk (h : Site s home log files')
    (hstands : ∀ m, Directory.Stands files (directory s m) (home m)) :
    (onDisk s ttl now mint sink files).Spares log := by
  intro m d hd
  rw [shelf_onDisk] at hd
  cases hd
  exact ⟨home m, (hstands m).reaches, h.aside m⟩

theorem wired_onDisk : (onDisk s ttl now mint sink files).Wired where
  beside m n hn := by
    rw [shelf_onDisk, shelf_onDisk]
    rintro p ⟨⟩ q ⟨⟩
    refine ⟨s.store.directory, m.text, n.text, isFileName_text m, isFileName_text n, ?_, rfl, rfl⟩
    cases m <;> cases n <;> first | exact absurd rfl hn | decide
  loaded := by simp [onDisk]

/-- A store on disk is to an id what its directory is. -/
theorem slot_of_path (hpath : (w.shelf m).path? = some (directory s m).path) (id : String) :
    w.slot m id = (Shelf.directory (directory s m)).slot w.files id := by
  unfold World.slot Shelf.slot
  cases hd : w.shelf m with
  | memory store =>
    rw [hd] at hpath
    cases hpath
  | directory d =>
    rw [hd] at hpath
    have hslot : d.slot w.files id = (directory s m).slot w.files id :=
      Directory.slot_path (Option.some.inj hpath)
    dsimp only
    rw [hslot]

/-- The same settings with nothing on disk. -/
def inMemory (s : Settings) : Settings := { s with store := { s.store with storage := .memory } }

theorem spec_of_inMemory (h : openAll (inMemory s) now mint sink files = (.ok w, files')) :
    w.topicList = s.topics.list ∧ w.sink = sink ∧
      ∀ m id, w.slot m id = if isValidId id then .memory none else .invalid := by
  have hshelf : ∀ {S : Type} (machine : String) (t : FileTree),
      openShelf (inMemory s).store machine t = .ok ((.memory {} : Shelf (Item S)), t) := fun _ _ => rfl
  unfold openAll at h
  rw [hshelf] at h
  dsimp only at h
  rw [hshelf] at h
  dsimp only at h
  split at h
  · cases h
  · cases h
    refine ⟨rfl, rfl, fun m id => ?_⟩
    cases m <;> rfl

/-- Nothing has happened yet: when the log and then the stores are opened, as for an action, the log is
empty and no store has a file. -/
structure Fresh (s : Settings) (files opened : FileTree) : Prop where
  storage : s.store.storage = .filesystem
  setUp : ∃ logged, ItemLog.openAt files s.sink.path = .ok logged ∧
    ∀ now mint, ∃ w, openAll s now mint (.log s.sink.path) logged = (.ok w, opened)
  vacant : ∀ m id, isValidId id = true →
    ∀ f ∈ [Directory.recordName id, Directory.draftName id, Directory.lockName],
      opened.look ((directory s m).place f) = .ok none
  log : opened.read (.ofText s.sink.path) = .ok (.text "")

namespace Fresh

variable {opened : FileTree}

theorem exists_longest_id : ∃ id, isValidId id = true ∧ id.utf8ByteSize = maxIdBytes :=
  ⟨String.ofList (List.replicate 128 'a'), by decide +kernel, by decide +kernel⟩

/-- The path of a store leaves room for the longest id. -/
theorem room (h : Fresh s files opened) (m : MachineName) :
    (directory s m).path.utf8ByteSize + 138 ≤ FileTree.maxPathBytes := by
  obtain ⟨id, hid, hlong⟩ := exists_longest_id
  have hlook := h.vacant m id hid (Directory.draftName id) (by simp)
  obtain ⟨q, hr, -⟩ := map_eq_ok.mp hlook
  obtain ⟨x, hc, -⟩ := bind_eq_ok.mp hr
  have hbytes := Path.bytes_join_join s.store.directory (isFileName_text m) (Directory.draftName id)
  have hsize : (Directory.draftName id).utf8ByteSize = 137 := by
    have hsuffix : ".json.tmp".utf8ByteSize = 9 := by decide
    rw [Directory.draftName, String.utf8ByteSize_append, hlong, hsuffix, maxIdBytes]
  unfold FileTree.checkText at hc
  split at hc
  · cases hc
  · split at hc
    · cases hc
    · next hshort =>
      rw [hsize] at hbytes
      rw [Nat.not_lt] at hshort
      exact hbytes.symm.trans_le hshort

theorem exists_site (h : Fresh s files opened) :
    ∃ ttl home log, s.topicsTtl? = some ttl ∧ Site s home log opened ∧ files.Grows {log} opened ∧
      opened.get? log = some (.file (.text "")) ∧ ∀ m id, isValidId id = true →
        Directory.slot opened (directory s m) id =
          Directory.Slot.of (none : Option (Versioned (Item m.State))) := by
  obtain ⟨logged, hlogged, hopen⟩ := h.setUp
  obtain ⟨named, log, hr, hgl, -⟩ := ItemLog.openAt_eq_ok hlogged
  obtain ⟨w, hw⟩ := hopen ⟨0, 0⟩ fun _ => ⟨""⟩
  obtain ⟨ttl, made, httl, hl, hp, -⟩ := (openAll_eq_ok_iff h.storage).mp hw
  have hgm := FileTree.grows_of_makeDirectories hl
  have hgo := FileTree.grows_of_makeDirectories hp
  have hstands : ∀ m, ∃ home, Directory.Stands opened (directory s m) home := by
    intro m
    cases m with
    | lifecycle =>
      obtain ⟨home, hstands⟩ := Directory.stands_of_makeDirectories hl (h.room .lifecycle)
      exact ⟨home, hstands.mono hgo.directoriesStay⟩
    | publication => exact Directory.stands_of_makeDirectories hp (h.room .publication)
  choose home hstands using hstands
  have hresolve : opened.resolve (.ofText s.sink.path) = .ok log :=
    FileTree.resolve_mono (hgm.trans hgo).directoriesStay hr
  have hempty : opened.get? log = some (.file (.text "")) := by
    have hread := h.log
    rw [FileTree.read_eq_contentsOf named, FileTree.contentsOf_eq_ok, FileTree.look, hresolve,
      map_ok] at hread
    exact Except.ok.inj hread
  have hnone : ∀ m id, isValidId id = true → ∀ place ∈ Directory.written (home m) id,
      opened.get? place = none := by
    intro m id hid place hplace
    have hlook : ∀ {f}, IsFileName f →
        f ∈ [Directory.recordName id, Directory.draftName id, Directory.lockName] →
        opened.get? (home m ++ [f]) = none := by
      intro f hf hmem
      have hvacant := h.vacant m id hid f hmem
      rw [(hstands m).look hf] at hvacant
      exact Except.ok.inj hvacant
    rcases hplace with rfl | rfl | rfl
    · exact hlook Directory.isFileName_lockName (by simp)
    · exact hlook (Directory.isFileName_draftName hid) (by simp)
    · exact hlook (Directory.isFileName_recordName hid) (by simp)
  refine ⟨ttl, home, log, httl, ⟨hstands, named, hresolve, fun m id hid hlog => ?_⟩,
    hgl.trans ((hgm.trans hgo).mono (Set.empty_subset _)), hempty, fun m id hid => ?_⟩
  · rw [hnone m id hid log hlog] at hempty
    cases hempty
  · rw [(hstands m).slot_eq_of_iff hid, hnone m id hid _ (by simp [Directory.written]),
      hnone m id hid _ (by simp [Directory.written]), hnone m id hid _ (by simp [Directory.written])]
    simp

end Fresh

end World
end ServiceCatalog
