import ServiceCatalog.Proofs.Store.Slot

/-!
A save in a directory, whatever stands there: texts that are no records, drafts that were left behind,
directories in the place of files, a lock that somebody holds. A save that fails leaves the record as
it was, and one that succeeds has replaced what it was told to expect.
-/
namespace ServiceCatalog.Directory

variable {D : Type} {files files' : FileTree} {s : Directory D} {id : String}

/-- Where drafts stand, of whatever id. -/
def drafts (files : FileTree) (s : Directory D) : Set Place :=
  {p | ∃ i, isValidId i = true ∧ files.resolve (s.place (draftName i)) = .ok p}

/-- Drafts that were left behind are no part of what the directory is to an id. -/
theorem slot_of_leftover (hid : isValidId id = true) (hc : files.ChangesFiles (drafts files s) files') :
    slot files' s id = slot files s id := by
  rcases (drafts files s).eq_empty_or_nonempty with hnone | ⟨p, i, hi, hp⟩
  · -- Drafts have no place to stand, so there is nothing that could differ.
    have hget : files'.get? = files.get? := funext fun q => hc.get?_of_notMem (by simp [hnone])
    have hlook : files'.look = files.look := funext fun path => by
      rw [FileTree.look, FileTree.look, FileTree.resolve_congr hget, hget]
    unfold slot FileTree.isBlocked
    rw [hlook]
  · obtain ⟨home, hreaches, -⟩ := reaches_of_resolve (isFileName_draftName hi) hp
    refine hreaches.slot_congr hc hid ?_
    rintro ⟨other, hother, hrecord⟩
    have hplace := (hreaches.eq_of_resolve (isFileName_draftName hother) hrecord).1
    exact recordName_ne_draftName id other (by simpa using hplace)

variable [Document D] {now : Instant} {fresh : Token} {lockFree : Bool} {document : D}
  {expected : Option Token} {c c' : Slot} {r : Versioned D}

/-- The file is the text of the record, and is read as this record wherever the text gives its document
back. -/
structure Holds (contents : Contents) (r : Versioned D) : Prop where
  written : contents = .text (Json.obj [("version", .str r.version.text),
    ("modified_at", .str r.modifiedAt.text), ("document", Document.toJson r.document)]).toPrettyText
  decoded : Document.Readable r.document → r.modifiedAt.Valid →
    Stored.ofContents? contents = some ⟨r.version, r.modifiedAt, r.document⟩

theorem holds_toText (r : Versioned D) : Holds (.text (stored r).toText) r where
  written := rfl
  decoded hd ht := by
    rw [Stored.ofContents?_text]
    exact Stored.ofText?_toText hd ht

/-- What a save was told to expect: nothing, or a record with a token. -/
inductive IsExpected (D : Type) [Document D] : Except FileError (Option Node) → Option Token → Prop
  | absent : IsExpected D (.ok none) none
  | present {contents : Contents} {old : Stored D} (h : Stored.ofContents? contents = some old) :
    IsExpected D (.ok (some (.file contents))) (some old.version)

/-- A save compares what it has read. -/
theorem Slot.isExpected_iff (h : c.record ≠ .error .notFound) :
    IsExpected D c.record expected ↔
      ∃ found : Option (Stored D), c.stored? = .ok found ∧ found.map (·.version) = expected := by
  unfold Slot.stored?
  constructor
  · intro he
    cases hc : c.record with
    | error e => rw [hc] at he; cases he
    | ok n =>
      rw [hc] at he
      cases he with
      | absent => exact ⟨none, rfl, rfl⟩
      | present hold =>
        refine ⟨some _, ?_, rfl⟩
        rw [FileTree.contentsOf]
        dsimp only
        rw [hold]
  · rintro ⟨found, hfound, rfl⟩
    cases hc : c.record with
    | error e =>
      rw [hc] at h hfound
      cases e <;> first | exact absurd rfl h | cases hfound
    | ok n =>
      rw [hc] at hfound
      rcases n with _ | contents | _
      · cases hfound
        exact .absent
      · rw [FileTree.contentsOf] at hfound
        dsimp only at hfound
        split at hfound
        · next old hold =>
          cases hfound
          exact .present hold
        · cases hfound
      · cases hfound

omit [Document D] in
/-- Where the lock was found the record is found as well, if its path is not too long. -/
theorem Slot.record_ne_notFound (hid : isValidId id = true)
    (h : (slot files s id).lock = .ok false) : (slot files s id).record ≠ .error .notFound := by
  intro hn
  rw [lock_slot] at h
  rcases FileTree.touch_cases (t := files) (ending_place s isFileName_lockName) with
    ⟨e, hb, -⟩ | ⟨hb, -⟩ | ⟨-, q, touched, ht⟩
  · cases h.symm.trans hb
  · cases h.symm.trans hb
  · obtain ⟨home, hreaches, -⟩ := changes_of_touch isFileName_lockName ht
    have hresolve := hreaches.resolve (isFileName_recordName hid)
    rw [record_slot, FileTree.look, hresolve] at hn
    split at hn <;> cases hn

theorem Slot.save_eq_ok {q : Versioned D} : c.save lockFree r expected = (.ok q, c') ↔
    (lockFree = true ∧ c.lock = .ok false ∧ c.draft = .ok false ∧
        ∃ found : Option (Stored D), c.stored? = .ok found ∧ found.map (·.version) = expected) ∧
      q = r ∧ c' = c.withText (stored r).toText := by
  constructor
  · intro h
    unfold Slot.save at h
    split at h
    · cases h
    · cases h
    · next hlock =>
      split at h
      · cases h
      · next hfree =>
        split at h
        · cases h
        · next found hfound =>
          split at h
          · next he =>
            split at h
            · cases h
            · cases h
            · next hdraft =>
              cases h
              exact ⟨⟨by simpa using hfree, hlock, hdraft, found, hfound, he⟩, rfl, rfl⟩
          · cases h
  · rintro ⟨⟨rfl, hlock, hdraft, found, hfound, he⟩, rfl, rfl⟩
    unfold Slot.save
    simp [hlock, hdraft, hfound, he]

theorem Slot.save_eq_error {e : StoreError} (h : c.save lockFree r expected = (.error e, c')) :
    c' = c := by
  unfold Slot.save at h
  repeat' split at h
  all_goals cases h
  all_goals rfl

/-- What a save of `r` leaves of the record that stood in its place, and what it publishes. -/
structure Protects (files : FileTree) (s : Directory D) (lockFree : Bool) (r : Versioned D)
    (expected : Option Token) (outcome : Except StoreError (Versioned D) × FileTree × Directory D) :
    Prop where
  /-- After a failure the record is as it was, and nothing was published. -/
  failure : ∀ e, outcome.1 = .error e →
    outcome.2.1.look (s.place (recordName r.id)) = files.look (s.place (recordName r.id)) ∧
      outcome.2.2 = s
  /-- A success has put `r` in the place of what it was told to expect. -/
  success : ∀ q, outcome.1 = .ok q →
    IsExpected D (files.look (s.place (recordName r.id))) expected ∧
      (∃ contents, outcome.2.1.look (s.place (recordName r.id)) = .ok (some (.file contents)) ∧
        Holds contents r) ∧
      outcome.2.2 = { s with feed := s.feed.publish r } ∧ q = r
  /-- What was expected is replaced, if the lock is free and no directory is in the way. -/
  progress : lockFree = true → files.isBlocked (s.place lockName) = .ok false →
    files.isBlocked (s.place (draftName r.id)) = .ok false →
    IsExpected D (files.look (s.place (recordName r.id))) expected → ∃ q, outcome.1 = .ok q
  /-- A file that is no record stays, be it a text or not. -/
  undecodable : ∀ contents, files.look (s.place (recordName r.id)) = .ok (some (.file contents)) →
    Stored.ofContents? (D := D) contents = none →
    (∃ e, outcome.1 = .error e) ∧
      outcome.2.1.look (s.place (recordName r.id)) = .ok (some (.file contents))

section Save

variable {answer : Except StoreError (Versioned D)} {s' : Directory D}

/-- What a save answers and leaves in its slot, which is at the same path. -/
theorem slot_of_save (hid : isValidId id = true)
    (h : save files s now fresh lockFree id document expected = (answer, files', s')) :
    (slot files s id).save lockFree ⟨id, document, fresh, now⟩ expected =
      (answer, slot files' s id) := by
  rw [save_slot hid h, slot_path (changes_of_save h).1]

theorem look_of_error {e : StoreError} (hid : isValidId id = true)
    (h : save files s now fresh lockFree id document expected = (.error e, files', s')) :
    files'.look (s.place (recordName id)) = files.look (s.place (recordName id)) := by
  have hrecord := congrArg Slot.record (Slot.save_eq_error (slot_of_save hid h))
  rwa [record_slot, record_slot] at hrecord

/-- A save that succeeded has found what it was told to expect, and put its text in that place. -/
theorem look_of_ok {q : Versioned D} (hid : isValidId id = true)
    (h : save files s now fresh lockFree id document expected = (.ok q, files', s')) :
    IsExpected D (files.look (s.place (recordName id))) expected ∧
      files'.look (s.place (recordName id)) =
        .ok (some (.file (.text (stored ⟨id, document, fresh, now⟩).toText))) := by
  obtain ⟨⟨-, hlock, -, hfound⟩, -, htext⟩ := Slot.save_eq_ok.mp (slot_of_save hid h)
  have hexpected := (Slot.isExpected_iff (Slot.record_ne_notFound hid hlock)).mpr hfound
  have hrecord := congrArg Slot.record htext
  rw [record_slot] at hexpected hrecord
  exact ⟨hexpected, hrecord⟩

/-- With nothing in its way, a save that was told what is there succeeds. -/
theorem exists_of_expected (hid : isValidId id = true)
    (hlock : files.isBlocked (s.place lockName) = .ok false)
    (hdraft : files.isBlocked (s.place (draftName id)) = .ok false)
    (hexpected : IsExpected D (files.look (s.place (recordName id))) expected) :
    ∃ q, (save files s now fresh true id document expected).1 = .ok q := by
  rcases h : save files s now fresh true id document expected with ⟨answer, files', s'⟩
  rw [← lock_slot files s id] at hlock
  rw [← draft_slot files s id] at hdraft
  rw [← record_slot files s id] at hexpected
  have hfound := (Slot.isExpected_iff (Slot.record_ne_notFound hid hlock)).mp hexpected
  have hok : (slot files s id).save true ⟨id, document, fresh, now⟩ expected =
      (.ok ⟨id, document, fresh, now⟩,
        (slot files s id).withText (stored ⟨id, document, fresh, now⟩).toText) :=
    Slot.save_eq_ok.mpr ⟨⟨rfl, hlock, hdraft, hfound⟩, rfl, rfl⟩
  exact ⟨_, congrArg Prod.fst ((slot_of_save hid h).symm.trans hok)⟩

theorem protects_of_save (hid : isValidId id = true)
    (h : save files s now fresh lockFree id document expected = (answer, files', s')) :
    Protects files s lockFree ⟨id, document, fresh, now⟩ expected (answer, files', s') where
  failure := by
    rintro e rfl
    exact ⟨look_of_error hid h, (save_eq_error h).1⟩
  success := by
    rintro q rfl
    obtain ⟨hexpected, hrecord⟩ := look_of_ok hid h
    obtain ⟨-, rfl, hstate, -⟩ := save_eq_ok h
    exact ⟨hexpected, ⟨_, hrecord, holds_toText _⟩, hstate, rfl⟩
  progress := by
    rintro rfl hlock hdraft hexpected
    rw [← h]
    exact exists_of_expected hid hlock hdraft hexpected
  undecodable := by
    intro contents hcontents hnone
    cases answer with
    | error e => exact ⟨⟨e, rfl⟩, (look_of_error hid h).trans hcontents⟩
    | ok q =>
      have hexpected := (look_of_ok hid h).1
      rw [hcontents] at hexpected
      cases hexpected with
      | present hold => cases hnone.symm.trans hold

/-- A save in a directory protects the record, and drafts that were left behind change neither what it
does nor what is read. -/
theorem save_protects (files : FileTree) (s : Directory D) (now : Instant) (fresh : Token)
    (lockFree : Bool) (document : D) (expected : Option Token) (hid : isValidId id = true) :
    Protects files s lockFree ⟨id, document, fresh, now⟩ expected
        (save files s now fresh lockFree id document expected) ∧
      ∀ other : FileTree, files.ChangesFiles (drafts files s) other →
        fetch other s id = fetch files s id ∧
          (save other s now fresh lockFree id document expected).1 =
            (save files s now fresh lockFree id document expected).1 ∧
          (save other s now fresh lockFree id document expected).2.1.look
              (s.place (recordName id)) =
            (save files s now fresh lockFree id document expected).2.1.look
              (s.place (recordName id)) ∧
          (save other s now fresh lockFree id document expected).2.2 =
            (save files s now fresh lockFree id document expected).2.2 := by
  rcases h : save files s now fresh lockFree id document expected with ⟨answer, files', s'⟩
  refine ⟨protects_of_save hid h, fun other hc => ?_⟩
  rcases h' : save other s now fresh lockFree id document expected with ⟨answer', other', t'⟩
  have hleft : slot other s id = slot files s id := slot_of_leftover hid hc
  have hsame : (answer', slot other' s id) = (answer, slot files' s id) := by
    rw [← slot_of_save hid h, ← slot_of_save hid h', hleft]
  obtain ⟨rfl, hslot⟩ := Prod.mk.inj hsame
  have hrecord := congrArg Slot.record hslot
  rw [record_slot, record_slot] at hrecord
  refine ⟨?_, rfl, hrecord, ?_⟩
  · unfold fetch
    rw [readRecord_eq hid, readRecord_eq hid, hleft]
  · cases answer' with
    | error e => exact (save_eq_error h').1.trans (save_eq_error h).1.symm
    | ok q => exact (save_eq_ok h').2.2.1.trans (save_eq_ok h).2.2.1.symm

end Save

/-- A record that was cut off inside a letter of two bytes. -/
def cutOff : Contents := .ofBytes (Utf8.encode "\x7b\"version\": \"".toList ++ [0xc3])

/-- A record that was cut off, a draft and the lock file are in the directory. -/
def torn : FileTree :=
  ⟨[(["records"], .directory), (["records", "a.json"], .file cutOff),
    (["records", "a.json.tmp"], .file (.text "left")), (["records", ".store.lock"], .file (.text ""))]⟩

/-- The same after the draft was swept away. -/
def swept : FileTree := torn.erase ["records", "a.json.tmp"]

theorem save_protects_torn :
    let s : Directory Json := ⟨"records", {}⟩
    isValidId "a" = true ∧ torn.ChangesFiles (drafts torn s) swept ∧
      cutOff.bytes = Utf8.encode "\x7b\"version\": \"".toList ++ [0xc3] ∧ cutOff.text? = none ∧
      torn.look (s.place (recordName "a")) = .ok (some (.file cutOff)) ∧
      (save torn s ⟨0, 0⟩ ⟨"v1"⟩ true "a" .null none).2.1.look (s.place (recordName "a")) =
        .ok (some (.file cutOff)) ∧
      fetch swept s "a" = fetch torn s "a" := by
  intro s
  have hid : isValidId "a" = true := by decide
  have hdraft : torn.resolve (s.place (draftName "a")) = .ok ["records", "a.json.tmp"] := by
    decide +kernel
  have hswept : swept.get? = Function.update torn.get? ["records", "a.json.tmp"] none :=
    FileTree.get?_erase (by simp [FileTree.IsInner]) torn
  have hc : torn.ChangesFiles (drafts torn s) swept :=
    .of_update ⟨"a", hid, hdraft⟩ (by decide) (by simp) hswept
  have hrecord : torn.look (s.place (recordName "a")) = .ok (some (.file cutOff)) := by
    decide +kernel
  have hnone : Stored.ofContents? (D := Json) cutOff = none := by decide +kernel
  obtain ⟨hp, hleft⟩ := save_protects torn s ⟨0, 0⟩ ⟨"v1"⟩ true .null none hid
  exact ⟨hid, hc, Contents.bytes_ofBytes _, by decide +kernel, hrecord,
    (hp.undecodable _ hrecord hnone).2, (hleft swept hc).1⟩

end ServiceCatalog.Directory
