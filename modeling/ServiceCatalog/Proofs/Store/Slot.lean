import ServiceCatalog.Proofs.Store.Frame

/-!
What a store is to one id. A fetch and a save look at nothing else, and a save for another id, or in
another store, leaves it as it is.
-/
namespace ServiceCatalog

/-- What a directory is to one id: what stands in the place of its record, and whether directories are
in the way of its draft and of the lock. -/
structure Directory.Slot where
  record : Except FileError (Option Node)
  draft : Except FileError Bool
  lock : Except FileError Bool

namespace Directory

variable {D E : Type} {files files' : FileTree} {s s' : Directory D} {t : Directory E} {home : Place}
  {places : Set Place} {id : String}

def slot (files : FileTree) (s : Directory D) (id : String) : Slot where
  record := files.look (s.place (recordName id))
  draft := files.isBlocked (s.place (draftName id))
  lock := files.isBlocked (s.place lockName)

theorem record_slot (files : FileTree) (s : Directory D) (id : String) :
    (slot files s id).record = files.look (s.place (recordName id)) := by rw [slot]

theorem draft_slot (files : FileTree) (s : Directory D) (id : String) :
    (slot files s id).draft = files.isBlocked (s.place (draftName id)) := by rw [slot]

theorem lock_slot (files : FileTree) (s : Directory D) (id : String) :
    (slot files s id).lock = files.isBlocked (s.place lockName) := by rw [slot]

/-- A feed is no part of it. -/
theorem slot_path (h : s'.path = s.path) : slot files s' id = slot files s id := by
  unfold slot place
  rw [h]

theorem Reaches.resolve_congr (h : Reaches files s home) (hc : files.ChangesFiles places files')
    {f : String} (hf : IsFileName f) : files'.resolve (s.place f) = files.resolve (s.place f) := by
  rw [h.resolve hf, (h.mono hc.directoriesStay).resolve hf]

theorem Reaches.isBlocked_congr (h : Reaches files s home) (hc : files.ChangesFiles places files')
    {f : String} (hf : IsFileName f) :
    files'.isBlocked (s.place f) = files.isBlocked (s.place f) :=
  FileTree.isBlocked_congr (h.resolve_congr hc hf) fun _ _ => hc.isDirectory_iff

theorem Reaches.look_congr (h : Reaches files s home) (hc : files.ChangesFiles places files')
    {f : String} (hf : IsFileName f) (hp : home ++ [f] ∉ places) :
    files'.look (s.place f) = files.look (s.place f) := by
  refine FileTree.look_congr (h.resolve_congr hc hf) fun q hq => ?_
  rw [(h.eq_of_resolve hf hq).1, hc.get?_of_notMem hp]

/-- Files that change beside a record do not matter to it. -/
theorem Reaches.slot_congr (h : Reaches files s home) (hc : files.ChangesFiles places files')
    (hid : isValidId id = true) (hp : home ++ [recordName id] ∉ places) :
    slot files' s id = slot files s id := by
  unfold slot
  rw [h.look_congr hc (isFileName_recordName hid) hp, h.isBlocked_congr hc (isFileName_draftName hid),
    h.isBlocked_congr hc isFileName_lockName]

theorem Reaches.slot_sibling (h : Reaches files s home) (hst : Path.Siblings s.path t.path)
    (hc : files.ChangesFiles {p | ∃ f, p = home ++ [f]} files') (hid : isValidId id = true) :
    slot files' t id = slot files t id := by
  unfold slot FileTree.isBlocked
  rw [h.look_sibling hst hc (isFileName_recordName hid),
    h.look_sibling hst hc (isFileName_draftName hid), h.look_sibling hst hc isFileName_lockName]

/-- The slot with another text as its record. -/
def Slot.withText (c : Slot) (text : String) : Slot :=
  { c with record := .ok (some (.file (.text text))) }

variable [Document D]

/-- What a record file is read as. -/
def Slot.stored? (c : Slot) : Except StoreError (Option (Stored D)) :=
  match FileTree.contentsOf c.record with
  | .ok contents =>
    match Stored.ofContents? contents with
    | some r => .ok (some r)
    | none => .error .serialization
  | .error .notFound => .ok none
  | .error e => ioError e

/-- What a save of `r` comes to. -/
def Slot.save (c : Slot) (lockFree : Bool) (r : Versioned D) (expected : Option Token) :
    Except StoreError (Versioned D) × Slot :=
  match c.lock with
  | .error e => (ioError e, c)
  | .ok true => (ioError .isDirectory, c)
  | .ok false =>
    if !lockFree then (.error (.throttled r.id (some retryAfter)), c)
    else
      match c.stored? (D := D) with
      | .error e => (.error e, c)
      | .ok found =>
        if found.map (·.version) = expected then
          match c.draft with
          | .error e => (ioError e, c)
          | .ok true => (ioError .isDirectory, c)
          | .ok false => (.ok r, c.withText (Directory.stored r).toText)
        else (.error (.conflict r.id expected (found.map (·.version))), c)

theorem readRecord_eq (hid : isValidId id = true) (files : FileTree) (s : Directory D) :
    readRecord files s id = (slot files s id).stored? := by
  unfold readRecord Slot.stored? slot
  rewrite [FileTree.read_eq_contentsOf (ending_place s (isFileName_recordName hid))]
  rfl

/-- Where a record was read, or was found to be absent, its path leads somewhere. -/
theorem Reaches.exists_of_stored (h : Reaches files s home) (hid : isValidId id = true)
    {found : Option (Stored D)} (hf : (slot files s id).stored? = .ok found) :
    files.resolve (s.place (recordName id)) = .ok (home ++ [recordName id]) ∧
      files.get? (home ++ [recordName id]) ≠ some .directory := by
  have hresolve := h.resolve (isFileName_recordName hid)
  unfold Slot.stored? slot FileTree.look at hf
  rw [hresolve] at hf
  split at hresolve
  · next hlong =>
    rw [if_pos hlong] at hf
    cases hf
  · next hshort =>
    refine ⟨hresolve, fun hd => ?_⟩
    rw [if_neg hshort, map_ok, hd] at hf
    cases hf

/-- A record is replaced unless something is in the way of its draft. -/
theorem Reaches.replace_cases (h : Reaches files s home) (hid : isValidId id = true)
    {found : Option (Stored D)} (hf : (slot files s id).stored? = .ok found) (text : String) :
    (∃ e, (slot files s id).draft = .error e ∧ s.replace files id text = .error e) ∨
      ((slot files s id).draft = .ok true ∧ s.replace files id text = .error .isDirectory) ∨
        ((slot files s id).draft = .ok false ∧
          ∃ files', s.replace files id text = .ok files') := by
  have hdraft := isFileName_draftName hid
  obtain ⟨hrecord, hfile⟩ := h.exists_of_stored hid hf
  have hwrite : ∀ e, files.touch (s.place (draftName id)) = .error e →
      s.replace files id text = .error e := by
    intro e ht
    rw [replace, FileTree.write, ht, error_bind, error_bind]
  rcases FileTree.touch_cases (t := files) (ending_place s hdraft) with
    ⟨e, hb, ht⟩ | ⟨hb, ht⟩ | ⟨hb, q, touched, ht⟩
  · exact .inl ⟨e, hb, hwrite e ht⟩
  · exact .inr (.inl ⟨hb, hwrite _ ht⟩)
  · refine .inr (.inr ⟨hb, ?_⟩)
    have hw : files.write (s.place (draftName id)) text =
        .ok (touched.put q (.file (.text text))) := by
      rw [FileTree.write, ht]
      rfl
    obtain ⟨p, hr, hne, hu⟩ := FileTree.write_eq_ok hw
    obtain ⟨rfl, -⟩ := h.eq_of_resolve hdraft hr
    have hstay := FileTree.directoriesStay_of_update hne hu
    rw [replace, hw, ok_bind]
    have hold := congrFun hu (home ++ [draftName id])
    rw [Function.update_self] at hold
    refine FileTree.exists_of_rename (FileTree.resolve_mono hstay hr)
      (FileTree.resolve_mono hstay hrecord) hold ?_
    rw [hu, Function.update_of_ne (by simpa using recordName_ne_draftName id id)]
    exact hfile

variable {now : Instant} {fresh : Token} {lockFree : Bool} {document : D} {expected : Option Token}
  {answer : Except StoreError (Versioned D)}

omit [Document D] in
/-- A record that was replaced is in its slot, and nothing else has changed there. -/
theorem Reaches.slot_of_replace (h : Reaches files s home) (hid : isValidId id = true) {text : String}
    (hr : s.replace files id text = .ok files') :
    slot files' s id = (slot files s id).withText text := by
  obtain ⟨hc, hread⟩ := h.changes_of_replace hid hr
  rw [FileTree.read_eq_contentsOf (ending_place s (isFileName_recordName hid)),
    FileTree.contentsOf_eq_ok] at hread
  unfold Slot.withText slot
  rw [hread, h.isBlocked_congr hc (isFileName_draftName hid), h.isBlocked_congr hc isFileName_lockName]

/-- The part of a save that runs under the lock. -/
theorem Reaches.saveLocked_slot (h : Reaches files s home) (hid : isValidId id = true)
    (hl : (slot files s id).lock = .ok false) :
    (slot files s id).save true ⟨id, document, fresh, now⟩ expected =
      match saveLocked files s now fresh id document expected with
      | .ok (r, files', s') => (.ok r, slot files' s' id)
      | .error e => (.error e, slot files s id) := by
  unfold Slot.save saveLocked
  rw [hl, readRecord_eq hid]
  simp only [Bool.not_true, Bool.false_eq_true, if_false]
  cases hf : (slot files s id).stored? (D := D) with
  | error e => rfl
  | ok found =>
    rw [ok_bind]
    dsimp only
    by_cases he : found.map (·.version) = expected
    · rw [if_pos he, if_pos he]
      rcases h.replace_cases hid hf (⟨fresh, now, document⟩ : Stored D).toText with
        ⟨e, hd, hr⟩ | ⟨hd, hr⟩ | ⟨hd, replaced, hr⟩
      · rw [hd, hr]
        rfl
      · rw [hd, hr]
        rfl
      · have hslot := h.slot_of_replace hid hr
        rw [hd, hr]
        exact congrArg _ hslot.symm
    · rw [if_neg he, if_neg he]
      rfl

/-- A save of the record of an id depends on its slot only. -/
theorem save_slot (hid : isValidId id = true)
    (h : save files s now fresh lockFree id document expected = (answer, files', s')) :
    (slot files s id).save lockFree ⟨id, document, fresh, now⟩ expected =
      (answer, slot files' s' id) := by
  have hlock := lock_slot files s id
  unfold save at h
  rw [validateId_of_isValidId hid] at h
  dsimp only at h
  rcases FileTree.touch_cases (t := files) (ending_place s isFileName_lockName) with
    ⟨e, hb, ht⟩ | ⟨hb, ht⟩ | ⟨hb, q, touched, ht⟩
  · rw [ht] at h
    cases h
    rw [Slot.save, hlock, hb]
  · rw [ht] at h
    cases h
    rw [Slot.save, hlock, hb]
  · obtain ⟨home, hreaches, hc⟩ := changes_of_touch isFileName_lockName ht
    have htouched : slot touched s id = slot files s id :=
      hreaches.slot_congr hc hid (by simp [recordName_ne_lockName])
    rw [ht] at h
    rw [← htouched]
    rw [hb, ← htouched] at hlock
    cases lockFree with
    | false =>
      cases h
      rw [Slot.save, hlock]
      rfl
    | true =>
      rw [(hreaches.mono hc.directoriesStay).saveLocked_slot hid hlock]
      simp only [if_true] at h
      cases hs : saveLocked touched s now fresh id document expected with
      | error e =>
        rw [hs] at h
        cases h
        rfl
      | ok saved =>
        obtain ⟨r, saved, s''⟩ := saved
        rw [hs] at h
        cases h
        rfl

end Directory

namespace Shelf

variable {D E : Type}

/-- What a store is to one id. -/
inductive Slot (D : Type) where
  /-- To an id that is none, no store is anything. -/
  | invalid
  | memory (found : Option (Versioned D))
  | directory (slot : Directory.Slot)

def slot (files : FileTree) (s : Shelf D) (id : String) : Slot D :=
  if isValidId id then
    match s with
    | .memory m => .memory (m.get? id)
    | .directory d => .directory (d.slot files id)
  else .invalid

variable [Document D] [Document E]

def Slot.fetch (id : String) : Slot D → Except StoreError (Option (Versioned D))
  | .invalid => .error (.invalidId id)
  | .memory found => .ok found
  | .directory c => c.stored?.map (·.map (·.versioned id))

/-- What a save of `r` comes to. -/
def Slot.save (lockFree : Bool) (r : Versioned D) (expected : Option Token) :
    Slot D → Except StoreError (Versioned D) × Slot D
  | .invalid => (.error (.invalidId r.id), .invalid)
  | .memory found =>
    if found.map (·.version) = expected then (.ok r, .memory (some r))
    else (.error (.conflict r.id expected (found.map (·.version))), .memory found)
  | .directory c => (c.save lockFree r expected).map id .directory

variable {files files' : FileTree} {s s' : Shelf D} {t : Shelf E} {now : Instant} {fresh : Token}
  {lockFree : Bool} {id i : String} {document : D} {expected : Option Token}
  {answer : Except StoreError (Versioned D)}

theorem fetch_eq_slot (files : FileTree) (s : Shelf D) (id : String) :
    s.fetch files id = (s.slot files id).fetch id := by
  unfold slot
  cases hid : isValidId id with
  | false => cases s <;> rw [fetch] <;> simp [Memory.fetch, Directory.fetch, validateId_of_invalid hid,
      Slot.fetch]
  | true =>
    cases s with
    | memory m =>
      show m.fetch id = .ok (m.get? id)
      rw [Memory.fetch_eq, View.fetch, if_pos hid]
    | directory d =>
      show d.fetch files id = (d.slot files id).stored?.map _
      rw [Directory.fetch, validateId_of_isValidId hid, ok_bind, Directory.readRecord_eq hid]
      rfl

omit [Document E] in
theorem Slot.save_memory (v : View D) {r : Versioned D} (hid : isValidId r.id = true)
    (lockFree : Bool) (expected : Option Token) : (Slot.memory (v r.id)).save lockFree r expected =
      ((v.save false r expected).1, .memory ((v.save false r expected).2 r.id)) := by
  have hversion : (v r.id).map (·.version) = v.version? r.id := rfl
  unfold Slot.save
  dsimp only
  rw [hversion]
  by_cases he : v.version? r.id = expected
  · rw [View.save_of_eq hid he, if_pos he]
    dsimp only
    rw [Function.update_self]
  · rw [View.save_of_ne hid he, if_neg he]

/-- A save answers from the slot of its id, and leaves that slot so. -/
theorem save_eq_slot
    (h : s.save files now fresh lockFree id document expected = (answer, files', s')) :
    (s.slot files id).save lockFree ⟨id, document, fresh, now⟩ expected =
      (answer, s'.slot files' id) := by
  unfold slot
  cases hid : isValidId id with
  | false =>
    have herror : answer = .error (.invalidId id) := by
      cases s with
      | memory m =>
        simp only [save, Memory.save_of_invalid (r := ⟨id, document, fresh, now⟩) hid] at h
        exact (congrArg Prod.fst h).symm
      | directory d =>
        simp only [save, Directory.save, validateId_of_invalid hid] at h
        exact (congrArg Prod.fst h).symm
    rw [herror]
    rfl
  | true =>
    cases s with
    | memory m =>
      obtain ⟨m', hm, hget, -⟩ := save_memory m lockFree ⟨id, document, fresh, now⟩ expected
      rw [hm] at h
      obtain ⟨rfl, hs⟩ := Prod.mk.inj h
      obtain ⟨-, rfl⟩ := Prod.mk.inj hs
      rw [if_pos rfl, if_pos rfl]
      dsimp only
      rw [hget]
      exact Slot.save_memory m.get? (r := ⟨id, document, fresh, now⟩) hid lockFree expected
    | directory d =>
      obtain ⟨d', hd, rfl⟩ := exists_of_save_directory h
      have hslot := Directory.save_slot hid hd
      show (Directory.Slot.save _ lockFree _ expected).map _ _ = _
      rw [hslot]
      rfl

/-- Of its own store a save leaves the slots of other ids. -/
theorem slot_save_of_ne (h : s.save files now fresh lockFree id document expected =
    (answer, files', s')) (hi : i ≠ id) : s'.slot files' i = s.slot files i := by
  unfold slot
  cases hv : isValidId i with
  | false => rfl
  | true =>
    cases s with
    | memory m =>
      obtain ⟨m', hm, hget, -⟩ := save_memory m lockFree ⟨id, document, fresh, now⟩ expected
      rw [hm] at h
      obtain ⟨-, hs⟩ := Prod.mk.inj h
      obtain ⟨-, rfl⟩ := Prod.mk.inj hs
      have hslot : m'.get? i = m.get? i := by
        rw [hget, View.save]
        repeat' split
        all_goals first | rfl | exact Function.update_of_ne hi _ _
      exact congrArg Slot.memory hslot
    | directory d =>
      obtain ⟨d', hd, rfl⟩ := exists_of_save_directory h
      refine congrArg Slot.directory ?_
      obtain ⟨hpath, rfl | ⟨home, hreaches, hc⟩⟩ := Directory.changes_of_save hd
      · exact Directory.slot_path hpath
      · exact (Directory.slot_path hpath).trans
          (hreaches.slot_congr hc hv (Directory.recordName_notMem_written hi))

omit [Document E] in
/-- A store beside it does not notice a save. -/
theorem slot_beside (hb : Beside s t) (h : s.save files now fresh lockFree id document expected =
    (answer, files', s')) (i : String) : t.slot files' i = t.slot files i := by
  unfold slot
  cases hv : isValidId i with
  | false => rfl
  | true =>
    cases t with
    | memory m => rfl
    | directory e =>
      refine congrArg Slot.directory ?_
      cases s with
      | memory m =>
        obtain ⟨m', hm, -⟩ := save_memory m lockFree ⟨id, document, fresh, now⟩ expected
        rw [hm] at h
        rw [(Prod.mk.inj (Prod.mk.inj h).2).1]
      | directory d =>
        obtain ⟨d', hd, rfl⟩ := exists_of_save_directory h
        obtain ⟨-, rfl | ⟨home, hreaches, hc⟩⟩ := Directory.changes_of_save hd
        · rfl
        · exact hreaches.slot_sibling (hb _ rfl _ rfl) (hc.mono (Directory.written_subset home id)) hv

omit [Document D] in
theorem slot_withFeed (f : Feed D) : (s.withFeed f).slot files i = s.slot files i := by
  unfold slot withFeed
  cases s <;> rfl

end Shelf
end ServiceCatalog
