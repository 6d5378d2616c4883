import ServiceCatalog.Proofs.Store.Directory
import ServiceCatalog.Store.Shelf

/-! Both kinds of store answer as their view does. -/
namespace ServiceCatalog.Shelf

variable {D : Type} {files : FileTree} {s : Shelf D} {v : View D}

/-- Nothing is stored; a directory is open and nothing stands in it. -/
def Empty (files : FileTree) : Shelf D → Prop
  | .memory m => m.records = []
  | .directory d => ∃ home, d.Stands files home ∧ ∀ f, files.get? (home ++ [f]) = none

/-- Only a directory waits for its lock. -/
def isLocked (s : Shelf D) (lockFree : Bool) : Bool :=
  match s with
  | .memory _ => false
  | .directory _ => !lockFree

@[simp] theorem isLocked_true (s : Shelf D) : s.isLocked true = false := by cases s <;> rfl

@[simp] theorem feed_withFeed (s : Shelf D) (f : Feed D) : (s.withFeed f).feed = f := by
  cases s <;> rfl

/-- A directory that was just created is an empty store if nothing stands in it. -/
theorem empty_of_create {d : Directory D} {path : String} {before : FileTree}
    (h : Directory.create before path = .ok (d, files))
    (hroom : path.utf8ByteSize + 138 ≤ FileTree.maxPathBytes)
    (hnone : ∀ home, d.Stands files home → ∀ f, files.get? (home ++ [f]) = none) :
    Empty files (.directory d) := by
  obtain ⟨home, hstands⟩ := Directory.stands_of_create h hroom
  exact ⟨home, hstands, hnone home hstands⟩

/-- One directory and nothing else. -/
theorem empty_records : Empty (D := D) ⟨[(["records"], .directory)]⟩ (.directory ⟨"records", {}⟩) := by
  have hwalk : (⟨[(["records"], .directory)]⟩ : FileTree).walk (FileTree.top (.ofText "records"))
      (Path.ofText "records").names = .ok ["records"] := rfl
  have hchecked : FileTree.checkText (.ofText "records") = .ok () := rfl
  have hroom : "records".utf8ByteSize + 138 ≤ FileTree.maxPathBytes := by decide
  exact ⟨["records"], ⟨hwalk, rfl, hchecked, hroom⟩, fun f => by simp [FileTree.get?]⟩

variable [Document D]

/-- The records of the store are those of the view. -/
def Holds (files : FileTree) (s : Shelf D) (v : View D) : Prop :=
  match s with
  | .memory m => ∀ id, m.get? id = v id
  | .directory d => ∃ home, d.Keeps files home v

theorem holds_of_empty (h : s.Empty files) : s.Holds files fun _ => none := by
  cases s with
  | memory m =>
    have hm : m.records = [] := h
    intro id
    simp [Memory.get?, hm]
  | directory d =>
    obtain ⟨home, hstands, hnone⟩ := h
    exact ⟨home, hstands.keeps_of_empty hnone⟩

theorem Holds.withFeed (h : s.Holds files v) (f : Feed D) : (s.withFeed f).Holds files v := by
  cases s with
  | memory m => exact h
  | directory d =>
    obtain ⟨home, hkeeps⟩ := h
    exact ⟨home, hkeeps.withFeed f⟩

theorem fetch_of_holds (h : s.Holds files v) (id : String) : s.fetch files id = v.fetch id := by
  cases s with
  | memory m =>
    have hv : m.get? = v := funext h
    show m.fetch id = v.fetch id
    rw [Memory.fetch_eq, hv]
  | directory d =>
    obtain ⟨home, hkeeps⟩ := h
    exact hkeeps.fetch id

theorem save_memory (m : Memory D) (lockFree : Bool) (r : Versioned D)
    (expected : Option Token) :
    ∃ m', save files (.memory m) r.modifiedAt r.version lockFree r.id r.document expected =
        ((View.save m.get? false r expected).1, files, .memory m') ∧
      m'.get? = (View.save m.get? false r expected).2 ∧
      m'.feed = m.feed.after (View.save m.get? false r expected).1 := by
  cases hid : isValidId r.id with
  | false =>
    rw [View.save_of_invalid hid]
    exact ⟨m, by simp [save, Memory.save_of_invalid hid], rfl, rfl⟩
  | true =>
    by_cases he : View.version? m.get? r.id = expected
    · rw [View.save_of_eq hid he]
      have hsave := Memory.save_of_eq hid he
      exact ⟨_, by rw [save, hsave]; rfl, Memory.get?_put m r _, rfl⟩
    · rw [View.save_of_ne hid he]
      exact ⟨m, by simp [save, Memory.save_of_ne hid he], rfl, rfl⟩

theorem save_directory {d : Directory D} {home : Place} (h : d.Keeps files home v)
    (lockFree : Bool) {r : Versioned D} (hd : Document.Readable r.document)
    (ht : r.modifiedAt.Valid) (expected : Option Token) :
    ∃ files' d', d.save files r.modifiedAt r.version lockFree r.id r.document expected =
        ((v.save (!lockFree) r expected).1, files', d') ∧
      d'.Keeps files' home (v.save (!lockFree) r expected).2 ∧
      d'.feed = d.feed.after (v.save (!lockFree) r expected).1 := by
  unfold Directory.save
  cases hid : isValidId r.id with
  | false =>
    rw [View.save_of_invalid hid, validateId_of_invalid hid]
    exact ⟨files, d, rfl, h, rfl⟩
  | true =>
    obtain ⟨place, touched, htouch, hk⟩ := h.touch_lock
    simp only [validateId_of_isValidId hid, htouch]
    cases lockFree with
    | false =>
      rw [Bool.not_false, View.save_of_locked hid]
      exact ⟨touched, d, rfl, hk, rfl⟩
    | true =>
      rw [Bool.not_true]
      by_cases he : v.version? r.id = expected
      · obtain ⟨files', hsave, hk'⟩ := hk.saveLocked_of_eq hid hd ht he
        rw [View.save_of_eq hid he]
        exact ⟨files', _, by rw [if_pos rfl, hsave]; rfl, hk'.withFeed _, rfl⟩
      · rw [View.save_of_ne hid he]
        exact ⟨touched, d, by simp [hk.saveLocked_of_ne hid he], hk, rfl⟩

/-- A save answers as it does on the view and leaves the view's records. -/
theorem save_of_holds (h : s.Holds files v) (lockFree : Bool) {r : Versioned D}
    (hd : Document.Readable r.document) (ht : r.modifiedAt.Valid) (expected : Option Token) :
    ∃ files' s', s.save files r.modifiedAt r.version lockFree r.id r.document expected =
        ((v.save (s.isLocked lockFree) r expected).1, files', s') ∧
      s'.Holds files' (v.save (s.isLocked lockFree) r expected).2 ∧
      s'.feed = s.feed.after (v.save (s.isLocked lockFree) r expected).1 := by
  cases s with
  | memory m =>
    obtain rfl : m.get? = v := funext h
    obtain ⟨m', hsave, hget, hfeed⟩ := save_memory m lockFree r expected
    exact ⟨files, .memory m', hsave, fun id => congrFun hget id, hfeed⟩
  | directory d =>
    obtain ⟨home, hkeeps⟩ := h
    obtain ⟨files', d', hsave, hk, hfeed⟩ := save_directory hkeeps lockFree hd ht expected
    exact ⟨files', .directory d', by simp [save, hsave, isLocked], ⟨home, hk⟩, hfeed⟩

end ServiceCatalog.Shelf
