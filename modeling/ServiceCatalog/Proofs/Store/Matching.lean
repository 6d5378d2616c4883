import ServiceCatalog.Proofs.Files.Growth
import ServiceCatalog.Proofs.Store.Session
import ServiceCatalog.Proofs.Store.Slot

/-!
A store in memory and one in a directory that are the same to an id, but for the names of their tokens.
They answer alike, and a save leaves them so.
-/
namespace ServiceCatalog

variable {D : Type} [Document D] {ρ : Token → Token} {id : String}

namespace Directory

variable {files files' : FileTree} {s : Directory D} {home : Place} {places : Set Place}
  {found : Option (Versioned D)}

/-- What a directory is to an id with this record, when nothing is in the way of the next one. -/
def Slot.of (found : Option (Versioned D)) : Slot where
  record := .ok (found.map fun r => .file (.text (stored r).toText))
  draft := .ok false
  lock := .ok false

theorem Slot.stored?_of
    (hf : ∀ r ∈ found, Document.Readable r.document ∧ r.modifiedAt.Valid) :
    (Slot.of found).stored? = .ok (found.map stored) := by
  cases found with
  | none => rfl
  | some r =>
    obtain ⟨hd, ht⟩ := hf r rfl
    have htext : Stored.ofText? (stored r).toText = some (stored r) := Stored.ofText?_toText hd ht
    unfold Slot.stored? Slot.of
    dsimp only [Option.map_some, FileTree.contentsOf]
    rw [Stored.ofContents?_text, htext]

/-- Nothing but the token that is expected can be wrong. -/
theorem Slot.save_of (hf : ∀ r ∈ found, Document.Readable r.document ∧ r.modifiedAt.Valid)
    (r : Versioned D) (expected : Option Token) : (Slot.of found).save true r expected =
      if found.map (·.version) = expected then (.ok r, .of (some r))
      else (.error (.conflict r.id expected (found.map (·.version))), .of found) := by
  have hversion : (found.map stored).map (·.version) = found.map (·.version) := by
    cases found <;> rfl
  unfold Slot.save
  rw [Slot.stored?_of hf, ← hversion]
  rfl

omit [Document D] in
theorem Stands.look (h : Stands files s home) {f : String} (hf : IsFileName f) :
    files.look (s.place f) = .ok (files.get? (home ++ [f])) := by
  rw [FileTree.look, h.resolve hf, map_ok]

omit [Document D] in
theorem Stands.isBlocked (h : Stands files s home) {f : String} (hf : IsFileName f) :
    files.isBlocked (s.place f) = .ok (files.get? (home ++ [f]) == some .directory) := by
  rw [FileTree.isBlocked, h.look hf, map_ok]

theorem Stands.slot_eq_of_iff (h : Stands files s home) (hid : isValidId id = true) :
    slot files s id = .of found ↔
      files.get? (home ++ [recordName id]) = (found.map fun r => .file (.text (stored r).toText)) ∧
        files.get? (home ++ [draftName id]) ≠ some .directory ∧
          files.get? (home ++ [lockName]) ≠ some .directory := by
  unfold slot Slot.of
  rw [h.look (isFileName_recordName hid), h.isBlocked (isFileName_draftName hid),
    h.isBlocked isFileName_lockName]
  simp

/-- What was set up beside the files of a store does not matter to it. -/
theorem Stands.slot_of_grows (ht : Stands files s home) (hu : Stands files' s home)
    (hg : files.Grows places files') (hid : isValidId id = true)
    (hp : home ++ [recordName id] ∉ places) (hs : slot files' s id = .of found) :
    slot files s id = .of found := by
  rw [hu.slot_eq_of_iff hid] at hs
  obtain ⟨hrecord, hdraft, hlock⟩ := hs
  have hstay : ∀ p, files'.get? p ≠ some .directory → files.get? p ≠ some .directory :=
    fun p => mt (hg.directoriesStay p)
  rw [ht.slot_eq_of_iff hid]
  refine ⟨?_, hstay _ hdraft, hstay _ hlock⟩
  rw [hg.get?_eq (by rw [hrecord]; cases found <;> simp) hp, hrecord]

end Directory

namespace Shelf

/-- The first of these is a store in memory and the second one in a directory. They have the same
record, which can be read back. -/
inductive Slot.Matches (ρ : Token → Token) (id : String) : Slot D → Slot D → Prop
  | invalid : Matches ρ id .invalid .invalid
  | valid (found : Option (Versioned D)) (hid : ∀ r ∈ found, r.id = id)
      (hread : ∀ r ∈ found, Document.Readable r.document ∧ r.modifiedAt.Valid) :
      Matches ρ id (.memory found) (.directory (.of (found.map (·.rename ρ))))

variable {x y : Slot D}

theorem Slot.Matches.exists_of_directory {c : Directory.Slot} (h : x.Matches ρ id (.directory c)) :
    ∃ found : Option (Versioned D), c = .of found := by
  cases h with
  | valid found hid hread => exact ⟨_, rfl⟩

theorem readable_rename {found : Option (Versioned D)}
    (hread : ∀ r ∈ found, Document.Readable r.document ∧ r.modifiedAt.Valid) :
    ∀ r ∈ found.map (·.rename ρ), Document.Readable r.document ∧ r.modifiedAt.Valid := by
  intro r hr
  obtain ⟨q, hq, rfl⟩ := Option.map_eq_some_iff.mp hr
  exact hread q hq

theorem Slot.Matches.fetch (h : x.Matches ρ id y) :
    y.fetch id = renameAnswer ρ (·.map (·.rename ρ)) (x.fetch id) := by
  cases h with
  | invalid => rfl
  | valid found hid hread =>
    unfold Slot.fetch
    dsimp only
    rw [Directory.Slot.stored?_of (readable_rename hread)]
    cases found with
    | none => rfl
    | some r =>
      obtain rfl := hid r rfl
      rfl

/-- The same save on both sides. -/
theorem Slot.Matches.save (hρ : Function.Injective ρ) {r : Versioned D} (h : x.Matches ρ r.id y)
    (hr : Document.Readable r.document ∧ r.modifiedAt.Valid) (lockFree : Bool)
    (expected : Option Token) :
    (y.save true (r.rename ρ) (expected.map ρ)).1 =
        renameAnswer ρ (·.rename ρ) (x.save lockFree r expected).1 ∧
      (x.save lockFree r expected).2.Matches ρ r.id (y.save true (r.rename ρ) (expected.map ρ)).2 := by
  cases h with
  | invalid => exact ⟨rfl, .invalid⟩
  | valid found hid hread =>
    have hversion : (found.map (·.rename ρ)).map (·.version) = (found.map (·.version)).map ρ := by
      cases found <;> rfl
    unfold Slot.save
    dsimp only
    rw [Directory.Slot.save_of (readable_rename hread), hversion]
    by_cases he : found.map (·.version) = expected
    · rw [if_pos he, if_pos (congrArg _ he)]
      exact ⟨rfl, .valid (some r) (by simp) (by simpa using hr)⟩
    · rw [if_neg he, if_neg fun hm => he (Option.map_injective hρ hm)]
      exact ⟨rfl, .valid found hid hread⟩

end Shelf
end ServiceCatalog
