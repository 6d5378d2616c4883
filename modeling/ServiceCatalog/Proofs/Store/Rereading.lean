import ServiceCatalog.Proofs.App.World
import ServiceCatalog.Proofs.Store.Protection

/-!
What a directory gives back of a record it has accepted. The text of a record has one container around
the document: a document that nests as deep as a text may is written but cannot be read, and from then
on its id is refused. The records of the two machines stay far below.
-/
namespace ServiceCatalog

namespace Json

/-- So many arrays inside each other. -/
def nested : Nat → Json
  | 0 => .null
  | n + 1 => .arr [nested n]

theorem height_nested (n : Nat) : (nested n).height = n := by
  induction n with
  | zero => rfl
  | succ n ih => simp [nested, height, heightItems, ih]

theorem exact_nested (n : Nat) : (nested n).Exact := by
  induction n with
  | zero => trivial
  | succ n ih => exact ⟨ih, trivial⟩

theorem sorted_nested (n : Nat) : (nested n).sorted = nested n := by
  induction n with
  | zero => rfl
  | succ n ih => simp [nested, sorted, sortedItems, ih]

end Json

namespace Directory

section Again

variable {D : Type} [Document D] {files files' : FileTree} {s s' : Directory D} {now : Instant}
  {fresh : Token} {lockFree : Bool} {id : String} {document : D} {expected : Option Token}
  {c : Slot} {r : Versioned D}

/-- With nothing in its way, a save answers from the text of the record. -/
theorem Slot.save_withText (hlock : c.lock = .ok false) (hdraft : c.draft = .ok false)
    (text : String) :
    ((c.withText text).save true r expected).1 =
      match Stored.ofText? (D := D) text with
      | some old =>
        if some old.version = expected then .ok r
        else .error (.conflict r.id expected (some old.version))
      | none => .error .serialization := by
  unfold Slot.save Slot.stored? Slot.withText
  simp only [hlock, hdraft, FileTree.contentsOf, Stored.ofContents?_text, Bool.not_true,
    Bool.false_eq_true, if_false]
  cases Stored.ofText? (D := D) text with
  | none => rfl
  | some old =>
    dsimp only [Option.map_some]
    split <;> rfl

/-- A fetch after a save that succeeded answers what is read of the record. -/
theorem fetch_again (h : save files s now fresh lockFree id document expected = (.ok r, files', s')) :
    fetch files' s' id = (reread r).map some := by
  obtain ⟨hid, rfl, hstate, home, -, -, hread⟩ := save_eq_ok h
  refine fetch_of_read (r := ⟨id, document, fresh, now⟩) hid ?_
  rw [hstate]
  exact hread

/-- A save after one that succeeded answers from what is read of the record. -/
theorem save_again (h : save files s now fresh lockFree id document expected = (.ok r, files', s'))
    (later : Instant) (next : Token) (document' : D) (expected' : Option Token) :
    (save files' s' later next true id document' expected').1 =
      match reread r with
      | .ok kept =>
        if some kept.version = expected' then .ok ⟨id, document', next, later⟩
        else .error (.conflict id expected' (some kept.version))
      | .error e => .error e := by
  obtain ⟨hid, rfl, -⟩ := save_eq_ok h
  obtain ⟨⟨-, hlock, hdraft, -⟩, -, hslot⟩ := Slot.save_eq_ok.mp (save_slot hid h)
  rcases h' : save files' s' later next true id document' expected' with ⟨answer, files'', s''⟩
  have hanswer := congrArg Prod.fst (save_slot hid h')
  rw [hslot, Slot.save_withText hlock hdraft] at hanswer
  rw [← hanswer, reread]
  cases Stored.ofText? (D := D) (stored ⟨id, document, fresh, now⟩).toText <;> rfl

/-- A file that is no record stays in the way of every save. -/
theorem save_of_undecodable {contents : Contents} (hid : isValidId id = true)
    (hlock : files.isBlocked (s.place lockName) = .ok false)
    (hread : files.read (s.place (recordName id)) = .ok contents)
    (hnone : Stored.ofContents? (D := D) contents = none) :
    (save files s now fresh true id document expected).1 = .error .serialization := by
  have hending := ending_place s (isFileName_recordName hid)
  have hstored : (slot files s id).stored? (D := D) = .error .serialization := by
    rw [Slot.stored?, record_slot, ← FileTree.read_eq_contentsOf hending, hread]
    dsimp only
    rw [hnone]
  rw [← lock_slot files s id] at hlock
  rcases h : save files s now fresh true id document expected with ⟨answer, files', s'⟩
  have hanswer := congrArg Prod.fst (save_slot hid h)
  rw [← hanswer, Slot.save, hlock]
  dsimp only
  rw [hstored]
  rfl

end Again

section Depth

open Json

variable {files files' : FileTree} {s s' : Directory Json} {now : Instant} {fresh : Token}
  {lockFree : Bool} {id : String} {document : Json} {expected : Option Token} {r : Versioned Json}

/-- JSON with whole numbers, as it is held in memory, is read back up to one level less than a text
may have. -/
theorem ofText?_toText_json (he : r.document.Exact) (hs : r.document.sorted = r.document)
    (ht : r.modifiedAt.Valid) :
    Stored.ofText? (stored r).toText =
      if r.document.height < maxDepth then some (stored r) else none := by
  have hdecoded : Document.ofJson (Document.toJson r.document) = .ok r.document :=
    congrArg Except.ok hs
  exact Stored.ofText?_toText_eq (covers_whole _) he hdecoded ht

theorem reread_json (he : r.document.Exact) (hs : r.document.sorted = r.document)
    (ht : r.modifiedAt.Valid) :
    reread r = if r.document.height < maxDepth then .ok r else .error .serialization := by
  rw [reread, ofText?_toText_json he hs ht]
  by_cases hd : r.document.height < maxDepth
  · rw [if_pos hd, if_pos hd]
    rfl
  · rw [if_neg hd, if_neg hd]

/-- A JSON document that was saved is given back, and the next save under its token succeeds, if it has
a level less than a text may have. Otherwise the record cannot be read, and no save replaces it. -/
theorem kept_of_save (he : document.Exact) (hs : document.sorted = document) (hnow : now.Valid)
    (h : save files s now fresh lockFree id document expected = (.ok r, files', s')) :
    r = ⟨id, document, fresh, now⟩ ∧
      fetch files' s' id =
        (if document.height < maxDepth then .ok (some r) else .error .serialization) ∧
      ∀ (later : Instant) (next : Token) (document' : Json) (expected' : Option Token),
        (save files' s' later next true id document' expected').1 =
          if document.height < maxDepth then
            if some r.version = expected' then .ok ⟨id, document', next, later⟩
            else .error (.conflict id expected' (some r.version))
          else .error .serialization := by
  obtain ⟨-, rfl, -⟩ := save_eq_ok h
  have hreread : reread ⟨id, document, fresh, now⟩ =
      if document.height < maxDepth then .ok ⟨id, document, fresh, now⟩
      else .error .serialization := reread_json he hs hnow
  refine ⟨rfl, ?_, fun later next document' expected' => ?_⟩
  · rw [fetch_again h, hreread]
    split <;> rfl
  · rw [save_again h, hreread]
    by_cases hd : document.height < maxDepth
    · rw [if_pos hd, if_pos hd]
    · rw [if_neg hd, if_neg hd]

/-- In this directory nothing is stored. -/
def unused : FileTree := ⟨[(["records"], .directory)]⟩

theorem save_unused (now : Instant) (fresh : Token) (document : Json) :
    ∃ files' s', save unused ⟨"records", {}⟩ now fresh true "a" document none =
      (.ok ⟨"a", document, fresh, now⟩, files', s') := by
  let s : Directory Json := ⟨"records", {}⟩
  have hlock : unused.isBlocked (s.place lockName) = .ok false := by decide +kernel
  have hdraft : unused.isBlocked (s.place (draftName "a")) = .ok false := by decide +kernel
  have habsent : unused.look (s.place (recordName "a")) = .ok none := by decide +kernel
  obtain ⟨q, hq⟩ : ∃ q, (save unused s now fresh true "a" document none).1 = .ok q :=
    exists_of_expected (by decide) hlock hdraft (habsent ▸ .absent)
  rcases h : save unused s now fresh true "a" document none with ⟨answer, files', s'⟩
  obtain rfl : answer = .ok q := (congrArg Prod.fst h).symm.trans hq
  obtain ⟨-, rfl, -⟩ := save_eq_ok h
  exact ⟨files', s', rfl⟩

theorem kept_of_save_word :
    let document : Json := .arr [.num (.nat maxWord), .str "\n"]
    ∃ r files' s', save unused ⟨"records", {}⟩ ⟨0, 0⟩ ⟨"v1"⟩ true "a" document none =
        (.ok r, files', s') ∧
      document.Exact ∧ document.sorted = document ∧ (⟨0, 0⟩ : Instant).Valid ∧
      fetch files' s' "a" = .ok (some r) := by
  intro document
  obtain ⟨files', s', h⟩ := save_unused ⟨0, 0⟩ ⟨"v1"⟩ document
  have he : document.Exact := by simp [document, Exact, ExactItems, Number.IsWord, maxWord]
  have hs : document.sorted = document := by simp [document, sorted, sortedItems]
  have hnow : (⟨0, 0⟩ : Instant).Valid := by decide
  obtain ⟨-, hfetch, -⟩ := kept_of_save he hs hnow h
  have hd : document.height < maxDepth := by simp [document, height, heightItems, maxDepth]
  rw [if_pos hd] at hfetch
  exact ⟨_, files', s', h, he, hs, hnow, hfetch⟩

/-- As many arrays as a text may have are accepted and not given back. It is the text that cannot be
read: wherever it stands as the record, the fetch fails and so does every save. -/
theorem fetch_nested_fails :
    let document := nested maxDepth
    let now : Instant := ⟨1709294400, 0⟩
    let text := (Json.obj [("version", .str "t"), ("modified_at", .str "2024-03-01T12:00:00Z"),
      ("document", document)]).toPrettyText
    ∃ r files' s', save unused ⟨"records", {}⟩ now ⟨"t"⟩ true "a" document none =
        (.ok r, files', s') ∧
      document.Exact ∧ document.sorted = document ∧
      files'.read (s'.place (recordName "a")) = .ok (.text text) ∧
      fetch files' s' "a" = .error .serialization ∧
      (save files' s' now ⟨"v2"⟩ true "a" .null (some r.version)).1 = .error .serialization ∧
      ∀ (files : FileTree) (s : Directory Json),
        files.read (s.place (recordName "a")) = .ok (.text text) →
          fetch files s "a" = .error .serialization ∧
            (files.isBlocked (s.place lockName) = .ok false →
              ∀ (later : Instant) (next : Token) (document' : Json) (expected : Option Token),
                (save files s later next true "a" document' expected).1 =
                  .error .serialization) := by
  intro document now text
  obtain ⟨files', s', h⟩ := save_unused now ⟨"t"⟩ document
  have hdeep : ¬document.height < maxDepth := by simp [document, height_nested]
  have hvalid : now.Valid := by decide
  have hreread : reread ⟨"a", document, ⟨"t"⟩, now⟩ = .error .serialization := by
    rw [reread_json (exact_nested _) (sorted_nested _) hvalid, if_neg hdeep]
  have htime : now.text = "2024-03-01T12:00:00Z" := by decide +kernel
  have htext : (stored ⟨"a", document, ⟨"t"⟩, now⟩).toText = text := by
    rw [Stored.toText, Stored.toJson, stored, htime]
    rfl
  have hnone : Stored.ofContents? (D := Json) (.text text) = none := by
    rw [← htext, Stored.ofContents?_text,
      ofText?_toText_json (exact_nested _) (sorted_nested _) hvalid, if_neg hdeep]
  obtain ⟨hid, -, hstate, home, -, -, hread⟩ := save_eq_ok h
  refine ⟨_, files', s', h, exact_nested _, sorted_nested _, ?_, ?_, ?_,
    fun files s hfile => ⟨?_, ?_⟩⟩
  · rw [hstate, ← htext]
    exact hread
  · rw [fetch_again h, hreread]
    rfl
  · rw [save_again h, hreread]
  · rw [fetch_of_read (r := ⟨"a", document, ⟨"t"⟩, now⟩) hid (htext ▸ hfile), hreread]
    rfl
  · intro hlock later next document' expected
    exact save_of_undecodable hid hlock hfile hnone

end Depth

section Items

/-- The record file of a machine's item is read back as what the save has put into it. -/
theorem record_restored (m : MachineName) (r : Stored (Item m.State))
    (hr : r.document.service.Fits) (ht : r.modifiedAt.Valid) :
    Stored.ofText? r.toText = some r ∧
      ∀ (files : FileTree) (s : Directory (Item m.State)) (lockFree : Bool) (id : String)
        (expected : Option Token) (q : Versioned (Item m.State)) (files' : FileTree)
        (s' : Directory (Item m.State)),
        save files s r.modifiedAt r.version lockFree id r.document expected = (.ok q, files', s') →
          files'.read (s.place (recordName id)) = .ok (.text r.toText) ∧
            fetch files' s' id = .ok (some (r.versioned id)) := by
  have hd : Document.Readable r.document := Item.readable hr
  refine ⟨Stored.ofText?_toText hd ht, fun files s lockFree id expected q files' s' h => ?_⟩
  obtain ⟨-, rfl, -, home, -, -, hread⟩ := save_eq_ok h
  refine ⟨hread, ?_⟩
  rw [fetch_again h, reread_of_readable hd ht]
  rfl

/-- Rejected with every kind of character, in a leap second of the year before the year -1. -/
def signedRecord : Stored (Item Lifecycle.State) where
  version := ⟨"v\u0000\"\\"⟩
  modifiedAt := ⟨-62200000021, 1120000000⟩
  document :=
    { service :=
        { id := "odd"
          data :=
            { name := "\"Quoted\"\n\\ and\tmore \u001f\u007f𝄞"
              description := ""
              organization := ⟨"City", "00000000000"⟩
              metadata := { topicId := some 4294967295 }
              maxAllowedPaymentAmount := 18446744073709551615 }
          review := some (.rejected "no\r\n") }
      state := .draft
      lastTransition := none }

theorem record_restored_signed :
    signedRecord.modifiedAt.text = "-0002-12-17T14:12:60.120Z" ∧
      signedRecord.document.service.Fits ∧ signedRecord.modifiedAt.Valid ∧
      Stored.ofText? signedRecord.toText = some signedRecord := by
  have hr : signedRecord.document.service.Fits :=
    { data := ⟨by simp [signedRecord], by simp [signedRecord]⟩
      review := by
        rintro r hr
        obtain rfl := Option.some.inj hr
        trivial }
  have ht : signedRecord.modifiedAt.Valid := by decide
  exact ⟨by decide +kernel, hr, ht, (record_restored .lifecycle signedRecord hr ht).1⟩

end Items

end Directory
end ServiceCatalog
