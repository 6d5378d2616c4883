import ServiceCatalog.Proofs.App.Site
import ServiceCatalog.Proofs.Watch.WorkItem

/-!
The log of work items as a sequence. However often it is opened, it holds one line for each item that
was published, and its lines give the items back in the order in which they were published.
-/
namespace ServiceCatalog.ItemLog

/-- The lines of a text, each without the newline that ends it. -/
def splitLines (text : String) : List String :=
  (text.toList.splitOn '\n').dropLast.map String.ofList

/-- The text is made of lines that are ended by newlines, one for each item and in the same order. -/
structure Records (text : String) (items : List WorkItem) : Prop where
  framed : text = String.join ((splitLines text).map (· ++ "\n"))
  decoded : (splitLines text).map WorkItem.ofText? = items.map some

/-- The log has this text, and still has it when it has been opened again. -/
structure Keeps (files : FileTree) (path text : String) : Prop where
  read : files.read (.ofText path) = .ok (.text text)
  reopened : ∃ opened, openAt files path = .ok opened ∧
    opened.read (.ofText path) = .ok (.text text)

section Lines

variable {w : WorkItem} {items : List WorkItem} {text : String}

theorem splitLines_append {body : String} (h : '\n' ∉ body.toList) (rest : String) :
    splitLines (body ++ "\n" ++ rest) = body :: splitLines rest := by
  have htext : (body ++ "\n" ++ rest).toList = body.toList ++ '\n' :: rest.toList := by
    simp [String.toList_append]
  have hsplit : (body.toList ++ '\n' :: rest.toList).splitOn '\n' =
      body.toList :: rest.toList.splitOn '\n' := by
    refine List.splitOnP_append_cons_of_forall_mem (fun c hc => ?_) '\n' (by simp) _
    exact beq_false_of_ne (ne_of_mem_of_not_mem hc h)
  rw [splitLines, htext, hsplit, List.dropLast_cons_of_ne_nil (List.splitOn_ne_nil _ _),
    List.map_cons, String.ofList_toList]
  rfl

/-- The text of an item has no newline of its own, whatever stands in its strings. -/
theorem newline_notMem_toText (h : w.Fits) : '\n' ∉ w.toJson.toText.toList := by
  rw [Json.toText, String.toList_ofList]
  exact (Json.bare_compact (WorkItem.within_toJson h).exact).notMem (by decide)

theorem Records.nil : Records "" [] := ⟨by decide, by decide⟩

theorem Records.cons (hw : w.Fits) (h : Records text items) :
    Records (line w ++ text) (w :: items) := by
  have hlines : splitLines (line w ++ text) = w.toJson.toText :: splitLines text :=
    splitLines_append (newline_notMem_toText hw) text
  constructor
  · rw [hlines, List.map_cons, String.join_cons, ← h.framed]
    rfl
  · rw [hlines, List.map_cons, List.map_cons, h.decoded, WorkItem.ofText?_toText hw]

theorem records_join (h : ∀ w ∈ items, w.Fits) : Records (String.join (items.map line)) items := by
  induction items with
  | nil => exact .nil
  | cons w items ih =>
    rw [List.forall_mem_cons] at h
    rw [List.map_cons, String.join_cons]
    exact (ih h.2).cons h.1

end Lines

/-- The path leads to the log, and the log has this text. -/
structure Stands (files : FileTree) (path : String) (log : Place) (text : String) : Prop where
  named : (Path.ofText path).ending = .name
  resolve : files.resolve (.ofText path) = .ok log
  file : files.get? log = some (.file (.text text))

variable {path : String} {files opened : FileTree} {log : Place} {text : String}

theorem stands_of_openAt (hopen : openAt files path = .ok opened)
    (habsent : ∀ log, opened.resolve (.ofText path) = .ok log → files.get? log = none) :
    ∃ log, Stands opened path log "" := by
  obtain ⟨hnamed, log, hr, hgrows, contents, hfile⟩ := openAt_eq_ok hopen
  refine ⟨log, hnamed, hr, ?_⟩
  rcases hgrows log with hsame | ⟨-, hnew | ⟨-, hnew⟩⟩
  · rw [habsent log hr, hfile] at hsame
    cases hsame
  · rw [hfile] at hnew
    cases hnew
  · exact hnew

/-- A log that takes one item takes all. -/
theorem exists_publishAll (h : files.TakesText (.ofText path)) (items : List WorkItem) :
    ∃ files', publishAll path items files = .ok files' := by
  induction items generalizing files with
  | nil => exact ⟨files, rfl⟩
  | cons w items ih =>
    obtain ⟨published, hp⟩ := h.append (line w)
    obtain ⟨files', hrest⟩ := ih (FileTree.takesText_of_append hp).2
    exact ⟨files', by rw [publishAll, publish, hp, ok_bind, hrest]⟩

namespace Stands

theorem read (h : Stands files path log text) : files.read (.ofText path) = .ok (.text text) := by
  rw [FileTree.read, h.resolve, ok_bind, h.file]
  exact if_pos h.named

theorem openAt (h : Stands files path log text) :
    ∃ opened, ItemLog.openAt files path = .ok opened ∧ Stands opened path log text := by
  obtain ⟨opened, hopen, -, hr, hfile⟩ :=
    openAt_of_grows (.refl {log} files) h.named h.resolve h.file
  exact ⟨opened, hopen, h.named, hr, hfile⟩

theorem keeps (h : Stands files path log text) : Keeps files path text := by
  obtain ⟨opened, hopen, hs⟩ := h.openAt
  exact ⟨h.read, opened, hopen, hs.read⟩

theorem publishAll (h : Stands files path log text) (items : List WorkItem) :
    ∃ files', ItemLog.publishAll path items files = .ok files' ∧
      Stands files' path log (text ++ String.join (items.map line)) := by
  obtain ⟨files', hp⟩ := exists_publishAll ⟨h.named, log, h.resolve, by simp [h.file]⟩ items
  obtain ⟨htext, hc⟩ := text_of_publishAll hp h.resolve h.file
  exact ⟨files', hp, h.named, hc.resolve_eq_ok_iff.mpr h.resolve, htext⟩

/-- Each batch finds the log as the one before has left it. -/
theorem publishBatches (h : Stands files path log text) (batches : List (List WorkItem)) :
    ∃ files', ItemLog.publishBatches path batches files = .ok files' ∧
      Stands files' path log (text ++ String.join (batches.flatten.map line)) := by
  induction batches generalizing files text with
  | nil => exact ⟨files, rfl, by simpa using h⟩
  | cons batch batches ih =>
    obtain ⟨opened, hopen, ho⟩ := h.openAt
    obtain ⟨published, hp, hs⟩ := ho.publishAll batch
    obtain ⟨files', hb, hs'⟩ := ih hs
    refine ⟨files', by rw [ItemLog.publishBatches, hopen, ok_bind, hp, ok_bind, hb], ?_⟩
    rwa [List.flatten_cons, List.map_append, String.join_append, ← String.append_assoc]

end Stands

theorem publishBatches_append (path : String) (xs ys : List (List WorkItem)) (files : FileTree) :
    publishBatches path (xs ++ ys) files =
      (publishBatches path xs files >>= publishBatches path ys) := by
  induction xs generalizing files with
  | nil => rfl
  | cons x xs ih =>
    rw [List.cons_append, publishBatches, publishBatches]
    cases openAt files path with
    | error e => rfl
    | ok opened =>
      rw [ok_bind, ok_bind]
      cases publishAll path x opened with
      | error e => rfl
      | ok files => exact ih files

/-- Only the first batch may find no log. -/
theorem stands_of_publishBatches (hopen : openAt files path = .ok opened)
    (h : Stands opened path log "") {batches : List (List WorkItem)} (hne : batches ≠ []) :
    ∃ files', publishBatches path batches files = .ok files' ∧
      Stands files' path log (String.join (batches.flatten.map line)) := by
  obtain ⟨batch, rest, rfl⟩ := List.exists_cons_of_ne_nil hne
  obtain ⟨published, hp, hs⟩ := h.publishAll batch
  obtain ⟨files', hb, hs'⟩ := hs.publishBatches rest
  refine ⟨files', by rw [publishBatches, hopen, ok_bind, hp, ok_bind, hb], ?_⟩
  rwa [String.empty_append, ← String.join_append, ← List.map_append, ← List.flatten_cons] at hs'

/-- Batches that are published to a new log leave a text that gives their items back. What some of them
have left stays as it is, also when the log is opened again, and the others add to its end. -/
theorem publishBatches_records {batches : List (List WorkItem)}
    (hopen : openAt files path = .ok opened)
    (habsent : ∀ log, opened.resolve (.ofText path) = .ok log → files.get? log = none)
    (hfits : ∀ w ∈ batches.flatten, w.Fits) :
    ∃ files', publishBatches path batches files = .ok files' ∧
      (batches ≠ [] → ∃ text, Keeps files' path text ∧ Records text batches.flatten) ∧
      ∀ before after, before ++ after = batches → before ≠ [] →
        ∃ mid text added, publishBatches path before files = .ok mid ∧ Keeps mid path text ∧
          publishBatches path after mid = .ok files' ∧ Keeps files' path (text ++ added) ∧
          Records text before.flatten ∧ Records added after.flatten := by
  obtain ⟨log, hlog⟩ := stands_of_openAt hopen habsent
  cases batches with
  | nil =>
    -- Nothing is opened, so there may be no log to read.
    refine ⟨files, rfl, fun hne => absurd rfl hne, fun before after happend hne => ?_⟩
    exact absurd (List.append_eq_nil_iff.mp happend).1 hne
  | cons batch batches =>
    obtain ⟨files', hrun, hend⟩ :=
      stands_of_publishBatches hopen hlog (List.cons_ne_nil batch batches)
    refine ⟨files', hrun, fun _ => ⟨_, hend.keeps, records_join hfits⟩, ?_⟩
    intro before after happend hne
    rw [← happend, List.flatten_append, List.forall_mem_append] at hfits
    obtain ⟨mid, hmid, hs⟩ := stands_of_publishBatches hopen hlog hne
    obtain ⟨last, hlast, hs'⟩ := hs.publishBatches after
    -- Publishing in two parts is publishing at once, so both runs end in the same files.
    obtain rfl : last = files' := by
      rw [← happend, publishBatches_append, hmid, ok_bind, hlast] at hrun
      exact Except.ok.inj hrun
    exact ⟨mid, _, _, hmid, hs.keeps, hlast, hs'.keeps, records_join hfits.1, records_join hfits.2⟩

/-- A service with strings that a line could break at. -/
def oddData : ServiceData where
  name := "a\nb"
  description := "\"\\\r\t"
  organization := ⟨"\x00\x1f", "é\u2028"⟩
  metadata := { topicId := some 7, email := some "\n" }
  authorizedRecipients := ["", "\n\n"]
  maxAllowedPaymentAmount := 2 ^ 64 - 1

def oddDetail : DetailRequest :=
  ⟨"S\n1", .lifecycle, "\n", "\\n", oddData.organization, oddData.metadata, -1⟩

/-- One item of every kind. -/
def oddItems : List WorkItem :=
  [.review ⟨"S\n1", ⟨"v\n1"⟩, oddData⟩, .lifecycleDetail oddDetail, .publicationDetail oddDetail,
    .history ⟨"S1", "\"", ⟨""⟩, "\n", oddData⟩, .noAction]

theorem publishBatches_records_odd :
    let batches := [oddItems, [], oddItems.reverse]
    ∃ files', publishBatches "out/work.jsonl" batches {} = .ok files' ∧
      (batches ≠ [] → ∃ text, Keeps files' "out/work.jsonl" text ∧ Records text batches.flatten) ∧
      ∀ before after, before ++ after = batches → before ≠ [] →
        ∃ mid text added, publishBatches "out/work.jsonl" before {} = .ok mid ∧
          Keeps mid "out/work.jsonl" text ∧ publishBatches "out/work.jsonl" after mid = .ok files' ∧
          Keeps files' "out/work.jsonl" (text ++ added) ∧
          Records text before.flatten ∧ Records added after.flatten := by
  have hopen : openAt {} "out/work.jsonl" =
      .ok ⟨[(["out"], .directory), (["out", "work.jsonl"], .file (.text ""))]⟩ := by decide +kernel
  have hresolve : (FileTree.mk [(["out"], .directory),
      (["out", "work.jsonl"], .file (.text ""))]).resolve (.ofText "out/work.jsonl") =
        .ok ["out", "work.jsonl"] := by decide +kernel
  have hfits : ∀ w ∈ oddItems, w.Fits := by
    have hdata : oddData.Fits := ⟨by simp [oddData], by decide⟩
    have hdetail : oddDetail.Fits := ⟨by simp [oddDetail, oddData], by decide, by decide⟩
    simp only [oddItems, List.forall_mem_cons]
    exact ⟨hdata, hdetail, hdetail, hdata, trivial, by simp⟩
  refine publishBatches_records hopen (fun log hlog => ?_) fun w hw => hfits w (by simpa using hw)
  obtain rfl := Except.ok.inj (hresolve.symm.trans hlog)
  decide

end ServiceCatalog.ItemLog
