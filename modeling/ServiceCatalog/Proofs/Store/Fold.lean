import ServiceCatalog.Proofs.Store.Frame
import ServiceCatalog.Proofs.Store.Session
import ServiceCatalog.Proofs.Workflow.Storage

/-!
A store against its feed. What is read of an id is the last event for it, and a subscriber that came
before the first commit is told of every commit.
-/
namespace ServiceCatalog

variable {D : Type}

/-- The last event for each id. -/
def View.latest (events : List (Versioned D)) : View D := fun id =>
  events.reverse.find? (·.id == id)

theorem View.latest_append (events : List (Versioned D)) (r : Versioned D) :
    latest (events ++ [r]) = Function.update (latest events) r.id (some r) := by
  funext id
  by_cases h : id = r.id
  · subst h
    simp [latest]
  · simp [latest, h, Ne.symm h]

theorem View.mem_of_latest {events : List (Versioned D)} {id : String} {r : Versioned D}
    (h : latest events id = some r) : r ∈ events :=
  List.mem_reverse.mp (List.mem_of_find?_eq_some h)

namespace Shelf

variable [Document D] {files files' : FileTree} {s s' : Shelf D} {v : View D} {id : String}
  {events : List (Versioned D)}

/-- What is read of an id when the view has the last event for it. -/
def shown (s : Shelf D) (v : View D) (id : String) : Except StoreError (Option (Versioned D)) := do
  match ← v.fetch id with
  | none => return none
  | some r => return some (← s.reread r)

/-- Every read shows the last of some events. -/
def Shows (files : FileTree) (s : Shelf D) (events : List (Versioned D)) : Prop :=
  ∀ id, s.fetch files id = s.shown (View.latest events) id

theorem shown_congr (h : s'.path? = s.path?) : s'.shown = s.shown := by
  unfold shown
  rw [reread_congr h]

theorem shown_of_invalid (s : Shelf D) (v : View D) (h : isValidId id = false) :
    s.shown v id = .error (.invalidId id) := by
  simp [shown, View.fetch, h]

theorem shown_of_none (s : Shelf D) (hid : isValidId id = true) (h : v id = none) :
    s.shown v id = .ok none := by
  simp [shown, View.fetch, hid, h]

theorem shown_of_some (s : Shelf D) {r : Versioned D} (hid : isValidId id = true)
    (h : v id = some r) : s.shown v id = (s.reread r).map some := by
  simp only [shown, View.fetch, hid, if_true, h, ok_bind]
  cases s.reread r <;> rfl

/-- Where the record is given back as it was saved, a read shows the event. -/
theorem shown_of_returns (h : ∀ r, v id = some r → s.Returns r) : s.shown v id = v.fetch id := by
  cases hid : isValidId id with
  | false => simp [shown_of_invalid, View.fetch, hid]
  | true =>
    cases hv : v id with
    | none => simp [shown_of_none s hid hv, View.fetch, hid, hv]
    | some r => simp [shown_of_some s hid hv, (h r hv).reread, View.fetch, hid, hv]

theorem shows_of_empty (h : s.Empty files) : s.Shows files [] := by
  intro id
  have hnone : ∀ r, View.latest [] id = some r → s.Returns r := by
    rintro r ⟨⟩
  rw [fetch_of_holds (holds_of_empty h), shown_of_returns hnone]
  rfl

variable {now : Instant} {fresh : Token} {lockFree : Bool} {document : D} {expected : Option Token}
  {r : Versioned D}

theorem Shows.commit (h : s.Shows files events)
    (hs : s.save files now fresh lockFree id document expected = (.ok r, files', s')) :
    s'.Shows files' (events ++ [r]) := by
  obtain ⟨hid, rfl, hstored, hothers⟩ := save_eq_ok hs
  intro i
  rw [shown_congr (path?_save hs), View.latest_append]
  by_cases hi : i = id
  · subst hi
    rw [hstored, shown_of_some s hid (Function.update_self ..)]
  · rw [hothers i hi, h i]
    simp only [shown, View.fetch, Function.update_of_ne hi]

theorem Shows.refuse {e : StoreError} (h : s.Shows files events)
    (hs : s.save files now fresh lockFree id document expected = (.error e, files', s')) :
    s'.Shows files' events := by
  intro i
  rw [shown_congr (path?_save hs), (save_unchanged hs).fetch, h i]

theorem Shows.withFeed (h : s.Shows files events) (f : Feed D) :
    (s.withFeed f).Shows files events := by
  cases s <;> exact h

end Shelf

namespace Session

/-- The records that were saved, in order. -/
def commits (answers : List (Answer D)) : List (Versioned D) :=
  answers.filterMap fun
    | .saved (.ok r) => some r
    | _ => none

/-- The events that subscriber `n` was given, in order. -/
def heard (n : Nat) (told : List (Call D × Answer D)) : List (Versioned D) :=
  told.filterMap fun
    | (.receive m, .received event) => if m = n then event else none
    | _ => none

theorem commits_append (answers more : List (Answer D)) :
    commits (answers ++ more) = commits answers ++ commits more :=
  List.filterMap_append

theorem commits_cons (a : Answer D) (answers : List (Answer D)) :
    commits (a :: answers) = commits [a] ++ commits answers :=
  commits_append [a] answers

theorem heard_cons (n : Nat) (t : Call D × Answer D) (told : List (Call D × Answer D)) :
    heard n (t :: told) = heard n [t] ++ heard n told :=
  List.filterMap_append (l := [t])

variable [Document D] {s : Session D} {n : Nat} {events : List (Versioned D)} {c : Call D}
  {calls : List (Call D)}

def run : Session D → List (Call D) → Session D
  | s, [] => s
  | s, c :: rest => run (s.step c).2 rest

theorem run_append (s : Session D) (calls more : List (Call D)) :
    s.run (calls ++ more) = (s.run calls).run more := by
  induction calls generalizing s with
  | nil => rfl
  | cons c calls ih => exact ih _

theorem answers_append (s : Session D) (calls more : List (Call D)) :
    s.answers (calls ++ more) = s.answers calls ++ (s.run calls).answers more := by
  induction calls generalizing s with
  | nil => rfl
  | cons c calls ih => exact congrArg (_ :: ·) (ih _)

/-- A session as it begins. -/
structure New (s : Session D) : Prop where
  empty : s.shelf.Empty s.files
  feed : s.shelf.feed = {}
  opened : s.opened = 0

/-- A session with one store after some events. -/
structure Running (s : Session D) (events : List (Versioned D)) : Prop where
  shows : s.shelf.Shows s.files events
  sound : s.shelf.feed.Sound
  opened : s.opened = 0

theorem New.running (h : s.New) : s.Running [] :=
  ⟨Shelf.shows_of_empty h.empty, h.feed ▸ Feed.sound_empty, h.opened⟩

theorem Running.fetch_of_returns (h : s.Running events) {id : String}
    (hr : ∀ r, View.latest events id = some r → s.shelf.Returns r) :
    s.shelf.fetch s.files id = View.fetch (View.latest events) id := by
  rw [← Shelf.shown_of_returns hr]
  exact h.shows id

theorem Running.withFeed (h : s.Running events) {f : Feed D} (hf : f.Sound) :
    (s.withFeed f).Running events :=
  ⟨h.shows.withFeed f, by simpa [Session.withFeed] using hf, h.opened⟩

/-- One call: the events grow by what it commits. -/
theorem Running.step (h : s.Running events) (hc : c ≠ .reopen) :
    (s.step c).2.Running (events ++ commits [(s.step c).1]) := by
  have hsame : ∀ {t : Session D}, t.Running events → t.Running (events ++ []) := by simp
  cases c with
  | fetch id => exact hsame h
  | save id document expected =>
    rcases hs : s.shelf.save s.files s.now (s.mint s.issued) true id document expected with
      ⟨answer, files, shelf⟩
    have hfeed := Shelf.feed_save hs
    simp only [Session.step, hs]
    cases answer with
    | ok r => exact ⟨h.shows.commit hs, hfeed ▸ h.sound.publish r, h.opened⟩
    | error e => exact hsame ⟨h.shows.refuse hs, hfeed ▸ h.sound, h.opened⟩
  | subscribe => exact hsame (h.withFeed h.sound.subscribe)
  | leave m => exact hsame (h.withFeed (h.sound.leave _))
  | receive m => exact hsame (h.withFeed (h.sound.receive _))
  | setClock now => exact hsame ⟨h.shows, h.sound, h.opened⟩
  | reopen => exact absurd rfl hc

theorem Running.run (h : s.Running events) (hc : .reopen ∉ calls) :
    (s.run calls).Running (events ++ commits (s.answers calls)) := by
  induction calls generalizing s events with
  | nil => simpa [Session.run, answers, commits] using h
  | cons c rest ih =>
    rw [List.mem_cons, not_or] at hc
    have hrest := ih (h.step (Ne.symm hc.1)) hc.2
    rwa [List.append_assoc, ← commits_cons] at hrest

/-- One call: what a subscriber is given and what is queued for it grows by what the call commits. -/
theorem heard_step (h : s.Running events) (hn : s.shelf.feed.isLive n = true) (hc : c ≠ .reopen)
    (hstay : c ≠ .leave n) :
    heard n [(c, (s.step c).1)] ++ (s.step c).2.shelf.feed.queue n =
        s.shelf.feed.queue n ++ commits [(s.step c).1] ∧
      (s.step c).2.shelf.feed.isLive n = true := by
  cases c with
  | fetch id => exact ⟨(List.append_nil _).symm, hn⟩
  | save id document expected =>
    rcases hs : s.shelf.save s.files s.now (s.mint s.issued) true id document expected with
      ⟨answer, files, shelf⟩
    have hfeed := Shelf.feed_save hs
    simp only [Session.step, hs, hfeed]
    cases answer with
    | ok r => exact ⟨Feed.queue_publish h.sound hn r, by simpa [Feed.after] using hn⟩
    | error e => exact ⟨(List.append_nil _).symm, hn⟩
  | subscribe =>
    simp [Session.step, Session.withFeed, heard, commits, Feed.queue_subscribe,
      Feed.isLive_subscribe, hn]
  | leave m =>
    have hm : n ≠ m := by
      rintro rfl
      exact hstay rfl
    simp [Session.step, Session.withFeed, heard, commits, h.opened, Feed.queue_leave_of_ne hm,
      Feed.isLive_leave, hn, hm]
  | receive m =>
    obtain ⟨hqueue, hlive⟩ := Feed.receive_queue hn m
    simp only [Session.step, Session.withFeed, Shelf.feed_withFeed, h.opened, Nat.zero_add]
    refine ⟨?_, hlive ▸ hn⟩
    rw [← hqueue]
    cases hm : (if m = n then (s.shelf.feed.receive m).1 else none) <;> simp [heard, commits, hm]
  | setClock now => exact ⟨(List.append_nil _).symm, hn⟩
  | reopen => exact absurd rfl hc

theorem heard_run (h : s.Running events) (hn : s.shelf.feed.isLive n = true) (hc : .reopen ∉ calls)
    (hstay : .leave n ∉ calls) :
    heard n (calls.zip (s.answers calls)) ++ (s.run calls).shelf.feed.queue n =
      s.shelf.feed.queue n ++ commits (s.answers calls) := by
  induction calls generalizing s events with
  | nil => simp [Session.run, answers, heard, commits]
  | cons c rest ih =>
    rw [List.mem_cons, not_or] at hc hstay
    obtain ⟨hstep, hlive⟩ := heard_step h hn (Ne.symm hc.1) (Ne.symm hstay.1)
    have hrest := ih (h.step (Ne.symm hc.1)) hlive hc.2 hstay.2
    rw [answers, Session.run, List.zip_cons_cons, heard_cons, List.append_assoc, hrest,
      ← List.append_assoc, hstep, List.append_assoc, ← commits_cons]

/-- What one call commits can be read back, if its document can. -/
theorem readable_of_step (hnow : s.now.Valid) (hc : c.Readable) (hopen : c ≠ .reopen) :
    (s.step c).2.now.Valid ∧
      ∀ r ∈ commits [(s.step c).1], Document.Readable r.document ∧ r.modifiedAt.Valid := by
  have hnone : ∀ r ∈ ([] : List (Versioned D)),
      Document.Readable r.document ∧ r.modifiedAt.Valid := by simp
  cases c with
  | fetch id => exact ⟨hnow, hnone⟩
  | save id document expected =>
    rcases hs : s.shelf.save s.files s.now (s.mint s.issued) true id document expected with
      ⟨answer, files, shelf⟩
    simp only [Session.step, hs]
    cases answer with
    | ok r =>
      obtain ⟨-, rfl, -⟩ := Shelf.save_eq_ok hs
      exact ⟨hnow, List.forall_mem_singleton.mpr ⟨hc, hnow⟩⟩
    | error e => exact ⟨hnow, hnone⟩
  | subscribe => exact ⟨hnow, hnone⟩
  | leave m => exact ⟨hnow, hnone⟩
  | receive m => exact ⟨hnow, hnone⟩
  | setClock now => exact ⟨hc, hnone⟩
  | reopen => exact absurd rfl hopen

theorem readable_of_run (hnow : s.now.Valid) (hc : ∀ c ∈ calls, c.Readable)
    (hopen : .reopen ∉ calls) :
    ∀ r ∈ commits (s.answers calls), Document.Readable r.document ∧ r.modifiedAt.Valid := by
  induction calls generalizing s with
  | nil => simp [answers, commits]
  | cons c rest ih =>
    rw [List.forall_mem_cons] at hc
    rw [List.mem_cons, not_or] at hopen
    obtain ⟨hvalid, hstep⟩ := readable_of_step hnow hc.1 (Ne.symm hopen.1)
    rw [answers, commits_cons, List.forall_mem_append]
    exact ⟨hstep, ih hvalid hc.2 hopen.2⟩

/-- After these calls the store is what its feed has told. -/
structure Folded (s : Session D) (calls : List (Call D)) : Prop where
  /-- What is read of an id is the last event for it, or that there is none, where the text of that
  event gives it back. -/
  returns : ∀ id, (∀ r, View.latest (commits (s.answers calls)) id = some r →
      (s.run calls).shelf.Returns r) →
    (s.run calls).shelf.fetch (s.run calls).files id =
      View.fetch (View.latest (commits (s.answers calls))) id
  /-- Among documents that can be read back there is no exception. -/
  readable : s.now.Valid → (∀ c ∈ calls, c.Readable) → ∀ id,
    (s.run calls).shelf.fetch (s.run calls).files id =
      View.fetch (View.latest (commits (s.answers calls))) id
  /-- A subscriber that came before there were events was given the first of them and has the others
  queued. -/
  told : ∀ before after, calls = before ++ .subscribe :: after →
    commits (s.answers before) = [] → .leave (s.run before).shelf.feed.next ∉ after →
    heard (s.run before).shelf.feed.next
        (after.zip ((s.run (before ++ [.subscribe])).answers after)) ++
      (s.run calls).shelf.feed.queue (s.run before).shelf.feed.next = commits (s.answers calls)

/-- A store that nobody else writes is the fold of its feed. -/
theorem folded_of_new (hs : s.New) (hc : .reopen ∉ calls) : s.Folded calls where
  returns id h := (hs.running.run hc).fetch_of_returns h
  readable hnow hcalls id := by
    refine (hs.running.run hc).fetch_of_returns fun r hr => ?_
    obtain ⟨hd, ht⟩ := readable_of_run hnow hcalls hc r (View.mem_of_latest hr)
    exact Shelf.returns_of_readable _ hd ht
  told before after hcalls hnone hstay := by
    subst hcalls
    rw [List.mem_append, List.mem_cons, not_or, not_or] at hc
    have hjoins : .reopen ∉ before ++ [.subscribe] := by simpa using hc.1
    have hfeed : (s.run (before ++ [.subscribe])).shelf.feed =
        (s.run before).shelf.feed.subscribe.2 := by
      rw [run_append]
      exact Shelf.feed_withFeed _ _
    have hsilent : commits (s.answers (before ++ [.subscribe])) = [] := by
      rw [answers_append, commits_append, hnone]
      rfl
    obtain ⟨hlive, hnil⟩ := (hs.running.run hc.1).sound.subscribed
    have hqueue : (s.run before).shelf.feed.subscribe.2.queue (s.run before).shelf.feed.next = [] :=
      hnil
    have hheard := heard_run (hs.running.run hjoins) (hfeed ▸ hlive) hc.2.2 hstay
    rw [List.append_cons before _ after, run_append s _ after, answers_append s _ after,
      commits_append, hsilent, hheard, hfeed, hqueue]

def emptyDirectory (D : Type) : Session D where
  files := ⟨[(["records"], .directory)]⟩
  shelf := .directory ⟨"records", {}⟩
  now := ⟨0, 0⟩
  mint := fun n => ⟨toString n⟩

theorem new_emptyDirectory (D : Type) [Document D] : (emptyDirectory D).New :=
  ⟨Shelf.empty_records, rfl, rfl⟩

open Lifecycle in
def draft : Item State := ⟨{ id := "library", data := Race.libraryData }, .draft, some "create"⟩

/-- Somebody follows the store from here on. -/
def callsBefore : List (Call (Item Lifecycle.State)) := [.fetch "library"]

/-- Drafts are stored; a stale save and an ill-named one are refused. -/
def callsAfter : List (Call (Item Lifecycle.State)) :=
  [.save "library" draft none, .save "hall" draft (some ⟨"0"⟩), .receive 0, .save "no/id" draft none,
    .save "hall" draft none]

open Lifecycle in
theorem folded_of_new_drafts :
    let s := emptyDirectory (Item State)
    let calls := callsBefore ++ .subscribe :: callsAfter
    let library : Versioned (Item State) := ⟨"library", draft, ⟨"0"⟩, ⟨0, 0⟩⟩
    let hall : Versioned (Item State) := ⟨"hall", draft, ⟨"1"⟩, ⟨0, 0⟩⟩
    s.New ∧ .reopen ∉ calls ∧
      (s.run calls).shelf.fetch (s.run calls).files "library" = .ok (some library) ∧
      heard 0 (callsAfter.zip ((s.run (callsBefore ++ [.subscribe])).answers callsAfter)) ++
        (s.run calls).shelf.feed.queue 0 = [library, hall] := by
  intro s calls library hall
  have hopen : .reopen ∉ calls := by simp [calls, callsBefore, callsAfter]
  have hevents : commits (s.answers calls) = [library, hall] := by decide +kernel
  have hf : s.Folded calls := folded_of_new (new_emptyDirectory _) hopen
  refine ⟨new_emptyDirectory _, hopen, ?_, ?_⟩
  · have hservice : Service.Fits { id := "library", data := Race.libraryData } :=
      ⟨⟨by simp [Race.libraryData], by decide⟩, by simp⟩
    have hnow : (⟨0, 0⟩ : Instant).Valid := by decide
    have hcalls : ∀ c ∈ calls, c.Readable := by
      simp only [calls, callsBefore, callsAfter, List.cons_append, List.nil_append,
        List.forall_mem_cons]
      exact ⟨trivial, trivial, Item.readable hservice, Item.readable hservice, trivial,
        Item.readable hservice, Item.readable hservice, by simp⟩
    rw [hf.readable hnow hcalls, hevents]
    rfl
  · have hstay : .leave 0 ∉ callsAfter := by simp [callsAfter]
    exact (hf.told callsBefore callsAfter rfl rfl hstay).trans hevents

/-- An id that cannot be one is refused although there is no event for it. -/
theorem fetch_ne_latest :
    let s := emptyDirectory Json
    s.New ∧ s.shelf.fetch s.files "a/b" ≠ .ok (View.latest (commits (s.answers [])) "a/b") := by
  intro s
  have hrefused : s.shelf.fetch s.files "a/b" = .error (.invalidId "a/b") := rfl
  exact ⟨new_emptyDirectory _, by rw [hrefused]; nofun⟩

end Session
end ServiceCatalog
