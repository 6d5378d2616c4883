import ServiceCatalog.Proofs.App.Independence
import ServiceCatalog.Proofs.App.Spawned

/-!
Consumers of the feeds never act back on the application. Subscriptions come and go, are drained, or are
followed by tasks, between requests and in the middle of them, and every request is answered as without
them, whatever the sink does.
-/
namespace ServiceCatalog

namespace World

variable {w w' w'' : World} {m : MachineName}

/-- The directories of the stores are there, and the log, if the sink is one, is none of their
records. -/
def LogAside (w : World) : Prop :=
  ∀ path, w.sink = .log path → ∀ m d, w.shelf m = .directory d →
    ∃ home, Directory.Reaches w.files d home ∧ ∀ id, isValidId id = true →
      w.files.resolve (.ofText path) ≠ .ok (home ++ [Directory.recordName id])

theorem logAside_of_noLog (h : ∀ path, w.sink ≠ .log path) : w.LogAside :=
  fun path hs => absurd hs (h path)

/-- A store on disk whose path has not changed was on disk before, and its directory is still there. -/
theorem exists_directory_of_path {places : Set Place} {d' : Directory (Item m.State)}
    (hpath : (w'.shelf m).path? = (w.shelf m).path?) (hfiles : w.files.ChangesFiles places w'.files)
    (hd' : w'.shelf m = .directory d') :
    ∃ d, w.shelf m = .directory d ∧
      ∀ home, Directory.Reaches w.files d home → Directory.Reaches w'.files d' home := by
  rw [hd'] at hpath
  cases hd : w.shelf m with
  | memory s =>
    rw [hd] at hpath
    cases hpath
  | directory d =>
    rw [hd] at hpath
    have hsame : d'.path = d.path := Option.some.inj hpath
    refine ⟨d, rfl, fun home hreaches => ?_⟩
    have hreached := hreaches.mono hfiles.directoriesStay
    exact ⟨hsame ▸ hreached.walk, hreached.isDirectory, hsame ▸ hreached.noNul⟩

theorem LogAside.congr (h : w.LogAside) {places : Set Place}
    (hsink : ∀ path, w'.sink = .log path → w.sink = .log path)
    (hpath : ∀ m, (w'.shelf m).path? = (w.shelf m).path?)
    (hfiles : w.files.ChangesFiles places w'.files) : w'.LogAside := by
  intro path hs m d' hd'
  obtain ⟨d, hd, hreach⟩ := exists_directory_of_path (hpath m) hfiles hd'
  obtain ⟨home, hreaches, hne⟩ := h path (hsink path hs) m d hd
  refine ⟨home, hreach home hreaches, fun id hid => ?_⟩
  rw [ne_eq, hfiles.resolve_eq_ok_iff]
  exact hne id hid

/-- To the requests that follow nothing has happened. -/
structure Quiet (w w' : World) : Prop where
  slot : ∀ m id, w'.slot m id = w.slot m id
  path : ∀ m, (w'.shelf m).path? = (w.shelf m).path?
  clock : w'.now = w.now ∧ w'.mint = w.mint ∧ w'.lockFree = w.lockFree
  topics : w'.topicList = w.topicList ∧ w'.topicCache = w.topicCache
  aside : w'.LogAside

theorem LogAside.quiet (h : w.LogAside) : w.Quiet w :=
  ⟨fun _ _ => rfl, fun _ => rfl, ⟨rfl, rfl, rfl⟩, ⟨rfl, rfl⟩, h⟩

theorem Quiet.trans (h : w.Quiet w') (h' : w'.Quiet w'') : w.Quiet w'' where
  slot m id := (h'.slot m id).trans (h.slot m id)
  path m := (h'.path m).trans (h.path m)
  clock := by
    rw [h'.clock.1, h'.clock.2.1, h'.clock.2.2]
    exact h.clock
  topics := by
    rw [h'.topics.1, h'.topics.2]
    exact h.topics
  aside := h'.aside

/-- A change of the sink that leaves the files alone. -/
theorem LogAside.withSink (h : w.LogAside) {sink : SinkState}
    (hsink : ∀ path, sink = .log path → w.sink = .log path) : w.Quiet { w with sink := sink } :=
  ⟨fun m id => by cases m <;> rfl, fun m => by cases m <;> rfl, ⟨rfl, rfl, rfl⟩, ⟨rfl, rfl⟩,
    h.congr hsink (fun m => by cases m <;> rfl) (.refl ∅ w.files)⟩

/-- Another feed for one of the machines. -/
theorem LogAside.withFeed (h : w.LogAside) (m : MachineName) (f : Feed (Item m.State)) :
    w.Quiet (w.withFeed m f) := by
  have hfiles : (w.withFeed m f).files = w.files := by cases m <;> rfl
  have hparts : ∀ n, ((w.withFeed m f).shelf n).path? = (w.shelf n).path? ∧
      ∀ id, (w.withFeed m f).slot n id = w.slot n id := by
    intro n
    unfold World.slot
    by_cases hn : n = m
    · subst hn
      rw [shelf_withFeed, hfiles]
      exact ⟨Shelf.path?_withFeed _ f, fun id => Shelf.slot_withFeed f⟩
    · rw [shelf_withFeed_of_ne w m f hn, hfiles]
      exact ⟨rfl, fun _ => rfl⟩
  refine ⟨fun n => (hparts n).2, fun n => (hparts n).1, ?_, ?_, ?_⟩
  · cases m <;> exact ⟨rfl, rfl, rfl⟩
  · cases m <;> exact ⟨rfl, rfl⟩
  · have hc : w.files.ChangesFiles ∅ (w.withFeed m f).files := by
      rw [hfiles]
      exact .refl ∅ w.files
    refine h.congr (fun path hs => ?_) (fun n => (hparts n).1) hc
    cases m <;> exact hs

/-- The log grows. -/
theorem LogAside.withFiles (h : w.LogAside) {path : String} (hs : w.sink = .log path) {q : Place}
    {files : FileTree} (hq : w.files.resolve (.ofText path) = .ok q)
    (hc : w.files.ChangesFiles {q} files) : w.Quiet { w with files := files } := by
  refine ⟨fun m id => ?_, fun m => by cases m <;> rfl, ⟨rfl, rfl, rfl⟩, ⟨rfl, rfl⟩,
    h.congr (fun _ hs => hs) (fun m => by cases m <;> rfl) hc⟩
  have hshelf : World.shelf { w with files := files } m = w.shelf m := by cases m <;> rfl
  unfold World.slot Shelf.slot
  rw [hshelf]
  cases hid : isValidId id with
  | false => rfl
  | true =>
    cases hd : w.shelf m with
    | memory s => rfl
    | directory d =>
      obtain ⟨home, hreaches, hne⟩ := h path hs m d hd
      refine congrArg Shelf.Slot.directory (hreaches.slot_congr hc hid ?_)
      rintro rfl
      exact hne id hid hq

/-- Whatever the sink does with an item. -/
theorem LogAside.publish (h : w.LogAside) (item : WorkItem) :
    w.Quiet (World.publish item w).2 := by
  unfold World.publish
  split
  · exact h.withSink (by simp)
  · split
    · exact h.withSink (by simp)
    · exact h.withSink (by simp)
  · next path hs =>
    split
    · next files hp =>
      obtain ⟨q, hq, hc⟩ := FileTree.changes_of_append hp
      exact h.withFiles hs hq hc
    · exact h.quiet

section Pipelines

variable {S : Type} [Named S] (watcher : Watcher S)

theorem LogAside.process (h : w.LogAside) (c : Versioned (Item S)) :
    w.Quiet (Pipeline.process itemSink watcher c w).2 := by
  by_cases hc : watcher.handle c = .noAction
  · rw [Pipeline.process_of_noAction hc]
    exact h.quiet
  · rw [Pipeline.process_of_ne hc]
    exact h.publish _

theorem LogAside.processAll (h : w.LogAside) (cs : List (Versioned (Item S))) :
    w.Quiet (Pipeline.processAll itemSink watcher cs w).2 := by
  induction cs generalizing w with
  | nil => exact h.quiet
  | cons c cs ih =>
    have hc := h.process watcher c
    rw [Pipeline.processAll_cons]
    exact hc.trans (ih hc.aside)

end Pipelines

theorem LogAside.follow (h : w.LogAside) (m : MachineName) (n : Nat) (watcher : Watcher m.State) :
    w.Quiet (World.follow m n watcher w).2 := by
  have htake := h.withFeed m ((w.shelf m).feed.receiveAll n).2
  exact htake.trans (htake.aside.processAll watcher _)

theorem LogAside.drain (h : w.LogAside) (s : Subscription) : w.Quiet (World.drain s w).2 := by
  have ha := h.follow .lifecycle s.editorial .editorial
  have hb := ha.aside.follow .publication s.publicDetail .publicDetail
  have hc := hb.aside.follow .publication s.archive .archive
  exact ha.trans (hb.trans hc)

theorem LogAside.subscribe (h : w.LogAside) : w.Quiet w.subscribe.2 := by
  have ha := h.withFeed .lifecycle w.lifecycle.feed.subscribe.2
  exact ha.trans (ha.aside.withFeed .publication _)

theorem LogAside.unsubscribe (h : w.LogAside) (s : Subscription) : w.Quiet (w.unsubscribe s) := by
  have ha := h.withFeed .lifecycle (w.lifecycle.feed.leave s.editorial)
  exact ha.trans (ha.aside.withFeed .publication _)

end World

/-- One task takes a commit, puts it to the sink, or counts what came of it. -/
theorem Spawned.quiet_move {s : Spawned} (h : s.world.LogAside) (t : World.Turn) :
    s.world.Quiet (s.move t).world := by
  have hmoved := s.moved_move t
  generalize s.move t = s' at hmoved
  cases hmoved with
  | finds hp hq ho => exact h.quiet
  | stops hp hq ho => exact h.quiet
  | takes hp hq => exact h.withFeed t.machine _
  | puts hp => exact h.process t.watcher _
  | counts hp => exact h.quiet
  | rests hp => exact h.quiet

/-- Tasks that follow the feeds. -/
structure Crew where
  subscription : World.Subscription
  reports : World.Reports := {}
  phase : (t : World.Turn) → Phase t := fun _ => .idle

def Crew.within (c : Crew) (w : World) : Spawned := ⟨w, c.subscription, c.reports, c.phase⟩

/-- The application with all who listen to it. -/
structure Attended where
  world : World
  subscriptions : List World.Subscription := []
  crews : List Crew := []

/-- What can happen among the consumers. Subscriptions and crews are named by their positions. -/
inductive Consumer where
  | subscribe
  | drain (k : Nat)
  /-- A subscription is dropped. -/
  | leave (k : Nat)
  /-- Pipelines are started as tasks. -/
  | spawn
  /-- One task of a crew makes a move. -/
  | move (k : Nat) (t : World.Turn)

namespace Attended

def step (a : Attended) : Consumer → Attended
  | .subscribe =>
    let (s, w) := a.world.subscribe
    { a with world := w, subscriptions := a.subscriptions ++ [s] }
  | .drain k =>
    match a.subscriptions[k]? with
    | some s => { a with world := (World.drain s a.world).2 }
    | none => a
  | .leave k =>
    match a.subscriptions[k]? with
    | some s =>
      { a with world := a.world.unsubscribe s, subscriptions := a.subscriptions.eraseIdx k }
    | none => a
  | .spawn =>
    let (s, w) := a.world.subscribe
    { a with world := w, crews := a.crews ++ [{ subscription := s }] }
  | .move k t =>
    match a.crews[k]? with
    | some c =>
      let s := (c.within a.world).move t
      { a with world := s.world, crews := a.crews.set k ⟨s.subscription, s.reports, s.phase⟩ }
    | none => a

def run (steps : List Consumer) (a : Attended) : Attended := steps.foldl step a

theorem quiet_step {a : Attended} (h : a.world.LogAside) (c : Consumer) :
    a.world.Quiet (a.step c).world := by
  cases c with
  | subscribe => exact h.subscribe
  | spawn => exact h.subscribe
  | drain k =>
    unfold step
    dsimp only
    split
    · exact h.drain _
    · exact h.quiet
  | leave k =>
    unfold step
    dsimp only
    split
    · exact h.unsubscribe _
    · exact h.quiet
  | move k t =>
    unfold step
    dsimp only
    split
    · exact Spawned.quiet_move (s := Crew.within _ a.world) h t
    · exact h.quiet

theorem quiet_run {a : Attended} (h : a.world.LogAside) (steps : List Consumer) :
    a.world.Quiet (a.run steps).world := by
  induction steps generalizing a with
  | nil => exact h.quiet
  | cons c steps ih =>
    have hc := quiet_step h c
    exact hc.trans (ih hc.aside)

/-- Something that does not see the consumers. -/
def onWorld {α : Type} (f : StateM World α) : StateM Attended α := fun a =>
  let (r, w) := f a.world
  (r, { a with world := w })

end Attended

/-- A request with what consumers do before it comes, before it reads and before it saves. -/
structure Visit where
  stamped : Stamped
  before : List Consumer := []
  atRead : List Consumer := []
  atSave : List Consumer := []

namespace Visit

def store (v : Visit) (m : MachineName) : Backend Attended (Item m.State) where
  fetch id := do
    modify (Attended.run v.atRead)
    Attended.onWorld (((Circumstances.alone v.stamped.request.faults).store m).fetch id)
  save id item expected := do
    modify (Attended.run v.atSave)
    Attended.onWorld
      (((Circumstances.alone v.stamped.request.faults).store m).save id item expected)

def controller (limits : Timeouts) (v : Visit) : Controller Attended where
  lifecycle := v.store .lifecycle
  publication := v.store .publication
  topics := Attended.onWorld World.topics
  limits := limits

def handle (limits : Timeouts) (v : Visit) : StateM Attended Response := fun a =>
  let ready := a.run v.before
  v.stamped.request.ask.send (v.controller limits)
    { ready with world := v.stamped.arrive ready.world }

def answers (limits : Timeouts) : List Visit → Attended → List (Stamped × Response)
  | [], _ => []
  | v :: vs, a => (v.stamped, (v.handle limits a).1) :: answers limits vs (v.handle limits a).2

def after (limits : Timeouts) : List Visit → Attended → Attended
  | [], a => a
  | v :: vs, a => after limits vs (v.handle limits a).2

end Visit

namespace World

variable {w w' v : World} {m : MachineName} {id : String}

/-- Two states in the middle of a request that are the same to it; in the first there may be
consumers. -/
structure SameTo (w v : World) : Prop where
  agree : Agree (fun _ _ => True) w v
  moment : w.SameMoment v
  aside : w.LogAside

theorem Wired.quiet (h : w.Wired) (hq : w.Quiet w') : w'.Wired where
  beside m n hn := (h.beside m n hn).congr (hq.path m) (hq.path n)
  loaded := by
    rw [hq.topics.1, hq.topics.2]
    exact h.loaded

theorem Agree.quiet {I : MachineName → String → Prop} (h : Agree I w v) (hq : w.Quiet w') :
    Agree I w' v where
  left := h.left.quiet hq
  right := h.right
  slot m id hi := (h.slot m id hi).trans (hq.slot m id).symm
  list := h.list.trans hq.topics.1.symm

theorem SameTo.quiet (h : w.SameTo v) (hq : w.Quiet w') : w'.SameTo v where
  agree := h.agree.quiet hq
  moment := by
    obtain ⟨hnow, hmint, hlock⟩ := hq.clock
    exact ⟨h.moment.now.trans hnow.symm, h.moment.lockFree.trans hlock.symm, hmint ▸ h.moment.mint⟩
  aside := hq.aside

theorem mirrors_store_sameTo (m : MachineName) (id : String) :
    (store m).Mirrors (fun t => t) SameTo (fun _ => True) id (store m) := by
  refine Backend.mirrors_of_same (fun w v h => ⟨?_, h⟩) fun w v h item expected => ?_
  · exact congrArg Reply.answer (h.agree.fetch trivial)
  · have hid : (fun _ _ => True : MachineName → String → Prop) m id := trivial
    obtain ⟨hanswer, hagree, hmoment⟩ := h.agree.save h.moment hid item expected
    obtain ⟨answer, w', hw, hsaved⟩ := h.agree.left.saved m id item expected
    obtain ⟨places, hfiles⟩ := hsaved.files
    refine ⟨hanswer, hagree, hmoment, ?_⟩
    rw [hw]
    exact h.aside.congr (fun path hs => hsaved.sink ▸ hs) hsaved.path hfiles

theorem SameTo.topics (h : w.SameTo v) : (World.topics v).1 = (World.topics w).1 ∧
    SameTo (World.topics w).2 (World.topics v).2 := by
  obtain ⟨hload, hagree⟩ := h.agree.topics
  refine ⟨hload, hagree, h.moment.topics h.agree.left h.agree.right, ?_⟩
  obtain ⟨cache, htopics, -⟩ := h.agree.left.topics_eq
  rw [htopics]
  exact h.aside.congr (fun _ hs => hs) (fun m => by cases m <;> rfl) (.refl ∅ w.files)

end World

namespace Visit

variable {a : Attended} {w : World} {limits : Timeouts}

/-- The consumers are not seen in any answer of the stores. -/
theorem mirrors_controller (limits : Timeouts) (v : Visit) :
    (v.controller limits).Mirrors (fun t => t) (fun a w => a.world.SameTo w) (fun _ _ => True)
      (fun _ _ => True)
      ((Circumstances.alone v.stamped.request.faults).controller limits) where
  store m id _ := by
    have hplain : ((Circumstances.alone v.stamped.request.faults).store m).Mirrors (fun t => t)
        World.SameTo (fun _ => True) id ((Circumstances.alone v.stamped.request.faults).store m) :=
      Circumstances.mirrors_store_alone _ (World.mirrors_store_sameTo m id)
    have hstore : (v.store m).Mirrors (fun t => t) (fun a w => a.world.SameTo w) (fun _ => True) id
        ((Circumstances.alone v.stamped.request.faults).store m) := by
      refine ⟨fun a w h => ?_, fun _ _ _ _ _ => trivial, fun a w h item expected hp => ?_⟩
      · exact hplain.fetch _ w (h.quiet (Attended.quiet_run h.aside v.atRead))
      · exact hplain.save _ w (h.quiet (Attended.quiet_run h.aside v.atSave)) item expected hp
    cases m <;> exact hstore
  topics a w h := h.topics
  limits := rfl
  lifecycle a _ := Machine.keeps_true _ a
  publication a _ := Machine.keeps_true _ a

theorem handle_eq (limits : Timeouts) (v : Visit) (h : World.Agree (fun _ _ => True) a.world w)
    (haside : a.world.LogAside) :
    (v.handle limits a).1 = (v.stamped.handle limits w).1 ∧
      World.Agree (fun _ _ => True) (v.handle limits a).2.world (v.stamped.handle limits w).2 ∧
      (v.handle limits a).2.world.LogAside := by
  have hquiet := Attended.quiet_run haside v.before
  obtain ⟨hagree, hmoment⟩ := Stamped.agree_arrive (h.quiet hquiet) v.stamped
  have harrived : (v.stamped.arrive (a.run v.before).world).LogAside :=
    hquiet.aside.congr (fun _ hs => hs) (fun m => by cases m <;> rfl) (.refl ∅ _)
  have hwithin : v.stamped.request.ask.Within fun _ _ => True := by
    cases v.stamped.request.ask <;> trivial
  obtain ⟨hresponse, hafter⟩ := (mirrors_controller limits v).send hwithin
    (s := { a.run v.before with world := v.stamped.arrive (a.run v.before).world })
    ⟨hagree, hmoment, harrived⟩
  exact ⟨hresponse.eq.symm, hafter.agree, hafter.aside⟩

theorem agree_after (h : World.Agree (fun _ _ => True) a.world w) (haside : a.world.LogAside)
    (limits : Timeouts) (vs : List Visit) :
    answers limits vs a = Stamped.answers limits (vs.map (·.stamped)) w ∧
      World.Agree (fun _ _ => True) (after limits vs a).world
        (Stamped.after limits (vs.map (·.stamped)) w) ∧ (after limits vs a).world.LogAside := by
  induction vs generalizing a w with
  | nil => exact ⟨rfl, h, haside⟩
  | cons v vs ih =>
    obtain ⟨hresponse, hagree, haside⟩ := handle_eq limits v h haside
    obtain ⟨hrest, hafter⟩ := ih hagree haside
    refine ⟨?_, hafter⟩
    rw [List.map_cons, answers, Stamped.answers, hresponse, hrest]

/-- Whatever consumers do, and whatever comes of it at the sink, every request is answered as without
them, and afterwards the records are the same. -/
theorem answers_eq_without_consumers (hw : w.Wired) (haside : w.LogAside) (limits : Timeouts)
    (vs : List Visit) (rest : List Consumer) :
    let attended := ((after limits vs { world := w }).run rest).world
    let plain := Stamped.after limits (vs.map (·.stamped)) w
    answers limits vs { world := w } = Stamped.answers limits (vs.map (·.stamped)) w ∧
      ∀ m id, (attended.shelf m).fetch attended.files id = (plain.shelf m).fetch plain.files id := by
  obtain ⟨hanswers, hagree, haside'⟩ := agree_after (a := { world := w }) (.refl hw) haside limits vs
  refine ⟨hanswers, fun m id => ?_⟩
  exact ((hagree.quiet (Attended.quiet_run haside' rest)).fetch trivial).symm

open Race in
/-- A crew and a subscription follow two requests; the crew is at work while the second is saved. -/
def attendedVisits : List Visit :=
  [ { stamped := .early 0 (.act .lifecycle "create" "library" libraryData.toJson) "created",
      before := [.subscribe, .spawn] },
    { stamped := .early 1 (.act .lifecycle "submit" "library" .null) "submitted",
      before := [.move 0 .editorial],
      atRead := [.move 0 .editorial],
      atSave := [.drain 0, .move 0 .editorial, .leave 0] },
    { stamped := .early 2 (.lookUp .lifecycle "library") "unused" } ]

/-- One item is taken and one stalls, and none of this shows in the answers. -/
theorem answers_eq_without_consumers_attendedVisits :
    let attended := ((after {} attendedVisits { world := World.stalling }).run [.leave 0]).world
    attended.keptItems.length = 1 ∧
      (answers {} attendedVisits { world := World.stalling }).map (·.2.status) = [200, 204, 200] ∧
      answers {} attendedVisits { world := World.stalling } =
        Stamped.answers {} (attendedVisits.map (·.stamped)) World.stalling := by
  have hstalling : World.openAll { store := { storage := .memory } } ⟨0, 0⟩
      (fun n => ⟨toString n⟩) World.stalling.sink {} =
        (.ok World.stalling, World.stalling.files) := rfl
  have haside : World.stalling.LogAside := World.logAside_of_noLog (by simp [World.stalling])
  have h := answers_eq_without_consumers (World.wired_of_openAll (by decide) hstalling) haside {}
    attendedVisits [.leave 0]
  exact ⟨by decide +kernel, by decide +kernel, h.1⟩

end Visit
end ServiceCatalog
