import ServiceCatalog.CommandLine.Run
import ServiceCatalog.Proofs.App.Timestamps
import ServiceCatalog.Proofs.Watch.ItemLog

/-!
Processes, one for each request, are like one application that goes on running in memory and follows up
each request at once. All that passes from one process to the next is in the files.
-/
namespace ServiceCatalog.CommandLine

/-- What a command asks of the application, with the payload as it is read from the files. A replay asks
nothing, nor does an action without a payload that can be read. -/
def Command.ask? (files : FileTree) : Command → Option Ask
  | .apply machine action id payload file =>
    match readPayload files payload file with
    | .ok payload => some (.act machine action id payload)
    | .error _ => none
  | .lookUp machine id => some (.lookUp machine id)
  | .topics => some .listTopics
  | .replay _ _ | .initConfig _ _ => none

/-- One run of the program, at a time and in an environment, with the token that its commit would be
given by an application that goes on running. -/
structure Process where
  invocation : Invocation
  environment : Environment := []
  now : Instant
  valid : now.Valid
  token : Token

namespace Process

variable (ρ : Token → Token)

/-- The process gives the token another name. -/
def surroundings (p : Process) (files : FileTree) : Surroundings where
  files; environment := p.environment; now := p.now; mint _ := ρ p.token

def run (p : Process) (files : FileTree) : Result :=
  CommandLine.run (p.surroundings ρ files) p.invocation

def stamp (p : Process) (ask : Ask) : Stamped := ⟨{ ask, now := p.now, valid := p.valid }, p.token⟩

/-- The same request to the application. -/
def request? (p : Process) (files : FileTree) : Option Stamped :=
  (p.invocation.command.ask? files).map p.stamp

/-- The files after some processes. -/
def filesAfter : List Process → FileTree → FileTree
  | [], files => files
  | p :: ps, files => filesAfter ps (p.run ρ files).files

/-- The requests that some processes make. -/
def requests : List Process → FileTree → List Stamped
  | [], _ => []
  | p :: ps, files => (p.request? files).toList ++ requests ps (p.run ρ files).files

/-- Each process finds these settings, and none writes a file of settings. -/
def Configured (s : Settings) : List Process → FileTree → Prop
  | [], _ => True
  | p :: ps, files =>
    (prepare (p.surroundings ρ files) p.invocation.settingsFile = .ok s ∧
        ∀ path force, p.invocation.command ≠ .initConfig path force) ∧
      Configured s ps (p.run ρ files).files

end Process

theorem filterMap_noteOf_accepted (ρ : Token → Token) (id : String) (items : List WorkItem) :
    (accepted (items.map (·.rename ρ))).filterMap (noteOf id) =
      (accepted items).filterMap (noteOf id) := by
  simp only [accepted, List.map_map, List.filterMap_map]
  refine List.filterMap_congr fun item _ => ?_
  by_cases hitem : item = .noAction
  · simp [hitem, WorkItem.rename]
  · simp [hitem, noteOf]

/-- A process says what a response says: the body is its output, and it fails unless the status is a
success. -/
structure Reports (result : Result) (r : Response) : Prop where
  silent : r.body = none → result.output = ""
  printed : ∀ j, r.body = some j → result.output = j.sorted.toPrettyText ++ "\n"
  /-- The body is got back from the output, if its numbers fit their words. -/
  decoded : ∀ j, r.body = some j → Json.Within Json.maxDepth j →
    Json.ofText? result.output = some j.sorted
  failure : result.failure =
    if 200 ≤ r.status ∧ r.status < 300 then none else some (.status r.status)

theorem reports_report {r : Response} {result : Result} (houtput : result.output = (report r).1)
    (hfailure : result.failure = (report r).2) : Reports result r := by
  have hprinted : ∀ j, r.body = some j → result.output = j.sorted.toPrettyText ++ "\n" := by
    intro j hj
    rw [houtput, report, hj]
    rfl
  refine ⟨fun hbody => ?_, hprinted, fun j hj hw => ?_, ?_⟩
  · rw [houtput, report, hbody]
    rfl
  · rw [hprinted j hj]
    exact Json.ofText?_toPrettyText hw.sorted.exact hw.sorted.height (.cons (by decide)) (by decide)
  · rw [hfailure, report]
    simp [Response.isSuccess]

section Run

variable {u : Surroundings} {s : Settings} {w : World} {logged opened : FileTree}

theorem query_of_openAll (h : World.openAll s u.now u.mint (.memory {}) u.files = (.ok w, opened))
    (request : Controller World → StateM World Response) : query u s request =
      { output := (report (request (World.controller s.timeouts) w).1).1,
        failure := (report (request (World.controller s.timeouts) w).1).2,
        files := (request (World.controller s.timeouts) w).2.files } := by
  unfold query
  rw [h]
  rfl

theorem apply_of_openAll (hl : ItemLog.openAt u.files s.sink.path = .ok logged)
    (h : World.openAll s u.now u.mint (.log s.sink.path) logged = (.ok w, opened))
    (m : MachineName) (action id : String) (payload : Json) {response : Response}
    {outcomes : List Outcome} {v v' : World}
    (hr : (World.controller s.timeouts).dispatch m action id payload w.subscribe.2 = (response, v))
    (hd : World.drain w.subscribe.1 v = (outcomes, v')) : apply u s m action id payload =
      { output := (report response).1, notes := outcomes.filterMap (noteOf id),
        failure := (report response).2, files := v'.files } := by
  unfold apply
  rw [hl]
  dsimp only
  rw [h]
  dsimp only
  rw [hr]
  dsimp only
  rw [hd]

end Run

/-- A process does what the application does at a request: its response has the same status and, with
other tokens, the same body, it notes the same outcomes, and if the request only reads it leaves every
file as it was. -/
structure Follows (ρ : Token → Token) (s : Settings) (sub : World.Subscription) (app : World)
    (files : FileTree) (p : Process) : Prop where
  response : ∀ q ∈ p.request? files, ∃ r,
    Response.Renamed ρ (q.serve s.timeouts sub app).1.1 r ∧
      r.status = (q.serve s.timeouts sub app).1.1.status ∧ Reports (p.run ρ files) r ∧
      (p.run ρ files).notes =
        (q.serve s.timeouts sub app).1.2.filterMap (noteOf q.request.ask.subject)
  reads : (∀ q ∈ p.request? files, q.request.ask.IsRead) → ∀ place contents,
    (p.run ρ files).files.get? place = some (.file contents) ↔
      files.get? place = some (.file contents)

/-- One process after the other, while the application goes on. -/
def AllFollow (ρ : Token → Token) (s : Settings) (sub : World.Subscription) :
    List Process → World → FileTree → Prop
  | [], _, _ => True
  | p :: ps, app, files => Follows ρ s sub app files p ∧
      AllFollow ρ s sub ps (Stamped.served s.timeouts sub (p.request? files).toList app)
        (p.run ρ files).files

/-- Between two processes: the application has followed up everything, its store in memory is that on
disk, and the log has the items that its sink has taken. On disk some directories and the log may still
be missing. -/
structure Rests (ρ : Token → Token) (s : Settings) (home : MachineName → Place) (log : Place)
    (sub : World.Subscription) (items : List WorkItem) (app : World) (grown files : FileTree) :
    Prop where
  sound : app.Sound
  wired : app.Wired
  list : app.topicList = s.topics.list
  awaits : sub.Awaits app [] []
  sink : app.sink = .memory { items := items }
  site : World.Site s home log grown
  grows : files.Grows {log} grown
  fits : ∀ item ∈ items, item.Fits
  text : grown.get? log = some (.file (.text (ItemLog.lines ρ items)))
  written : items = [] ∨ files.read (.ofText s.sink.path) = .ok (.text (ItemLog.lines ρ items))
  slot : ∀ m id,
    (app.slot m id).Matches ρ id ((Shelf.directory (World.directory s m)).slot grown id)

namespace Rests

variable {ρ : Token → Token} {s : Settings} {ttl : Span} {home : MachineName → Place} {log : Place}
  {sub : World.Subscription} {items : List WorkItem} {app : World} {grown files opened : FileTree}
  {p : Process} {ask : Ask}

/-- A process that has opened its stores is beside the application. -/
theorem parallel (h : Rests ρ s home log sub items app grown files) (p : Process) (ask : Ask)
    (hg : opened.Grows {log} grown)
    (hstands : ∀ m, Directory.Stands opened (World.directory s m) (home m)) {sink : SinkState}
    {w : World} (hq : (World.onDisk s ttl p.now (fun _ => ρ p.token) sink opened).Quiet w)
    (hissued : w.issued = 0) (hfiles : w.files = opened) :
    World.Parallel ρ log w app.issued ((p.stamp ask).arrive app) w where
  sound := (p.stamp ask).sound_arrive h.sound
  left := (Stamped.agree_arrive_left (.refl (I := fun _ _ => True) h.wired) (p.stamp ask)).left
  right := World.wired_onDisk.quiet hq
  slot m id := by
    have hdisk : w.slot m id = (Shelf.directory (World.directory s m)).slot grown id := by
      rw [hq.slot, World.slot_of_path World.path?_onDisk]
      exact h.site.slot_of_grows hg hstands (h.slot m id)
    rw [((p.stamp ask).alike_arrive app).slot, hdisk]
    exact h.slot m id
  list := ⟨h.list.trans hq.topics.1.symm, rfl⟩
  now := hq.clock.1
  mint := ⟨p.token, rfl, hq.clock.2.1⟩
  lockFree m := by rw [hq.clock.2.2]; rfl
  issued := by rw [hissued]; rfl
  spares := (h.site.spares_onDisk hstands).congr hq.path (by rw [hfiles]; exact .refl ∅ _)
  path _ := rfl
  frame := .refl _ _

/-- The request is handled on both sides, and the same commits are to be followed up. -/
theorem handle (hρ : Function.Injective ρ) (h : Rests ρ s home log sub items app grown files)
    {w : World} (hparallel : World.Parallel ρ log w app.issued ((p.stamp ask).arrive app) w)
    (harrive : (p.stamp ask).request.arrive w = w) (hw : w.Sound) :
    Matched ρ (World.Parallel ρ log w app.issued) ((p.stamp ask).handle s.timeouts app)
        (ask.send (World.controller s.timeouts) w) ∧
      ((p.stamp ask).handle s.timeouts app).2.sink = .memory { items := items } ∧
      ∃ cs : (m : MachineName) → List (Versioned (Item m.State)),
        sub.Awaits ((p.stamp ask).handle s.timeouts app).2 (cs .lifecycle) (cs .publication) ∧
        w.Queues (fun m => (cs m).map (·.rename ρ)) (ask.send (World.controller s.timeouts) w).2 ∧
        (∀ m, ∀ r ∈ cs m, r.document.service.Fits ∧ r.modifiedAt.Valid) ∧
        (ask.IsRead → cs = fun _ => []) := by
  have hsend : ask.send (World.controller s.timeouts) w =
      (p.stamp ask).request.handle s.timeouts w := by
    rw [Request.handle, harrive]
    rfl
  obtain ⟨hmatched, hcommits⟩ := hparallel.handle hρ rfl rfl harrive s.timeouts
  have hqueues := Request.queues_handle ((p.stamp ask).sound_arrive h.sound) s.timeouts
    (p.stamp ask).request
  have hqueues' := Request.queues_handle hw s.timeouts (p.stamp ask).request
  rw [funext hcommits] at hqueues'
  have hawaits : sub.Awaits ((p.stamp ask).arrive app) [] [] :=
    ⟨h.awaits.apart, h.awaits.editorial, h.awaits.publicDetail, h.awaits.archive⟩
  rw [hsend, Stamped.handle_eq]
  refine ⟨hmatched, hqueues.sink.trans h.sink, _, hawaits.queues hqueues, hqueues', fun m r hr => ?_,
    fun hread => Request.commits_of_read hread⟩
  obtain ⟨hfits, hnow, -⟩ :=
    Request.fetch_of_mem_commits ((p.stamp ask).sound_arrive h.sound) s.timeouts hr
  exact ⟨hfits, hnow ▸ p.valid⟩

/-- For an action the log is opened, and then the stores. -/
theorem exists_opened (hs : s.store.storage = .filesystem) (httl : s.topicsTtl? = some ttl)
    (h : Rests ρ s home log sub items app grown files) (p : Process) :
    ∃ logged opened, ItemLog.openAt files s.sink.path = .ok logged ∧
      World.openAll s p.now (fun _ => ρ p.token) (.log s.sink.path) logged =
        (.ok (World.onDisk s ttl p.now (fun _ => ρ p.token) (.log s.sink.path) opened), opened) ∧
      World.Site s home log opened ∧ opened.Grows {log} grown ∧
      opened.get? log = some (.file (.text (ItemLog.lines ρ items))) := by
  obtain ⟨logged, hlogged, hgl, hrl, htl⟩ := h.site.openAt h.grows h.text
  obtain ⟨opened, hopen, hnew, hg, hstands⟩ :=
    h.site.openAll hs httl hgl p.now (fun _ => ρ p.token) (.log s.sink.path)
  have hresolve := FileTree.resolve_mono hnew.directoriesStay hrl
  exact ⟨logged, opened, hlogged, hopen, ⟨hstands, h.site.named, hresolve, h.site.aside⟩, hg,
    hnew.file htl⟩

/-- What the process asks has been served, and its items are in the log. -/
def Serves (ρ : Token → Token) (s : Settings) (home : MachineName → Place) (log : Place)
    (sub : World.Subscription) (items : List WorkItem) (app : World) (files : FileTree)
    (p : Process) : Prop :=
  ∃ grown, Rests ρ s home log sub
    (items ++ Stamped.collected s.timeouts sub (p.request? files).toList app)
    (Stamped.served s.timeouts sub (p.request? files).toList app) grown (p.run ρ files).files

/-- A process that asks nothing and writes nothing. -/
theorem serves_none (h : Rests ρ s home log sub items app grown files)
    (hrequest : p.request? files = none) (hfiles : (p.run ρ files).files = files) :
    Follows ρ s sub app files p ∧ Serves ρ s home log sub items app files p := by
  refine ⟨⟨by simp [hrequest], fun _ => by simp [hfiles]⟩, grown, ?_⟩
  rw [hrequest, hfiles]
  simpa [Stamped.collected, Stamped.served] using h

section Step

variable (hρ : Function.Injective ρ) (hs : s.store.storage = .filesystem)
  (httl : s.topicsTtl? = some ttl)

include hρ hs httl

/-- A process that only reads. -/
theorem read (h : Rests ρ s home log sub items app grown files) (p : Process)
    (hask : ask.IsRead) :
    ∃ r opened, query (p.surroundings ρ files) s (fun c => ask.send c) =
        { output := (report r).1, failure := (report r).2, files := opened } ∧
      Response.Renamed ρ ((p.stamp ask).serve s.timeouts sub app).1.1 r ∧
      ((p.stamp ask).serve s.timeouts sub app).1.2 = [] ∧ files.Grows ∅ opened ∧
      Rests ρ s home log sub items ((p.stamp ask).serve s.timeouts sub app).2 grown opened := by
  obtain ⟨opened, hopen, hnew, hg, hstands⟩ :=
    h.site.openAll hs httl h.grows p.now (fun _ => ρ p.token) (.memory {})
  have haside : (World.onDisk s ttl p.now (fun _ => ρ p.token) (.memory {}) opened).LogAside :=
    World.logAside_of_noLog (by simp [World.onDisk])
  have hsound := World.sound_of_openAll hopen p.valid
  have hparallel := h.parallel p ask hg hstands haside.quiet rfl rfl
  obtain ⟨⟨hresponse, hafter⟩, hsink, cs, hawaits, -, -, hread⟩ :=
    h.handle hρ hparallel rfl hsound
  rw [hread hask] at hawaits
  have hserve := Stamped.serve_of_drain (World.drain_of_empty hafter.sound hawaits)
  have hfiles := hask.files s.timeouts
    (World.onDisk s ttl p.now (fun _ => ρ p.token) (.memory {}) opened)
  have hquery := query_of_openAll (u := p.surroundings ρ files) hopen fun c => ask.send c
  rw [hfiles] at hquery
  rw [hserve]
  refine ⟨_, opened, hquery, hresponse, rfl, hnew, hafter.sound, hafter.left, hafter.list.1, hawaits,
    hsink, h.site, hg, h.fits, h.text, h.written.imp_right hnew.read, fun m id => ?_⟩
  have hdisk := World.slot_of_path ((hafter.path m).trans World.path?_onDisk) id
  rw [hfiles] at hdisk
  have hslot := hafter.slot m id
  rw [hdisk] at hslot
  rw [← h.site.slot_of_grows hg hstands (h.slot m id)]
  exact hslot

/-- A process that acts. -/
theorem act (h : Rests ρ s home log sub items app grown files) (p : Process)
    (m : MachineName) (action id : String) (payload : Json) :
    let q := p.stamp (.act m action id payload)
    ∃ r files', apply (p.surroundings ρ files) s m action id payload =
        { output := (report r).1, failure := (report r).2, files := files'
          notes := (q.serve s.timeouts sub app).1.2.filterMap (noteOf id) } ∧
      Response.Renamed ρ (q.serve s.timeouts sub app).1.1 r ∧
      Rests ρ s home log sub (items ++ delivered (q.serve s.timeouts sub app).1.2)
        (q.serve s.timeouts sub app).2 files' files' := by
  intro q
  obtain ⟨logged, opened, hlogged, hopen, hsite, hg, htext⟩ := h.exists_opened hs httl p
  set start := World.onDisk s ttl p.now (fun _ => ρ p.token) (.log s.sink.path) opened
  have haside : start.LogAside := (hsite.spares_onDisk hsite.stands).logAside <| by
    rintro path ⟨⟩
    exact hsite.resolve
  obtain ⟨hsound, hsink, hempty⟩ := World.subscribe_spec (World.sound_of_openAll hopen p.valid)
  have hparallel := h.parallel p (.act m action id payload) hg hsite.stands haside.subscribe rfl rfl
  obtain ⟨⟨hresponse, hafter⟩, hmemory, cs, hawaits, hqueues, hcommits, -⟩ :=
    h.handle hρ hparallel rfl hsound
  rcases hsend : (Ask.act m action id payload).send (World.controller s.timeouts)
    start.subscribe.2 with ⟨r, v⟩
  rw [hsend] at hresponse hafter hqueues
  have hsite' := hsite.mono hafter.frame.directoriesStay
  have hplace := hafter.frame.get?_of_notMem (p := log) (by simp)
  obtain ⟨app', v', hdrain, hdrained, hdone⟩ := hafter.drain hawaits hmemory hqueues.sound
    (hempty.queues hqueues) (hqueues.sink.trans hsink) hsite'.named hsite'.resolve
    (hplace.trans htext)
  have hserve : q.serve s.timeouts sub app = _ := Stamped.serve_of_drain hdrain
  have happly := apply_of_openAll (u := p.surroundings ρ files) hlogged hopen m action id payload
    hsend hdrained
  rw [filterMap_noteOf_accepted] at happly
  have hsite'' := hsite.mono hdone.directories
  rw [hserve, delivered_accepted]
  refine ⟨r, v'.files, happly, hresponse, hdone.sound, hdone.wired, hdone.list, hdone.awaits,
    hdone.sink, hsite'', .refl _ _, fun item hitem => ?_, hdone.text,
    .inr (hsite''.read hdone.text), fun m id => ?_⟩
  · rcases List.mem_append.mp hitem with hitem | hitem
    · exact h.fits item hitem
    · exact World.fits_of_mem_workOf (hcommits .lifecycle) (hcommits .publication)
        (List.mem_filter.mp hitem).1
  have hslot := hdone.slot m id
  have hpath := (haside.subscribe.path m).trans World.path?_onDisk
  rw [World.slot_of_path ((hdone.path m).trans hpath)] at hslot
  exact hslot

theorem serves_read (h : Rests ρ s home log sub items app grown files)
    (hask : ask.IsRead) (hrequest : p.request? files = some (p.stamp ask))
    (hrun : p.run ρ files = query (p.surroundings ρ files) s fun c => ask.send c) :
    Follows ρ s sub app files p ∧ Serves ρ s home log sub items app files p := by
  obtain ⟨r, opened, hquery, hresponse, houtcomes, hnew, hrests⟩ := h.read hρ hs httl p hask
  rw [hquery] at hrun
  refine ⟨⟨fun q hq => ?_, fun _ place contents => ?_⟩, grown, ?_⟩
  · rw [hrequest] at hq
    cases hq
    rw [hrun]
    refine ⟨r, hresponse, hresponse.status_eq, reports_report rfl rfl, ?_⟩
    rw [houtcomes]
    rfl
  · rw [hrun]
    exact hnew.file_iff
  · rw [hrequest, hrun]
    simpa [Stamped.collected, Stamped.served, houtcomes, delivered] using hrests

theorem serves_act (h : Rests ρ s home log sub items app grown files)
    {m : MachineName} {action id : String} {payload : Json}
    (hrequest : p.request? files = some (p.stamp (.act m action id payload)))
    (hrun : p.run ρ files = apply (p.surroundings ρ files) s m action id payload) :
    Follows ρ s sub app files p ∧ Serves ρ s home log sub items app files p := by
  obtain ⟨r, files', happly, hresponse, hrests⟩ := h.act hρ hs httl p m action id payload
  rw [happly] at hrun
  refine ⟨⟨fun q hq => ?_, fun hread => ?_⟩, files', ?_⟩
  · rw [hrequest] at hq
    cases hq
    rw [hrun]
    exact ⟨r, hresponse, hresponse.status_eq, reports_report rfl rfl, rfl⟩
  · exact absurd rfl (hread _ hrequest m action id payload)
  · rw [hrequest, hrun]
    simpa [Stamped.collected, Stamped.served] using hrests

/-- Any process. -/
theorem step (h : Rests ρ s home log sub items app grown files)
    (hprepare : prepare (p.surroundings ρ files) p.invocation.settingsFile = .ok s)
    (hcommand : ∀ path force, p.invocation.command ≠ .initConfig path force) :
    Follows ρ s sub app files p ∧ Serves ρ s home log sub items app files p := by
  have hrun : p.run ρ files = runCommand (p.surroundings ρ files) s p.invocation.command := by
    rw [Process.run, CommandLine.run, hprepare]
  have hrequest : p.request? files = (p.invocation.command.ask? files).map p.stamp := rfl
  cases hc : p.invocation.command with
  | apply m action id text file =>
    rw [hc] at hrun hrequest
    unfold runCommand at hrun
    unfold Command.ask? at hrequest
    have hsame : (p.surroundings ρ files).files = files := rfl
    dsimp only at hrun hrequest
    rw [hsame] at hrun
    cases hpayload : readPayload files text file with
    | error e =>
      rw [hpayload] at hrun hrequest
      exact h.serves_none hrequest (congrArg Result.files hrun)
    | ok payload =>
      rw [hpayload] at hrun hrequest
      exact h.serves_act hρ hs httl hrequest hrun
  | lookUp m id =>
    rw [hc] at hrun hrequest
    exact h.serves_read hρ hs httl (by simp [Ask.IsRead]) hrequest hrun
  | topics =>
    rw [hc] at hrun hrequest
    exact h.serves_read hρ hs httl (by simp [Ask.IsRead]) hrequest hrun
  | replay m path =>
    rw [hc] at hrun hrequest
    refine h.serves_none hrequest (hrun ▸ ?_)
    unfold runCommand replayFile
    dsimp only
    split
    · rfl
    · split <;> rfl
  | initConfig path force => exact absurd hc (hcommand path force)

theorem run (h : Rests ρ s home log sub items app grown files)
    {ps : List Process} (hps : Process.Configured ρ s ps files) :
    AllFollow ρ s sub ps app files ∧ ∃ grown', Rests ρ s home log sub
      (items ++ Stamped.collected s.timeouts sub (Process.requests ρ ps files) app)
      (Stamped.served s.timeouts sub (Process.requests ρ ps files) app) grown'
      (Process.filesAfter ρ ps files) := by
  induction ps generalizing items app grown files with
  | nil =>
    refine ⟨trivial, grown, ?_⟩
    simpa [Process.requests, Stamped.collected, Stamped.served, Process.filesAfter] using h
  | cons p ps ih =>
    obtain ⟨⟨hprepare, hcommand⟩, hrest⟩ := hps
    obtain ⟨hfollows, grown', hrests⟩ := h.step hρ hs httl hprepare hcommand
    obtain ⟨hall, hrests'⟩ := ih hrests hrest
    refine ⟨⟨hfollows, hall⟩, ?_⟩
    rw [Process.requests, Process.filesAfter, Stamped.collected_append, Stamped.served_append,
      ← List.append_assoc]
    exact hrests'

end Step

/-- What is read from the log: the items with other tokens, line by line. -/
theorem log_read (h : Rests ρ s home log sub items app grown files) :
    (∃ text, files.read (.ofText s.sink.path) = .ok (.text text) ∧
        ItemLog.Records text (items.map (·.rename ρ))) ∨
      items = [] ∧ files.read (.ofText s.sink.path) = .error .notFound := by
  have hrecords : ItemLog.Records (ItemLog.lines ρ items) (items.map (·.rename ρ)) := by
    refine ItemLog.records_join fun item hitem => ?_
    obtain ⟨w, hw, rfl⟩ := List.mem_map.mp hitem
    exact (h.fits w hw).rename
  rcases h.written with rfl | hwritten
  · exact (h.grows.read_empty h.site.named h.site.resolve h.text).imp
      (fun hread => ⟨_, hread, hrecords⟩) fun hread => ⟨rfl, hread⟩
  · exact .inl ⟨_, hwritten, hrecords⟩

/-- Before the first process. -/
theorem of_fresh (hfresh : World.Fresh s files opened) {start : Instant} (hstart : start.Valid)
    {mint : Nat → Token} {t t' : FileTree}
    (happ : World.openAll (World.inMemory s) start mint (.memory {}) t = (.ok app, t')) :
    ∃ ttl home log, s.topicsTtl? = some ttl ∧
      Rests ρ s home log app.subscribe.1 [] app.subscribe.2 opened files := by
  obtain ⟨ttl, home, log, httl, hsite, hgrows, hempty, hslot⟩ := hfresh.exists_site
  obtain ⟨hlist, hsink, hmemory⟩ := World.spec_of_inMemory happ
  obtain ⟨hsound, hsink', hawaits⟩ := World.subscribe_spec (World.sound_of_openAll happ hstart)
  have hquiet := (World.logAside_of_noLog (w := app) (by simp [hsink])).subscribe
  refine ⟨ttl, home, log, httl, hsound, (World.wired_of_openAll hstart happ).quiet hquiet,
    hquiet.topics.1.trans hlist, hawaits, hsink'.trans hsink, hsite, hgrows, by simp, hempty, .inl rfl,
    fun m id => ?_⟩
  rw [hquiet.slot, hmemory, Shelf.slot]
  cases hid : isValidId id with
  | false => exact .invalid
  | true =>
    rw [if_pos rfl, if_pos rfl, hslot m id hid]
    exact .valid none (by simp) (by simp)

end Rests

/-- With one process for each request the responses and the outcomes are those of one application in
memory that follows up each request at once, and the lines of the log give back the items that its sink
has taken. -/
theorem follows_application {ρ : Token → Token} (hρ : Function.Injective ρ) {s : Settings}
    {files opened : FileTree} (hfresh : World.Fresh s files opened) {start : Instant}
    (hstart : start.Valid) {mint : Nat → Token} {t t' : FileTree} {app : World}
    (happ : World.openAll (World.inMemory s) start mint (.memory {}) t = (.ok app, t'))
    (ps : List Process) (hps : Process.Configured ρ s ps files) :
    let sub := app.subscribe.1
    let items := Stamped.collected s.timeouts sub (Process.requests ρ ps files) app.subscribe.2
    let log := (Process.filesAfter ρ ps files).read (.ofText s.sink.path)
    AllFollow ρ s sub ps app.subscribe.2 files ∧
      ((∃ text, log = .ok (.text text) ∧ ItemLog.Records text (items.map (·.rename ρ))) ∨
        items = [] ∧ log = .error .notFound) := by
  obtain ⟨ttl, home, log, httl, hrests⟩ := Rests.of_fresh hfresh hstart happ
  obtain ⟨hall, grown, hafter⟩ := hrests.run hρ hfresh.storage httl hps
  exact ⟨hall, hafter.log_read⟩

/-- A process in the first minutes of the epoch, by the default settings. -/
def Process.early (n : UInt8) (command : Command) (token : String) : Process where
  invocation := ⟨none, command⟩
  now := ⟨n.toNat, 0⟩
  valid := Stamped.valid_early n
  token := ⟨token⟩

/-- A library is looked up and then created. -/
def libraryProcesses : List Process :=
  let data :=
    "[\"Library\", \"Loans\", [\"City\", \"00000000000\"], [null, null, null, \"library@city\"]]"
  [ .early 0 (.lookUp .lifecycle "library") "unused",
    .early 1 (.apply .lifecycle "create" "library" (some data) none) "created" ]

/-- All the directories of the default settings, and the log. -/
def defaultTree : FileTree :=
  ⟨[([".services-cms"], .directory), ([".services-cms", "work-items.jsonl"], .file (.text "")),
    ([".services-cms", "store"], .directory), ([".services-cms", "store", "lifecycle"], .directory),
    ([".services-cms", "store", "publication"], .directory)]⟩

theorem stands_defaultTree (m : MachineName) :
    Directory.Stands defaultTree (World.directory {} m) [".services-cms", "store", m.text] := by
  cases m <;> exact ⟨rfl, rfl, rfl, by decide⟩

theorem fresh_defaultTree : World.Fresh {} {} defaultTree where
  storage := rfl
  setUp := ⟨⟨defaultTree.nodes.take 2⟩, rfl, fun _ _ => ⟨_, rfl⟩⟩
  vacant m id hid f hf := by
    have hname : IsFileName f := by
      simp only [List.mem_cons, List.not_mem_nil, or_false] at hf
      rcases hf with rfl | rfl | rfl
      · exact Directory.isFileName_recordName hid
      · exact Directory.isFileName_draftName hid
      · exact Directory.isFileName_lockName
    rw [(stands_defaultTree m).look hname]
    simp [defaultTree, FileTree.get?]
  log := rfl

theorem follows_application_libraryProcesses :
    let ρ : Token → Token := fun t => ⟨"other " ++ t.text⟩
    let sub := Circumstances.opened.subscribe.1
    let app := Circumstances.opened.subscribe.2
    let items := Stamped.collected {} sub (Process.requests ρ libraryProcesses {}) app
    items.map WorkItem.kind = ["request_detail_lifecycle"] ∧
      AllFollow ρ {} sub libraryProcesses app {} ∧
      ∃ text, (Process.filesAfter ρ libraryProcesses {}).read
          (.ofText ".services-cms/work-items.jsonl") = .ok (.text text) ∧
        ItemLog.Records text (items.map (·.rename ρ)) := by
  intro ρ sub app items
  have hitems : items.map WorkItem.kind = ["request_detail_lifecycle"] := by decide +kernel
  have hρ : Function.Injective ρ := by
    rintro ⟨a⟩ ⟨b⟩ h
    simpa [ρ] using h
  have hopened : World.openAll (World.inMemory {}) ⟨0, 0⟩ (fun n => ⟨toString n⟩) (.memory {}) {} =
      (.ok Circumstances.opened, Circumstances.opened.files) := rfl
  have hconfigured : Process.Configured ρ {} libraryProcesses {} :=
    ⟨⟨rfl, by simp [Process.early]⟩, ⟨rfl, by simp [Process.early]⟩, trivial⟩
  obtain ⟨hall, hlog⟩ := follows_application hρ fresh_defaultTree (by decide) hopened
    libraryProcesses hconfigured
  refine ⟨hitems, hall, hlog.resolve_right fun h => ?_⟩
  have hnone : items.map WorkItem.kind = [] := by rw [show items = [] from h.1]; rfl
  rw [hitems] at hnone
  cases hnone

end ServiceCatalog.CommandLine
