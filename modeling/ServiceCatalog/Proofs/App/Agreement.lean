import ServiceCatalog.App.Tasks
import ServiceCatalog.Proofs.App.Sight

/-!
The tasks agree with a drain. In whatever order they run beside the saves, each task serves the commits
of its feed in order, and once the feed is closed it comes to the end.
-/
namespace ServiceCatalog.Spawned

section Runs

variable {answer : WorkItem → Delivery} {kept : List WorkItem} {s : Spawned} {t : World.Turn}
  {cs : List (Versioned (Item t.machine.State))}

theorem judges_run (hj : s.world.sink.Judges answer) (es : List Event) :
    (run es s).world.sink.Judges answer := by
  induction es generalizing s with
  | nil => exact hj
  | cons e rest ih => exact ih (judges_step hj e)

theorem apart_run (ha : s.Apart) (es : List Event) : (run es s).Apart := by
  induction es generalizing s with
  | nil => exact ha
  | cons e rest ih => exact ih (apart_step ha e)

theorem run_append (es more : List Event) (s : Spawned) :
    run (es ++ more) s = run more (run es s) := by
  induction es generalizing s with
  | nil => rfl
  | cons e rest ih => exact ih _

/-- Whatever happens in whatever order, each task serves the commits of its feed. -/
theorem serves_run (hj : s.world.sink.Judges answer) (ha : s.Apart)
    (h : (s.sight t).Serves answer kept cs) (es : List Event) :
    ((run es s).sight t).Serves answer kept (cs ++ commits t.machine es s) := by
  induction es generalizing s cs with
  | nil =>
    rw [commits, List.append_nil]
    exact h
  | cons e rest ih =>
    rw [run, commits, ← List.append_assoc]
    refine ih (judges_step hj e) (apart_step ha e) ?_
    rcases sight_step hj ha e t with ⟨-, hnone, hm⟩ | ⟨-, hm⟩
    · rw [hnone, List.append_nil]
      exact h.moves hm
    · exact h.meanwhile hm

/-- Once its feed is closed, a task comes to the end if it is given so many moves. -/
theorem stopped_run (hj : s.world.sink.Judges answer) (ha : s.Apart)
    (h : (s.sight t).Serves answer kept cs) (ho : (s.feed t).isOpen = false) {es : List Event}
    (hes : s.phase t = .stopped ∨ (s.sight t).rank ≤ es.countP (·.isMove t)) :
    (run es s).phase t = .stopped := by
  induction es generalizing s cs with
  | nil =>
    rcases hes with hp | hrank
    · exact hp
    · have hzero : 3 * (s.sight t).queue.length + (s.phase t).weight ≤ 0 := hrank
      have hweight : (s.phase t).weight = 0 := by omega
      exact Phase.eq_stopped_of_weight hweight
  | cons e rest ih =>
    rcases sight_step hj ha e t with ⟨he, hnone, hm⟩ | ⟨he, hm⟩
    · have hnext := h.moves hm
      rw [List.countP_cons_of_pos he] at hes
      refine ih (judges_step hj e) (apart_step ha e) hnext
        ((Sight.isOpen_of_moves hm).trans ho) ?_
      rcases hes with hp | hrank
      · exact .inl (Sight.phase_of_moves hp hm)
      · exact (Sight.rank_of_moves h.live ho hm).imp id fun hless =>
          Nat.le_of_lt_succ (Nat.lt_of_lt_of_le hless hrank)
    · obtain ⟨hphase, hrank, hclosed⟩ := Sight.rank_of_meanwhile ho hm
      refine ih (judges_step hj e) (apart_step ha e) (h.meanwhile hm) hclosed ?_
      refine hes.imp (fun hp => hphase.trans hp) fun hle => ?_
      rw [hrank]
      rwa [List.countP_cons_of_neg (by simp [he])] at hle

end Runs

/-- The outcomes of the commits that a task was to follow up, each by itself. -/
def outcomes (w : World) (es : List Event) (t : World.Turn) : List Outcome :=
  (commits t.machine es (start w)).map fun c =>
    (Pipeline.process World.itemSink t.watcher c w).1

/-- A task that was started beside the events `es` and has come to the end of its feed has done the work
of a pipeline that takes the same commits by itself, and of a drain. -/
structure Agrees (w : World) (es : List Event) (t : World.Turn) : Prop where
  report : (run es (start w)).reports.of t =
    (Pipeline.run World.itemSink t.watcher {} (commits t.machine es (start w)) w).1
  counts : (run es (start w)).reports.of t = .of (outcomes w es t)
  received : ((run es (start w)).reports.of t).received = (commits t.machine es (start w)).length
  complete : ((run es (start w)).reports.of t).received =
    ((run es (start w)).reports.of t).delivered + ((run es (start w)).reports.of t).skipped +
      ((run es (start w)).reports.of t).failed
  items : t.itemsOf (run es (start w)).world.keptItems =
    t.itemsOf w.keptItems ++ delivered (outcomes w es t)
  drained : ∀ (v : World) (s : World.Subscription), v.Sound → v.answer = w.answer →
    s.Awaits v (commits .lifecycle es (start w)) (commits .publication es (start w)) →
    t.itemsOf (delivered (World.drain s v).1) = delivered (outcomes w es t)

section Agreement

variable {answer : WorkItem → Delivery} {w : World}

theorem apart_start (hf : ∀ m, (w.shelf m).feed.Sound) : (start w).Apart :=
  (World.subscribe_awaits hf).1.apart

theorem serves_start (hf : ∀ m, (w.shelf m).feed.Sound) (answer : WorkItem → Delivery)
    (t : World.Turn) : ((start w).sight t).Serves answer (t.itemsOf w.keptItems) [] := by
  obtain ⟨ha, hsound⟩ := World.subscribe_awaits hf
  have hawaits : w.subscribe.2.Awaits t.machine (t.number w.subscribe.1) [] := by
    cases t with
    | editorial => exact ha.editorial
    | publicDetail => exact ha.publicDetail
    | archive => exact ha.archive
  refine ⟨hawaits.1, fun _ => hsound t.machine, (nomatch ·), [], [], ?_, rfl, ?_, ?_⟩
  · exact hawaits.2.symm
  · cases t <;> rfl
  · exact (List.append_nil _).symm

theorem outcomes_eq (hj : w.sink.Judges answer) (es : List Event) (t : World.Turn) :
    outcomes w es t = (commits t.machine es (start w)).map (t.watcher.outcome answer) :=
  List.map_congr_left fun c _ => World.process_of_judges hj c

theorem drain_outcomes {v : World} {s : World.Subscription}
    {ls : List (Versioned (Item Lifecycle.State))} {ps : List (Versioned (Item Publication.State))}
    (hv : v.Sound) (ha : v.answer = fun _ => answer) (h : s.Awaits v ls ps) :
    (World.drain s v).1 = ls.map (Watcher.editorial.outcome answer) ++
      (ps.map (Watcher.publicDetail.outcome answer) ++ ps.map (Watcher.archive.outcome answer)) := by
  rw [(World.drained_of_awaits hv h).outcomes, ha, dispatched_of_item, World.workOf, List.map_append,
    List.map_append, List.map_map, List.map_map, List.map_map]
  rfl

theorem itemsOf_drain {v : World} {s : World.Subscription}
    {q : (m : MachineName) → List (Versioned (Item m.State))} (hv : v.Sound)
    (ha : v.answer = fun _ => answer) (h : s.Awaits v (q .lifecycle) (q .publication))
    (t : World.Turn) : t.itemsOf (delivered (World.drain s v).1) =
      delivered ((q t.machine).map (t.watcher.outcome answer)) := by
  have hof : ∀ u : World.Turn, t.itemsOf (delivered ((q u.machine).map (u.watcher.outcome answer))) =
      if t = u then delivered ((q t.machine).map (t.watcher.outcome answer)) else [] := by
    intro u
    by_cases hu : t = u
    · subst hu
      rw [if_pos rfl, World.Turn.itemsOf_self]
    · rw [if_neg hu, World.Turn.itemsOf_of_ne hu]
  have hl := hof .editorial
  have hd := hof .publicDetail
  have ha := hof .archive
  rw [drain_outcomes hv ‹_› h, delivered_append, delivered_append, World.Turn.itemsOf_append,
    World.Turn.itemsOf_append]
  refine (congrArg₂ _ hl (congrArg₂ _ hd ha)).trans ?_
  cases t <;> simp

/-- Tasks that run beside the saves, in whatever order, do what a drain does, and come to an end once the
feeds are closed. -/
theorem agrees_of_stopped (hf : ∀ m, (w.shelf m).feed.Sound) (hj : w.sink.Judges answer)
    (es : List Event) (t : World.Turn) :
    ((run es (start w)).phase t = .stopped → Agrees w es t) ∧
      ∀ more, ((run es (start w)).feed t).isOpen = false →
        3 * (commits t.machine es (start w)).length + 1 ≤ more.countP (·.isMove t) →
        (run (es ++ more) (start w)).phase t = .stopped := by
  have hstart : (start w).world.sink.Judges answer := hj
  have hserves := serves_run hstart (apart_start hf) (serves_start hf answer t) es
  rw [List.nil_append] at hserves
  refine ⟨fun hp => ?_, fun more ho hmore => ?_⟩
  · obtain ⟨hreport, hitems⟩ := hserves.all hp
    have hreport' : (run es (start w)).reports.of t = .of (outcomes w es t) := by
      rw [outcomes_eq hj]
      exact hreport
    refine ⟨?_, hreport', ?_, ?_, ?_, fun v s hv hanswer ha => ?_⟩
    · rw [Pipeline.run_fst, World.processAll_of_judges hj, hreport', outcomes_eq hj]
      exact (Report.foldl_add _ []).symm
    · rw [hreport', Report.of, outcomes, List.length_map]
    · rw [hreport']
      exact Report.received_of _
    · rw [outcomes_eq hj]
      exact hitems
    · rw [outcomes_eq hj]
      exact itemsOf_drain (q := fun m => commits m es (start w)) hv
        (hanswer.trans (World.answer_of_judges hj)) ha t
  · rw [run_append]
    exact stopped_run (judges_run hstart es) (apart_run (apart_start hf) es) hserves ho
      (.inr (Nat.le_trans hserves.rank_le hmore))

/-- A sink that refuses drafts and never comes back from what is published. -/
def choosy : WorkItem → Delivery
  | .lifecycleDetail _ => .refused
  | .publicationDetail _ => .stalled
  | .review _ | .history _ | .noAction => .accepted

def choosyWorld : World :=
  { Circumstances.opened with sink := .given { answer := fun _ => choosy } }

open Race in
/-- The library is drafted, submitted and published while the tasks are at work, and refused when it is
published again under a wrong token. -/
def librarySchedule : List Event :=
  [ .save .lifecycle ⟨"library", ⟨⟨"library", libraryData, none⟩, .draft, none⟩, none, ⟨0, 0⟩, true⟩,
    .move .editorial, .move .archive,
    .save .publication
      ⟨"library", ⟨⟨"library", libraryData, none⟩, .published, none⟩, none, ⟨1, 0⟩, true⟩,
    .move .archive, .move .editorial, .move .publicDetail,
    .save .lifecycle
      ⟨"library", ⟨⟨"library", libraryData, none⟩, .submitted, none⟩, some ⟨"0"⟩, ⟨2, 0⟩, true⟩,
    .save .publication
      ⟨"library", ⟨⟨"library", libraryData, none⟩, .published, none⟩, none, ⟨3, 0⟩, true⟩,
    .close .publication, .move .editorial, .move .archive, .move .publicDetail, .move .editorial,
    .move .editorial, .close .lifecycle, .move .archive, .move .publicDetail, .move .publicDetail,
    .move .archive, .move .editorial, .move .editorial ]

theorem agrees_of_stopped_librarySchedule :
    (run librarySchedule (start choosyWorld)).reports =
      ⟨⟨2, 1, 0, 1⟩, ⟨1, 0, 0, 1⟩, ⟨1, 1, 0, 0⟩⟩ ∧
    (run librarySchedule (start choosyWorld)).world.keptItems.map WorkItem.kind =
      ["request_historicization", "request_review"] ∧
    ∀ t, Agrees choosyWorld librarySchedule t := by
  refine ⟨by decide +kernel, by decide +kernel, fun t => ?_⟩
  have hf : ∀ m, (choosyWorld.shelf m).feed.Sound := Circumstances.sound_opened.feed
  have hj : choosyWorld.sink.Judges choosy := rfl
  refine (agrees_of_stopped hf hj librarySchedule t).1
    (Phase.eq_stopped_of_weight ?_)
  cases t <;> decide +kernel

end Agreement

section Turns

variable {s : Spawned} {t : World.Turn}

/-- What a turn comes to, given what is received in it. -/
def turned (t : World.Turn) (r : World.Reports) :
    Option (Versioned (Item t.machine.State)) × World → (Option Outcome × World.Reports) × World
  | (none, w) => ((none, r), w)
  | (some c, w) =>
    ((some (Pipeline.process World.itemSink t.watcher c w).1,
        r.add t (Pipeline.process World.itemSink t.watcher c w).1),
      (Pipeline.process World.itemSink t.watcher c w).2)

theorem turn_eq (n : World.Subscription) (r : World.Reports) (t : World.Turn) (w : World) :
    World.turn n r t w = turned t r (World.receive t.machine (t.number n) w) := by
  cases t with
  | editorial =>
    show _ = turned .editorial r (World.receive .lifecycle n.editorial w)
    rw [World.turn, state_bind]
    rcases World.receive .lifecycle n.editorial w with ⟨_ | c, v⟩ <;> rfl
  | publicDetail =>
    show _ = turned .publicDetail r (World.receive .publication n.publicDetail w)
    rw [World.turn, state_bind]
    rcases World.receive .publication n.publicDetail w with ⟨_ | c, v⟩ <;> rfl
  | archive =>
    show _ = turned .archive r (World.receive .publication n.archive w)
    rw [World.turn, state_bind]
    rcases World.receive .publication n.archive w with ⟨_ | c, v⟩ <;> rfl

/-- Moves of the tasks alone lead to this world and these reports, and no task is at anything else than
before. -/
def ComesTo (s : Spawned) (w : World) (r : World.Reports) : Prop :=
  ∃ es, (∀ e ∈ es, ∃ t, e = .move t) ∧ run es s = { s with world := w, reports := r }

theorem ComesTo.refl (s : Spawned) : s.ComesTo s.world s.reports := ⟨[], by simp, rfl⟩

theorem ComesTo.trans {w w' : World} {r r' : World.Reports} (h : s.ComesTo w r)
    (h' : ComesTo { s with world := w, reports := r } w' r') : s.ComesTo w' r' := by
  obtain ⟨es, hes, hrun⟩ := h
  obtain ⟨more, hmore, hrun'⟩ := h'
  refine ⟨es ++ more, fun e he => ?_, ?_⟩
  · exact (List.mem_append.mp he).elim (hes e) (hmore e)
  · rw [run_append, hrun, hrun']

/-- A turn is a few moves: a commit is taken, put to the sink and counted. -/
theorem comesTo_turn (hp : s.phase t = .idle) :
    s.ComesTo (World.turn s.subscription s.reports t s.world).2
      (World.turn s.subscription s.reports t s.world).1.2 := by
  cases hq : s.queue t with
  | nil =>
    rw [turn_eq, receive_of_nil hq]
    exact ⟨[], by simp, rfl⟩
  | cons c rest =>
    rw [turn_eq, receive_of_cons hq]
    refine ⟨[.move t, .move t, .move t], by simp, ?_⟩
    show ((s.move t).move t).move t = _
    rw [move_of_cons hp hq, move_of_holding (phase_withPhase ..), move_of_waiting (phase_withPhase ..)]
    simp only [withPhase, Function.update_idem]
    rw [← hp, Function.update_eq_self]
    rfl

theorem comesTo_finishOne (hp : s.phase t = .idle) (n : Nat) :
    s.ComesTo (Tasks.finishOne s.subscription t n s.reports s.world).2
      (Tasks.finishOne s.subscription t n s.reports s.world).1 := by
  induction n generalizing s with
  | zero => exact .refl s
  | succ n ih => exact (comesTo_turn hp).trans (ih hp)

/-- The last turns of the tasks, as they are run. -/
theorem comesTo_finish (hp : ∀ t, s.phase t = .idle) (stuck : List World.Turn) :
    s.ComesTo (Tasks.finish s.world ⟨s.subscription, s.reports, stuck⟩).2
      (Tasks.finish s.world ⟨s.subscription, s.reports, stuck⟩).1 := by
  unfold Tasks.finish
  generalize Tasks.allTurns = ts
  induction ts generalizing s with
  | nil => exact .refl s
  | cons t ts ih =>
    have hone := comesTo_finishOne (hp t) (Tasks.pending s.world s.subscription t)
    exact hone.trans (ih (s := { s with world := _, reports := _ }) hp)

/-- The turns of a task until it is stuck. -/
theorem comesTo_run (hp : s.phase t = .idle) (n : Nat) (stuck : List World.Turn) :
    (Tasks.run t n s.world ⟨s.subscription, s.reports, stuck⟩).2.subscription = s.subscription ∧
      s.ComesTo (Tasks.run t n s.world ⟨s.subscription, s.reports, stuck⟩).1
        (Tasks.run t n s.world ⟨s.subscription, s.reports, stuck⟩).2.reports := by
  induction n generalizing s stuck with
  | zero => exact ⟨rfl, .refl s⟩
  | succ n ih =>
    rw [Tasks.run]
    split
    · exact ⟨rfl, .refl s⟩
    · have hturn := comesTo_turn hp
      generalize World.turn s.subscription s.reports t s.world = turned at hturn ⊢
      obtain ⟨⟨o, r⟩, w⟩ := turned
      dsimp only at hturn ⊢
      have hrest := fun stuck => ih (s := { s with world := w, reports := r }) hp stuck
      split
      · split <;> exact ⟨(hrest _).1, hturn.trans (hrest _).2⟩
      · exact ⟨(hrest _).1, hturn.trans (hrest _).2⟩

theorem comesTo_catchUp (hp : ∀ t, s.phase t = .idle) (stuck : List World.Turn) :
    s.ComesTo (Tasks.catchUp s.world ⟨s.subscription, s.reports, stuck⟩).1
      (Tasks.catchUp s.world ⟨s.subscription, s.reports, stuck⟩).2.reports := by
  unfold Tasks.catchUp
  generalize Tasks.allTurns = ts
  induction ts generalizing s stuck with
  | nil => exact .refl s
  | cons t ts ih =>
    rw [List.foldl_cons]
    have hone := comesTo_run (hp t) (Tasks.pending s.world s.subscription t) stuck
    generalize Tasks.run t (Tasks.pending s.world s.subscription t) s.world
      ⟨s.subscription, s.reports, stuck⟩ = after at hone ⊢
    obtain ⟨w, subscription, reports, stuck⟩ := after
    obtain ⟨rfl, hcomes⟩ := hone
    exact hcomes.trans (ih (s := { s with world := w, reports := reports }) hp stuck)

end Turns

end ServiceCatalog.Spawned
