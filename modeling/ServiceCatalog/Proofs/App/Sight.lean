import ServiceCatalog.Proofs.App.Spawned

/-!
What one task sees while all are at work. An event is a move of the task itself or something that
happens meanwhile; either way the task serves the commits of its feed in order, and once the feed is
closed its own moves bring it to the end.
-/
namespace ServiceCatalog.Spawned

/-- What a task sees of the state: its feed and its number there, what it is at, its report, and the
items of its kinds that the sink has kept. -/
structure Sight (t : World.Turn) where
  feed : Feed (Item t.machine.State)
  number : Nat
  phase : Phase t
  report : Report
  items : List WorkItem

def sight (s : Spawned) (t : World.Turn) : Sight t :=
  ⟨s.feed t, t.number s.subscription, s.phase t, s.reports.of t, t.itemsOf s.world.keptItems⟩

namespace Sight

variable {t : World.Turn}

def queue (v : Sight t) : List (Versioned (Item t.machine.State)) := v.feed.queue v.number

/-- A move of the task itself. -/
inductive Moves (answer : WorkItem → Delivery) : Sight t → Sight t → Prop
  | finds {v} : v.phase = .idle → v.queue = [] → v.feed.isOpen = true → Moves answer v v
  | stops {v} : v.phase = .idle → v.queue = [] → v.feed.isOpen = false →
      Moves answer v { v with phase := .stopped }
  | takes {v c rest} : v.phase = .idle → v.queue = c :: rest →
      Moves answer v { v with feed := v.feed.withQueue v.number rest, phase := .holding c }
  | puts {v c} : v.phase = .holding c →
      Moves answer v { v with
        phase := .waiting (t.watcher.outcome answer c),
        items := v.items ++ delivered [t.watcher.outcome answer c] }
  | counts {v o} : v.phase = .waiting o →
      Moves answer v { v with phase := .idle, report := v.report.add o }
  | rests {v} : v.phase = .stopped → Moves answer v v

/-- What others do. It adds these commits to the feed. -/
inductive Meanwhile : List (Versioned (Item t.machine.State)) → Sight t → Sight t → Prop
  | same {v} : Meanwhile [] v v
  | commits {v} (r) : v.feed.isOpen = true →
      Meanwhile [r] v { v with feed := v.feed.publish r }
  | closes {v} : Meanwhile [] v { v with feed := v.feed.close }
  | takes {v} (k q) : v.number ≠ k → Meanwhile [] v { v with feed := v.feed.withQueue k q }

/-- Of the commits `cs` some were put to the sink, which took what it accepts of them in this order. At
the start it had `kept` of the kinds of this task. -/
structure Serves (answer : WorkItem → Delivery) (kept : List WorkItem)
    (cs : List (Versioned (Item t.machine.State))) (v : Sight t) : Prop where
  live : v.feed.isLive v.number = true
  sound : v.feed.isOpen = true → v.feed.Sound
  stopped : v.phase = .stopped → v.feed.isOpen = false ∧ v.queue = []
  progress : ∃ seen told, cs = seen ++ (v.phase.held ++ v.queue) ∧
    seen.map (t.watcher.outcome answer) = told ++ v.phase.pending ∧ v.report = .of told ∧
    v.items = kept ++ delivered (seen.map (t.watcher.outcome answer))

/-- Moves that are left to the task when nothing is committed any more. -/
def rank (v : Sight t) : Nat := 3 * v.queue.length + v.phase.weight

section Invariant

variable {answer : WorkItem → Delivery} {kept : List WorkItem} {v v' : Sight t}
  {cs more : List (Versioned (Item t.machine.State))}

theorem Serves.moves (h : v.Serves answer kept cs) (hm : v.Moves answer v') :
    v'.Serves answer kept cs := by
  obtain ⟨seen, told, hcs, htold, hreport, hitems⟩ := h.progress
  cases hm with
  | finds hp hq ho => exact h
  | rests hp => exact h
  | stops hp hq ho =>
    rw [hp] at hcs htold
    exact ⟨h.live, h.sound, fun _ => ⟨ho, hq⟩, seen, told, hcs, htold, hreport, hitems⟩
  | @takes c rest hp hq =>
    have hrest : (v.feed.withQueue v.number rest).queue v.number = rest :=
      Feed.queue_withQueue h.live rest
    rw [hp] at hcs htold
    refine ⟨?_, fun ho => (h.sound ho).withQueue _ _, (nomatch ·), seen, told, ?_, htold, hreport,
      hitems⟩
    · rw [Feed.isLive_withQueue, h.live]
    · rw [hcs, hq, queue, hrest]
      rfl
  | @puts c hp =>
    rw [hp] at hcs htold
    refine ⟨h.live, h.sound, (nomatch ·), seen ++ [c], told, ?_, ?_, hreport, ?_⟩
    · rw [hcs, List.append_assoc]
      rfl
    · rw [List.map_append, htold]
      exact congrArg (· ++ _) (List.append_nil told)
    · rw [List.map_append, delivered_append, ← List.append_assoc, hitems]
      rfl
  | @counts o hp =>
    rw [hp] at hcs htold
    refine ⟨h.live, h.sound, (nomatch ·), seen, told ++ [o], hcs, ?_, ?_, hitems⟩
    · rw [htold]
      exact (List.append_nil _).symm
    · rw [hreport, Report.of_add]

theorem Serves.meanwhile (h : v.Serves answer kept cs) (hm : v.Meanwhile more v') :
    v'.Serves answer kept (cs ++ more) := by
  obtain ⟨seen, told, hcs, htold, hreport, hitems⟩ := h.progress
  have hsame : ∀ f : Feed (Item t.machine.State), f.isLive v.number = true →
      (f.isOpen = true → f.Sound) → (f.isOpen = true → v.feed.isOpen = true) →
      f.queue v.number = v.queue ++ more → (v.feed.isOpen = false → more = []) →
      Serves answer kept (cs ++ more) { v with feed := f } := by
    intro f hlive hsound hopened hqueue hquiet
    refine ⟨hlive, hsound, fun hp => ?_, seen, told, ?_, htold, hreport, hitems⟩
    · obtain ⟨hclosed, hnil⟩ := h.stopped hp
      refine ⟨?_, ?_⟩
      · rw [← Bool.not_eq_true] at hclosed ⊢
        exact fun ho => hclosed (hopened ho)
      · rw [queue, hqueue, hnil, hquiet hclosed, List.append_nil]
    · rw [hcs, List.append_assoc, List.append_assoc, ← hqueue]
      rfl
  cases hm with
  | same => exact hsame v.feed h.live h.sound id (List.append_nil _).symm fun _ => rfl
  | commits r ho =>
    refine hsame _ ?_ (fun _ => (h.sound ho).publish r) (fun _ => ho)
      (Feed.queue_publish (h.sound ho) h.live r) fun hc => ?_
    · rw [Feed.isLive_publish, h.live]
    · rw [ho] at hc
      cases hc
  | closes =>
    exact hsame _ h.live (fun ho => nomatch ho) (fun ho => nomatch ho) (List.append_nil _).symm
      fun _ => rfl
  | takes k q hk =>
    refine hsame _ ?_ (fun ho => (h.sound ho).withQueue k q) id ?_ fun _ => rfl
    · rw [Feed.isLive_withQueue, h.live]
    · rw [Feed.queue_withQueue_of_ne hk, List.append_nil]
      rfl

/-- A task that has come to the end has followed up every commit. -/
theorem Serves.all (h : v.Serves answer kept cs) (hp : v.phase = .stopped) :
    v.report = .of (cs.map (t.watcher.outcome answer)) ∧
      v.items = kept ++ delivered (cs.map (t.watcher.outcome answer)) := by
  obtain ⟨seen, told, hcs, htold, hreport, hitems⟩ := h.progress
  obtain ⟨-, hnil⟩ := h.stopped hp
  rw [hp, hnil] at hcs
  rw [hp] at htold
  obtain rfl : cs = seen := by rw [hcs]; exact List.append_nil seen
  obtain rfl : told = cs.map (t.watcher.outcome answer) := by
    rw [htold]
    exact (List.append_nil told).symm
  exact ⟨hreport, hitems⟩

theorem Serves.rank_le (h : v.Serves answer kept cs) : v.rank ≤ 3 * cs.length + 1 := by
  obtain ⟨seen, told, hcs, htold, -, -⟩ := h.progress
  have hlength := congrArg List.length hcs
  have hseen := congrArg List.length htold
  rw [rank]
  cases hp : v.phase <;> rw [hp] at hlength hseen <;>
    simp [Phase.held, Phase.pending, Phase.weight] at hlength hseen ⊢ <;> omega

/-- Once its feed is closed a task comes to the end, or nearer to it, with every move. -/
theorem rank_of_moves (hlive : v.feed.isLive v.number = true) (ho : v.feed.isOpen = false)
    (hm : v.Moves answer v') : v'.phase = .stopped ∨ v'.rank < v.rank := by
  cases hm with
  | finds hp hq hopen =>
    rw [ho] at hopen
    cases hopen
  | rests hp => exact .inl hp
  | stops hp hq hclosed => exact .inl rfl
  | @takes c rest hp hq =>
    refine .inr ?_
    have hrest : (v.feed.withQueue v.number rest).queue v.number = rest :=
      Feed.queue_withQueue hlive rest
    simp only [rank, queue, hrest]
    rw [show v.feed.queue v.number = c :: rest from hq, hp]
    simp only [List.length_cons, Phase.weight]
    omega
  | @puts c hp =>
    refine .inr ?_
    simp only [rank, queue, hp, Phase.weight]
    omega
  | @counts o hp =>
    refine .inr ?_
    simp only [rank, queue, hp, Phase.weight]
    omega

theorem phase_of_moves (hp : v.phase = .stopped) (hm : v.Moves answer v') : v'.phase = .stopped := by
  cases hm with
  | rests => exact hp
  | stops => rfl
  | finds h | takes h | puts h | counts h =>
    rw [hp] at h
    cases h

theorem isOpen_of_moves (hm : v.Moves answer v') : v'.feed.isOpen = v.feed.isOpen := by
  cases hm <;> rfl

/-- What others do then changes nothing for the task. -/
theorem rank_of_meanwhile (ho : v.feed.isOpen = false) (hm : v.Meanwhile more v') :
    v'.phase = v.phase ∧ v'.rank = v.rank ∧ v'.feed.isOpen = false := by
  cases hm with
  | same => exact ⟨rfl, rfl, ho⟩
  | commits r hopen =>
    rw [ho] at hopen
    cases hopen
  | closes => exact ⟨rfl, rfl, rfl⟩
  | takes k q hk =>
    refine ⟨rfl, ?_, ho⟩
    simp only [rank, queue, Feed.queue_withQueue_of_ne hk]

end Invariant

end Sight

section Steps

variable {answer : WorkItem → Delivery} {s s' : Spawned} {t u : World.Turn}

/-- Two tasks never share a queue. -/
def Apart (s : Spawned) : Prop := s.subscription.publicDetail ≠ s.subscription.archive

/-- Putting a commit to the sink. -/
theorem process_spec (hj : s.world.sink.Judges answer) (c : Versioned (Item u.machine.State)) :
    (Pipeline.process World.itemSink u.watcher c s.world).1 = u.watcher.outcome answer c ∧
      (Pipeline.process World.itemSink u.watcher c s.world).2.sink.Judges answer ∧
      (Pipeline.process World.itemSink u.watcher c s.world).2.keptItems =
        s.world.keptItems ++ delivered ([c].map (u.watcher.outcome answer)) ∧
      ∀ m, (Pipeline.process World.itemSink u.watcher c s.world).2.shelf m = s.world.shelf m := by
  have hfst : (Pipeline.process World.itemSink u.watcher c s.world).1 = u.watcher.outcome answer c :=
    World.process_of_judges hj c
  obtain ⟨-, hpublishes⟩ := World.process_eq u.watcher c s.world
  rw [hfst] at hpublishes
  obtain ⟨hjudges, hkept⟩ := hpublishes.received.judges hj
  exact ⟨hfst, hjudges, hkept, hpublishes.shelf⟩

theorem moves_move (hj : s.world.sink.Judges answer) (t : World.Turn) :
    (s.sight t).Moves answer ((s.move t).sight t) := by
  have h := s.moved_move t
  generalize s.move t = s' at h ⊢
  cases h with
  | finds hp hq ho => exact .finds hp hq ho
  | rests hp => exact .rests hp
  | stops hp hq ho =>
    have hsight : (s.withPhase t .stopped).sight t = { s.sight t with phase := .stopped } := by
      rw [sight, phase_withPhase]
      rfl
    rw [hsight]
    exact .stops hp hq ho
  | @takes c rest hp hq =>
    have hsight : ({ s with world := s.took t rest }.withPhase t (.holding c)).sight t =
        { s.sight t with
          feed := (s.feed t).withQueue (t.number s.subscription) rest, phase := .holding c } := by
      rw [sight, phase_withPhase]
      simp only [feed, withPhase, took, World.shelf_withFeed, Shelf.feed_withFeed,
        World.keptItems_withFeed]
      rfl
    rw [hsight]
    exact .takes hp hq
  | @puts c hp =>
    obtain ⟨houtcome, -, hkept, hshelf⟩ := process_spec hj c
    generalize (Pipeline.process World.itemSink t.watcher c s.world).2 = w at hkept hshelf ⊢
    rw [houtcome]
    have hsight :
        ({ s with world := w }.withPhase t (.waiting (t.watcher.outcome answer c))).sight t =
          { s.sight t with
            phase := .waiting (t.watcher.outcome answer c),
            items := (s.sight t).items ++ delivered [t.watcher.outcome answer c] } := by
      rw [sight, phase_withPhase]
      simp only [feed, withPhase, hshelf, hkept, World.Turn.itemsOf_append, World.Turn.itemsOf_self]
      rfl
    rw [hsight]
    exact .puts hp
  | @counts o hp =>
    have hsight : ({ s with reports := s.reports.add t o }.withPhase t .idle).sight t =
        { s.sight t with phase := .idle, report := (s.reports.of t).add o } := by
      rw [sight, phase_withPhase, ← World.Reports.of_add]
      rfl
    rw [hsight]
    exact .counts hp

theorem subscription_move (s : Spawned) (t : World.Turn) :
    (s.move t).subscription = s.subscription := by
  have h := s.moved_move t
  generalize s.move t = s' at h ⊢
  cases h <;> rfl

theorem judges_move (hj : s.world.sink.Judges answer) (t : World.Turn) :
    (s.move t).world.sink.Judges answer := by
  have h := s.moved_move t
  generalize s.move t = s' at h ⊢
  cases h with
  | finds | stops | counts | rests => exact hj
  | takes => exact (World.sink_withFeed ..).symm ▸ hj
  | @puts c => exact (process_spec hj c).2.1

/-- A task that takes a commit from a queue leaves the queues of the others alone. -/
theorem meanwhile_took (ha : s.Apart) (h : t ≠ u) (rest : List (Versioned (Item u.machine.State))) :
    (s.sight t).Meanwhile [] (sight { s with world := s.took u rest } t) := by
  have hkept : (s.took u rest).keptItems = s.world.keptItems := World.keptItems_withFeed ..
  have helsewhere : t.machine ≠ u.machine →
      sight { s with world := s.took u rest } t = s.sight t := by
    intro hm
    simp only [sight, feed, hkept]
    rw [took, World.shelf_withFeed_of_ne _ _ _ hm]
  have hpublication : ∀ f : Feed (Item Publication.State),
      ((s.world.withFeed .publication f).shelf .publication).feed = f := fun f => by
    rw [World.shelf_withFeed, Shelf.feed_withFeed]
  cases t <;> cases u
  case editorial.editorial | publicDetail.publicDetail | archive.archive => exact absurd rfl h
  case publicDetail.archive =>
    have hsight : sight { s with world := s.took .archive rest } .publicDetail =
        { s.sight .publicDetail with
          feed := (s.feed .archive).withQueue s.subscription.archive rest } := by
      rw [sight, feed, hkept]
      exact congrArg (fun f => Sight.mk f _ _ _ _) (hpublication _)
    rw [hsight]
    exact .takes _ _ ha
  case archive.publicDetail =>
    have hsight : sight { s with world := s.took .publicDetail rest } .archive =
        { s.sight .archive with
          feed := (s.feed .publicDetail).withQueue s.subscription.publicDetail rest } := by
      rw [sight, feed, hkept]
      exact congrArg (fun f => Sight.mk f _ _ _ _) (hpublication _)
    rw [hsight]
    exact .takes _ _ ha.symm
  all_goals
    rw [helsewhere (by decide)]
    exact .same

/-- What another task does. -/
theorem meanwhile_move (hj : s.world.sink.Judges answer) (ha : s.Apart) (h : t ≠ u) :
    (s.sight t).Meanwhile [] ((s.move u).sight t) := by
  have hmoved := s.moved_move u
  generalize s.move u = s' at hmoved ⊢
  cases hmoved with
  | finds | rests => exact .same
  | stops =>
    have hsight : (s.withPhase u .stopped).sight t = s.sight t := by
      rw [sight, phase_withPhase_of_ne h]
      rfl
    rw [hsight]
    exact .same
  | @takes c rest =>
    have hsight : ({ s with world := s.took u rest }.withPhase u (.holding c)).sight t =
        sight { s with world := s.took u rest } t := by
      rw [sight, phase_withPhase_of_ne h]
      rfl
    rw [hsight]
    exact meanwhile_took ha h rest
  | @puts c =>
    obtain ⟨-, -, hkept, hshelf⟩ := process_spec hj c
    generalize Pipeline.process World.itemSink u.watcher c s.world = put at hkept hshelf ⊢
    have hsight : ({ s with world := put.2 }.withPhase u (.waiting put.1)).sight t = s.sight t := by
      rw [sight, phase_withPhase_of_ne h]
      simp only [feed, withPhase, hshelf, hkept, World.Turn.itemsOf_append,
        World.Turn.itemsOf_of_ne h, List.append_nil]
      rfl
    rw [hsight]
    exact .same
  | @counts o =>
    have hsight : ({ s with reports := s.reports.add u o }.withPhase u .idle).sight t =
        s.sight t := by
      rw [sight, phase_withPhase_of_ne h]
      simp only [withPhase, World.Reports.of_add_of_ne h]
      rfl
    rw [hsight]
    exact .same

theorem meanwhile_save (m : MachineName) (c : Saving m) (s : Spawned) (t : World.Turn) :
    (s.sight t).Meanwhile ((Event.save m c).commits t.machine s.world)
      ((s.step (.save m c)).sight t) := by
  cases ho : (s.world.shelf m).feed.isOpen with
  | false =>
    have hnone : (Event.save m c).commits t.machine s.world = [] := by
      by_cases hm : m = t.machine
      · subst hm
        simp [Event.commits, Saving.commits, ho]
      · exact dif_neg hm
    rw [hnone, step, if_neg (by simp [ho])]
    exact .same
  | true =>
    obtain ⟨answer, hanswer, hfeed, helsewhere, hsink⟩ := send_spec c s.world
    have hkept : (c.send s.world).2.keptItems = s.world.keptItems := by
      rw [World.keptItems, hsink, ← World.keptItems]
    rw [step, if_pos ho]
    by_cases hm : m = t.machine
    · subst hm
      have hcommits : (Event.save _ c).commits t.machine s.world = c.commits s.world := dif_pos rfl
      have hsight : sight { s with world := (c.send s.world).2 } t =
          { s.sight t with feed := (s.feed t).after answer } := by
        rw [sight, feed, hfeed, hkept]
        rfl
      rw [hcommits, hsight, Saving.commits, if_pos ho, hanswer]
      cases answer with
      | ok r => exact .commits r ho
      | error e => exact .same
    · have hnone : (Event.save m c).commits t.machine s.world = [] := dif_neg hm
      have hsight : sight { s with world := (c.send s.world).2 } t = s.sight t := by
        rw [sight, feed, helsewhere _ (Ne.symm hm), hkept]
        rfl
      rw [hnone, hsight]
      exact .same

theorem meanwhile_close (m : MachineName) (s : Spawned) (t : World.Turn) :
    (s.sight t).Meanwhile [] ((s.step (.close m)).sight t) := by
  by_cases hm : t.machine = m
  · subst hm
    have hsight : (s.step (.close t.machine)).sight t =
        { s.sight t with feed := (s.feed t).close } := by
      rw [step, sight, feed]
      simp only [World.shelf_withFeed, Shelf.feed_withFeed, World.keptItems_withFeed]
      rfl
    rw [hsight]
    exact .closes
  · have hsight : (s.step (.close m)).sight t = s.sight t := by
      rw [step, sight, feed]
      simp only [World.shelf_withFeed_of_ne _ _ _ hm, World.keptItems_withFeed]
      rfl
    rw [hsight]
    exact .same

/-- An event is a task's own move or something that happens meanwhile. -/
theorem sight_step (hj : s.world.sink.Judges answer) (ha : s.Apart) (e : Event) (t : World.Turn) :
    (e.isMove t = true ∧ e.commits t.machine s.world = [] ∧
      (s.sight t).Moves answer ((s.step e).sight t)) ∨
    (e.isMove t = false ∧
      (s.sight t).Meanwhile (e.commits t.machine s.world) ((s.step e).sight t)) := by
  cases e with
  | save m c => exact .inr ⟨rfl, meanwhile_save m c s t⟩
  | close m => exact .inr ⟨rfl, meanwhile_close m s t⟩
  | move u =>
    by_cases hu : t = u
    · subst hu
      exact .inl ⟨by simp [Event.isMove], rfl, moves_move hj t⟩
    · exact .inr ⟨by simp [Event.isMove, Ne.symm hu], meanwhile_move hj ha hu⟩

theorem judges_step (hj : s.world.sink.Judges answer) (e : Event) :
    (s.step e).world.sink.Judges answer := by
  cases e with
  | save m c =>
    obtain ⟨-, -, -, -, hsink⟩ := send_spec c s.world
    rw [step]
    split
    · exact hsink ▸ hj
    · exact hj
  | close m => exact (World.sink_withFeed ..).symm ▸ hj
  | move u => exact judges_move hj u

theorem apart_step (ha : s.Apart) (e : Event) : (s.step e).Apart := by
  have hsame : (s.step e).subscription = s.subscription := by
    cases e with
    | save m c =>
      rw [step]
      split <;> rfl
    | close m => rfl
    | move u => exact subscription_move s u
  rw [Apart, hsame]
  exact ha

end Steps

end ServiceCatalog.Spawned
