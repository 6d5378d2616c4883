import ServiceCatalog.Proofs.App.Drain

/-!
The pipelines as tasks beside the saves of the two stores, in any order. A task takes a commit from its
queue, puts to the sink what is to be done about it, and waits for what comes of that; anything may
happen in between.
-/
namespace ServiceCatalog

namespace Watcher

theorem editorial_kind (c : Versioned (Item Lifecycle.State)) (h : editorial.handle c ≠ .noAction) :
    (editorial.handle c).kind ∈ ["request_review", "request_detail_lifecycle"] := by
  revert h
  unfold handle
  cases c.document.state <;>
    simp [editorial, Rule.apply, WorkItem.ofDetail, WorkItem.ofReview, WorkItem.kind]

theorem publicDetail_kind (c : Versioned (Item Publication.State))
    (h : publicDetail.handle c ≠ .noAction) :
    (publicDetail.handle c).kind ∈ ["request_detail_publication"] := by
  revert h
  unfold handle
  cases c.document.state <;> simp [publicDetail, Rule.apply, WorkItem.ofDetail, WorkItem.kind]

end Watcher

namespace World.Turn

def machine : Turn → MachineName
  | .editorial => .lifecycle
  | .publicDetail | .archive => .publication

def watcher : (t : Turn) → Watcher t.machine.State
  | .editorial => Watcher.editorial
  | .publicDetail => Watcher.publicDetail
  | .archive => Watcher.archive

def number (s : Subscription) : Turn → Nat
  | .editorial => s.editorial
  | .publicDetail => s.publicDetail
  | .archive => s.archive

/-- The kinds of work item that a task asks for. -/
def kinds : Turn → List String
  | .editorial => ["request_review", "request_detail_lifecycle"]
  | .publicDetail => ["request_detail_publication"]
  | .archive => ["request_historicization"]

/-- The items of a task among all items. -/
def itemsOf (t : Turn) (items : List WorkItem) : List WorkItem :=
  items.filter fun item => item.kind ∈ t.kinds

theorem itemsOf_append (t : Turn) (xs ys : List WorkItem) :
    t.itemsOf (xs ++ ys) = t.itemsOf xs ++ t.itemsOf ys :=
  List.filter_append ..

/-- A task asks for items of its own kinds. -/
theorem kind_handle : (t : Turn) → (c : Versioned (Item t.machine.State)) →
    t.watcher.handle c ≠ .noAction → (t.watcher.handle c).kind ∈ t.kinds
  | .editorial, c => Watcher.editorial_kind c
  | .publicDetail, c => Watcher.publicDetail_kind c
  | .archive, c => fun _ => by
    rw [show Turn.archive.watcher.handle c = .ofHistory c from Watcher.archive_handle c]
    exact List.mem_singleton_self _

theorem kinds_apart {t u : Turn} (h : t ≠ u) {k : String} (hk : k ∈ u.kinds) : k ∉ t.kinds := by
  cases t <;> cases u <;> first | exact absurd rfl h | (simp [kinds] at hk ⊢; aesop)

theorem mem_delivered_outcome {t : Turn} {answer : WorkItem → Delivery}
    {cs : List (Versioned (Item t.machine.State))} {item : WorkItem}
    (h : item ∈ delivered (cs.map (t.watcher.outcome answer))) : item.kind ∈ t.kinds := by
  obtain ⟨o, ho, hitem⟩ := List.mem_filterMap.mp h
  obtain ⟨c, -, rfl⟩ := List.mem_map.mp ho
  by_cases hc : t.watcher.handle c = .noAction
  · simp [Watcher.outcome, hc] at hitem
  · rw [Watcher.outcome, if_neg hc] at hitem
    cases ha : answer (t.watcher.handle c) <;> rw [ha] at hitem <;> cases hitem
    exact t.kind_handle c hc

theorem itemsOf_self (t : Turn) (answer : WorkItem → Delivery)
    (cs : List (Versioned (Item t.machine.State))) :
    t.itemsOf (delivered (cs.map (t.watcher.outcome answer))) =
      delivered (cs.map (t.watcher.outcome answer)) :=
  List.filter_eq_self.mpr fun _ h => decide_eq_true (mem_delivered_outcome h)

theorem itemsOf_of_ne {t u : Turn} (h : t ≠ u) (answer : WorkItem → Delivery)
    (cs : List (Versioned (Item u.machine.State))) :
    t.itemsOf (delivered (cs.map (u.watcher.outcome answer))) = [] :=
  List.filter_eq_nil_iff.mpr fun _ hi hk =>
    kinds_apart h (mem_delivered_outcome hi) (of_decide_eq_true hk)

end World.Turn

namespace World.Reports

def of (r : Reports) : Turn → Report
  | .editorial => r.editorial
  | .publicDetail => r.publicDetail
  | .archive => r.archive

def add (r : Reports) (t : Turn) (o : Outcome) : Reports :=
  match t with
  | .editorial => { r with editorial := r.editorial.add o }
  | .publicDetail => { r with publicDetail := r.publicDetail.add o }
  | .archive => { r with archive := r.archive.add o }

theorem of_add (r : Reports) (t : Turn) (o : Outcome) : (r.add t o).of t = (r.of t).add o := by
  cases t <;> rfl

theorem of_add_of_ne {t u : Turn} (h : u ≠ t) (r : Reports) (o : Outcome) :
    (r.add t o).of u = r.of u := by
  cases t <;> cases u <;> first | rfl | exact absurd rfl h

end World.Reports

namespace World

theorem sink_withFeed (w : World) (m : MachineName) (f : Feed (Item m.State)) :
    (w.withFeed m f).sink = w.sink := by
  cases m <;> rfl

theorem keptItems_withFeed (w : World) (m : MachineName) (f : Feed (Item m.State)) :
    (w.withFeed m f).keptItems = w.keptItems := by
  rw [keptItems, keptItems, sink_withFeed]

end World

/-- What a task is at. -/
inductive Phase (t : World.Turn) where
  | idle
  /-- It has taken a commit. -/
  | holding (c : Versioned (Item t.machine.State))
  /-- The commit has come to this, which the task does not know yet. -/
  | waiting (o : Outcome)
  /-- It has come to the end of its feed. -/
  | stopped

namespace Phase

variable {t : World.Turn}

/-- The commit that the task has taken and not put to the sink. -/
def held : Phase t → List (Versioned (Item t.machine.State))
  | .holding c => [c]
  | .idle | .waiting _ | .stopped => []

/-- The outcome that it has not counted. -/
def pending : Phase t → List Outcome
  | .waiting o => [o]
  | .idle | .holding _ | .stopped => []

/-- How many moves the task is away from the end, if nothing is queued. -/
def weight : Phase t → Nat
  | .holding _ => 3
  | .waiting _ => 2
  | .idle => 1
  | .stopped => 0

theorem eq_stopped_of_weight {p : Phase t} (h : p.weight = 0) : p = .stopped := by
  cases p <;> first | rfl | cases h

end Phase

/-- A save of a store, with the time it comes at. -/
structure Saving (m : MachineName) where
  id : String
  item : Item m.State
  expected : Option Token
  now : Instant
  lockFree : Bool := true

namespace Saving

variable {m : MachineName}

def send (c : Saving m) : StateM World (Reply (Versioned (Item m.State))) := fun w =>
  (World.store m).save c.id c.item c.expected { w with now := c.now, lockFree := fun _ => c.lockFree }

/-- What is committed: nothing if the save is refused, or if the feed was closed with its store. -/
def commits (c : Saving m) (w : World) : List (Versioned (Item m.State)) :=
  if (w.shelf m).feed.isOpen then
    match (c.send w).1 with
    | .answer (.ok r) => [r]
    | .answer (.error _) | .stalled => []
  else []

end Saving

structure Spawned where
  world : World
  subscription : World.Subscription
  reports : World.Reports := {}
  phase : (t : World.Turn) → Phase t := fun _ => .idle

namespace Spawned

def start (w : World) : Spawned := ⟨w.subscribe.2, w.subscribe.1, {}, fun _ => .idle⟩

/-- The feed that a task follows. -/
def feed (s : Spawned) (t : World.Turn) : Feed (Item t.machine.State) :=
  (s.world.shelf t.machine).feed

/-- What is queued for a task. -/
def queue (s : Spawned) (t : World.Turn) : List (Versioned (Item t.machine.State)) :=
  (s.feed t).queue (t.number s.subscription)

def withPhase (s : Spawned) (t : World.Turn) (p : Phase t) : Spawned :=
  { s with phase := Function.update s.phase t p }

inductive Event where
  | save (m : MachineName) (c : Saving m)
  | close (m : MachineName)
  | move (t : World.Turn)

def Event.isMove (t : World.Turn) : Event → Bool
  | .move u => u == t
  | .save _ _ | .close _ => false

def Event.commits (e : Event) (m : MachineName) (w : World) : List (Versioned (Item m.State)) :=
  match e with
  | .save n c => if h : n = m then h ▸ c.commits w else []
  | .close _ | .move _ => []

def move (s : Spawned) (t : World.Turn) : Spawned :=
  match s.phase t with
  | .idle =>
    match World.receive t.machine (t.number s.subscription) s.world with
    | (some c, w) => { s with world := w }.withPhase t (.holding c)
    | (none, w) => { s with world := w }.withPhase t
      (if (s.feed t).ended (t.number s.subscription) then .stopped else .idle)
  | .holding c =>
    let (o, w) := Pipeline.process World.itemSink t.watcher c s.world
    { s with world := w }.withPhase t (.waiting o)
  | .waiting o => { s with reports := s.reports.add t o }.withPhase t .idle
  | .stopped => s

def step (s : Spawned) : Event → Spawned
  | .save m c =>
    if (s.world.shelf m).feed.isOpen then { s with world := (c.send s.world).2 } else s
  | .close m => { s with world := s.world.withFeed m (s.world.shelf m).feed.close }
  | .move t => s.move t

def run : List Event → Spawned → Spawned
  | [], s => s
  | e :: rest, s => run rest (s.step e)

/-- What is committed to the store of a machine. -/
def commits (m : MachineName) : List Event → Spawned → List (Versioned (Item m.State))
  | [], _ => []
  | e :: rest, s => e.commits m s.world ++ commits m rest (s.step e)

section Moves

variable {s : Spawned} {t u : World.Turn}

theorem phase_withPhase (s : Spawned) (t : World.Turn) (p : Phase t) :
    (s.withPhase t p).phase t = p :=
  Function.update_self ..

theorem phase_withPhase_of_ne (h : u ≠ t) (s : Spawned) (p : Phase t) :
    (s.withPhase t p).phase u = s.phase u :=
  Function.update_of_ne h ..

/-- The state after a task has taken a commit. -/
def took (s : Spawned) (t : World.Turn) (rest : List (Versioned (Item t.machine.State))) : World :=
  s.world.withFeed t.machine ((s.feed t).withQueue (t.number s.subscription) rest)

theorem receive_of_nil (hq : s.queue t = []) :
    World.receive t.machine (t.number s.subscription) s.world = (none, s.world) := by
  show ((s.feed t).receive _).map id (s.world.withFeed t.machine) = _
  rw [Feed.receive_of_nil hq]
  exact congrArg _ (World.withFeed_feed s.world t.machine)

theorem receive_of_cons {c : Versioned (Item t.machine.State)}
    {rest : List (Versioned (Item t.machine.State))} (hq : s.queue t = c :: rest) :
    World.receive t.machine (t.number s.subscription) s.world = (some c, s.took t rest) := by
  show ((s.feed t).receive _).map id (s.world.withFeed t.machine) = _
  rw [Feed.receive_of_cons hq]
  rfl

theorem move_of_nil (hp : s.phase t = .idle) (hq : s.queue t = []) :
    s.move t = s.withPhase t (if (s.feed t).isOpen then .idle else .stopped) := by
  have hended : (s.feed t).ended (t.number s.subscription) = !(s.feed t).isOpen := by
    rw [Feed.ended, show (s.feed t).queue _ = [] from hq, List.isEmpty_nil, Bool.and_true]
  rw [move, hp]
  simp only [receive_of_nil hq, hended]
  cases (s.feed t).isOpen <;> rfl

theorem move_of_cons {c : Versioned (Item t.machine.State)}
    {rest : List (Versioned (Item t.machine.State))} (hp : s.phase t = .idle)
    (hq : s.queue t = c :: rest) :
    s.move t = { s with world := s.took t rest }.withPhase t (.holding c) := by
  rw [move, hp]
  simp only [receive_of_cons hq]

theorem move_of_holding {c : Versioned (Item t.machine.State)} (hp : s.phase t = .holding c) :
    s.move t = { s with
      world := (Pipeline.process World.itemSink t.watcher c s.world).2 }.withPhase t
        (.waiting (Pipeline.process World.itemSink t.watcher c s.world).1) := by
  rw [move, hp]
  rfl

theorem move_of_waiting {o : Outcome} (hp : s.phase t = .waiting o) :
    s.move t = { s with reports := s.reports.add t o }.withPhase t .idle := by
  rw [move, hp]

theorem withPhase_phase (s : Spawned) (t : World.Turn) : s.withPhase t (s.phase t) = s := by
  simp [withPhase]

/-- What a move of a task does. -/
inductive Moved (s : Spawned) (t : World.Turn) : Spawned → Prop
  | finds : s.phase t = .idle → s.queue t = [] → (s.feed t).isOpen = true → Moved s t s
  | stops : s.phase t = .idle → s.queue t = [] → (s.feed t).isOpen = false →
      Moved s t (s.withPhase t .stopped)
  | takes {c rest} : s.phase t = .idle → s.queue t = c :: rest →
      Moved s t ({ s with world := s.took t rest }.withPhase t (.holding c))
  | puts {c} : s.phase t = .holding c →
      Moved s t ({ s with
        world := (Pipeline.process World.itemSink t.watcher c s.world).2 }.withPhase t
          (.waiting (Pipeline.process World.itemSink t.watcher c s.world).1))
  | counts {o} : s.phase t = .waiting o →
      Moved s t ({ s with reports := s.reports.add t o }.withPhase t .idle)
  | rests : s.phase t = .stopped → Moved s t s

theorem moved_move (s : Spawned) (t : World.Turn) : s.Moved t (s.move t) := by
  cases hp : s.phase t with
  | idle =>
    cases hq : s.queue t with
    | nil =>
      rw [move_of_nil hp hq]
      cases ho : (s.feed t).isOpen with
      | true =>
        rw [if_pos rfl, ← hp, withPhase_phase]
        exact .finds hp hq ho
      | false => exact .stops hp hq ho
    | cons c rest =>
      rw [move_of_cons hp hq]
      exact .takes hp hq
  | holding c =>
    rw [move_of_holding hp]
    exact .puts hp
  | waiting o =>
    rw [move_of_waiting hp]
    exact .counts hp
  | stopped =>
    rw [move, hp]
    exact .rests hp

end Moves

section Sends

variable {m : MachineName}

/-- A save changes the feed of its own store, and only by a commit. -/
theorem send_spec (c : Saving m) (w : World) :
    ∃ answer, (c.send w).1 = .answer answer ∧
      ((c.send w).2.shelf m).feed = (w.shelf m).feed.after answer ∧
      (∀ n, n ≠ m → (c.send w).2.shelf n = w.shelf n) ∧ (c.send w).2.sink = w.sink := by
  set v : World := { w with now := c.now, lockFree := fun _ => c.lockFree } with hv
  have hshelf : ∀ n, v.shelf n = w.shelf n := fun n => by cases n <;> rfl
  rcases hs : (v.shelf m).save v.files v.now v.fresh (v.lockFree m) c.id c.item c.expected with
    ⟨answer, files, shelf⟩
  have hsend : c.send w = (.answer answer, v.saved m (answer, files, shelf)) := by
    rw [Saving.send, World.store, ← hv]
    simp only [hs]
  rw [hsend]
  refine ⟨answer, rfl, ?_, fun n hn => ?_, by cases m <;> rfl⟩
  · rw [World.shelf_saved, Shelf.feed_save hs, hshelf]
  · rw [World.shelf_saved_of_ne _ _ _ _ _ hn, hshelf]

end Sends

end Spawned
end ServiceCatalog
