import ServiceCatalog.Proofs.App.World
import ServiceCatalog.Proofs.Watch.Pipeline

/-! The sink of the application: how it answers, and what it has taken after some items. -/
namespace ServiceCatalog

namespace ItemLog

theorem publishAll_append (path : String) (xs ys : List WorkItem) (files : FileTree) :
    publishAll path (xs ++ ys) files = (publishAll path xs files >>= publishAll path ys) := by
  induction xs generalizing files with
  | nil => rfl
  | cons x xs ih =>
    rw [List.cons_append, publishAll, publishAll]
    cases publish files path x with
    | error e => rfl
    | ok files => exact ih files

/-- Each item adds its line, and nothing else has changed. -/
theorem text_of_publishAll {path text : String} {q : Place} {items : List WorkItem}
    {files files' : FileTree} (h : publishAll path items files = .ok files')
    (hr : files.resolve (.ofText path) = .ok q) (hq : files.get? q = some (.file (.text text))) :
    files'.get? q = some (.file (.text (text ++ String.join (items.map line)))) ∧
      files.ChangesFiles {q} files' := by
  induction items generalizing files text with
  | nil =>
    cases h
    exact ⟨by simpa using hq, .refl _ _⟩
  | cons item items ih =>
    obtain ⟨published, hp, h⟩ := bind_eq_ok.mp h
    obtain ⟨-, q', old, hr', hold, hu⟩ := FileTree.append_eq_ok hp
    obtain rfl : q = q' := Except.ok.inj (hr.symm.trans hr')
    obtain rfl : .text text = old := by simpa [hq] using hold
    have hc : files.ChangesFiles {q} published :=
      .of_update rfl (by simp [hq]) (by simp) hu
    have hpublished : published.get? q = some (.file (.text (text ++ line item))) := by
      rw [hu, Function.update_self, Contents.append_text]
    obtain ⟨htext, hrest⟩ := ih h (hc.resolve_eq_ok_iff.mpr hr) hpublished
    refine ⟨?_, hc.trans hrest⟩
    rw [htext, List.map_cons, String.join_cons, String.append_assoc]

end ItemLog

/-- The sink judges each item by itself, and keeps those that it accepts. -/
def SinkState.Judges (answer : WorkItem → Delivery) : SinkState → Prop
  | .memory s => s.answer = answer
  | .given s => s.answer = fun _ => answer
  | .log _ => False

namespace World

variable {w w' w'' : World} {tried retried : Nat} {items others : List WorkItem}

/-- The sink's answer to an item that so many attempts from now come before. -/
def answer (w : World) (n : Nat) (item : WorkItem) : Delivery :=
  match w.sink with
  | .memory s => s.answer item
  | .given s => s.answer (s.asked + n) item
  | .log path =>
    match ItemLog.publish w.files path item with
    | .ok _ => .accepted
    | .error _ => .refused

/-- The sink was tried so many times and has taken these items in this order, and no others. -/
def Received (w : World) (tried : Nat) (items : List WorkItem) (w' : World) : Prop :=
  match w.sink with
  | .memory s => w'.sink = .memory { s with items := s.items ++ items } ∧ w'.files = w.files
  | .given s =>
    w'.sink = .given { s with asked := s.asked + tried, items := s.items ++ items } ∧
      w'.files = w.files
  | .log path => w'.sink = .log path ∧ ItemLog.publishAll path items w.files = .ok w'.files

theorem Received.refl (w : World) : w.Received 0 [] w := by
  unfold Received
  cases w.sink with
  | memory s => simp
  | given s => simp
  | log path => exact ⟨rfl, rfl⟩

theorem Received.trans (h : w.Received tried items w') (h' : w'.Received retried others w'') :
    w.Received (tried + retried) (items ++ others) w'' := by
  unfold Received at h h' ⊢
  cases hs : w.sink with
  | memory s =>
    rw [hs] at h
    rw [h.1] at h'
    simpa [h.2] using h'
  | given s =>
    rw [hs] at h
    rw [h.1] at h'
    simpa [h.2, Nat.add_assoc] using h'
  | log path =>
    rw [hs] at h
    rw [h.1] at h'
    refine ⟨h'.1, ?_⟩
    rw [ItemLog.publishAll_append, h.2]
    exact h'.2

/-- Items were put to the sink and nothing else was done. The sink goes on answering as it would have
done anyway, so that what became of these items matters to no other. -/
structure Publishes (w : World) (tried : Nat) (items : List WorkItem) (w' : World) : Prop where
  received : w.Received tried items w'
  answer : w'.answer = fun n => w.answer (n + tried)
  shelf : ∀ m, w'.shelf m = w.shelf m
  now : w'.now = w.now

theorem Publishes.refl (w : World) : w.Publishes 0 [] w := ⟨.refl w, rfl, fun _ => rfl, rfl⟩

theorem Publishes.trans (h : w.Publishes tried items w')
    (h' : w'.Publishes retried others w'') :
    w.Publishes (tried + retried) (items ++ others) w'' where
  received := h.received.trans h'.received
  answer := by
    rw [h'.answer, h.answer]
    funext n
    show w.answer (n + retried + tried) = _
    rw [Nat.add_comm tried, Nat.add_assoc]
  shelf m := (h'.shelf m).trans (h.shelf m)
  now := h'.now.trans h.now

theorem answer_of_memory {s : MemorySink} (h : w.sink = .memory s) :
    w.answer = fun _ => s.answer := by
  unfold World.answer
  rw [h]

theorem answer_of_given {s : GivenSink} (h : w.sink = .given s) :
    w.answer = fun n => s.answer (s.asked + n) := by
  unfold World.answer
  rw [h]

/-- A log that can be written to takes every item. -/
theorem answer_of_log {path : String} (h : w.sink = .log path)
    (ht : w.files.TakesText (.ofText path)) (n : Nat) (item : WorkItem) :
    w.answer n item = .accepted := by
  obtain ⟨files, hfiles⟩ := ht.append (ItemLog.line item)
  unfold World.answer ItemLog.publish
  rw [h]
  dsimp only
  rw [hfiles]

theorem publish_fst (w : World) (item : WorkItem) : (publish item w).1 = w.answer 0 item := by
  unfold publish World.answer
  cases w.sink with
  | memory s =>
    dsimp only [MemorySink.publish]
    cases s.answer item <;> rfl
  | given s =>
    dsimp only
    rw [Nat.add_zero]
    cases s.answer s.asked item <;> rfl
  | log path =>
    dsimp only
    cases ItemLog.publish w.files path item <;> rfl

theorem publishes_of_memory {s : MemorySink} (hs : w.sink = .memory s) (item : WorkItem) :
    w.Publishes 1 (delivered [.of item (publish item w).1]) (publish item w).2 := by
  unfold publish MemorySink.publish
  rw [hs]
  dsimp only
  cases s.answer item
  all_goals
    refine ⟨?_, ?_, fun m => by cases m <;> rfl, rfl⟩
    · rw [Received, hs]
      simp [delivered, Outcome.of]
    · rw [answer_of_memory hs]
      rfl

theorem publishes_of_given {s : GivenSink} (hs : w.sink = .given s) (item : WorkItem) :
    w.Publishes 1 (delivered [.of item (publish item w).1]) (publish item w).2 := by
  unfold publish
  rw [hs]
  dsimp only
  cases s.answer s.asked item
  all_goals
    refine ⟨?_, ?_, fun m => by cases m <;> rfl, rfl⟩
    · rw [Received, hs]
      simp [delivered, Outcome.of]
    · rw [answer_of_given hs, answer_of_given rfl]
      simp only [Nat.add_assoc, Nat.add_comm 1]

/-- A log that has taken one item takes the next, and one that cannot be written to takes none. -/
theorem publishes_of_log {path : String} (hs : w.sink = .log path) (item : WorkItem) :
    w.Publishes 1 (delivered [.of item (publish item w).1]) (publish item w).2 := by
  cases hp : ItemLog.publish w.files path item with
  | error e =>
    have hpublish : publish item w = (.refused, w) := by simp [publish, hs, hp]
    rw [hpublish]
    refine ⟨?_, ?_, fun _ => rfl, rfl⟩
    · rw [Received, hs]
      exact ⟨rfl, rfl⟩
    · unfold World.answer
      rw [hs]
  | ok files =>
    have hpublish : publish item w = (.accepted, { w with files := files }) := by
      simp [publish, hs, hp]
    obtain ⟨ht, ht'⟩ := FileTree.takesText_of_append hp
    rw [hpublish]
    refine ⟨?_, ?_, fun m => by cases m <;> rfl, rfl⟩
    · rw [Received, hs]
      exact ⟨rfl, show (ItemLog.publish w.files path item >>= pure) = _ by rw [hp]; rfl⟩
    · funext n other
      rw [answer_of_log hs ht, answer_of_log (w := { w with files := files }) hs ht']

theorem publishes_publish (w : World) (item : WorkItem) :
    w.Publishes 1 (delivered [.of item (publish item w).1]) (publish item w).2 := by
  cases hs : w.sink with
  | memory s => exact publishes_of_memory hs item
  | given s => exact publishes_of_given hs item
  | log path => exact publishes_of_log hs item

/-- The sink does not look at the queues. -/
theorem publish_withFeed (w : World) (m : MachineName) (f : Feed (Item m.State)) (item : WorkItem) :
    publish item (w.withFeed m f) = ((publish item w).1, (publish item w).2.withFeed m f) := by
  have hsink : (w.withFeed m f).sink = w.sink := by cases m <;> rfl
  have hfiles : (w.withFeed m f).files = w.files := by cases m <;> rfl
  unfold publish
  rw [hsink, hfiles]
  cases w.sink with
  | memory s => cases m <;> rfl
  | given s =>
    dsimp only
    cases s.answer s.asked item <;> cases m <;> rfl
  | log path =>
    dsimp only
    cases ItemLog.publish w.files path item <;> cases m <;> rfl

theorem answer_withFeed (w : World) (m : MachineName) (f : Feed (Item m.State)) :
    (w.withFeed m f).answer = w.answer := by
  cases m <;> rfl

section Process

variable {S : Type} [Named S] (watcher : Watcher S)

theorem process_eq (c : Versioned (Item S)) (w : World) :
    dispatched w.answer [watcher.handle c] = [(Pipeline.process itemSink watcher c w).1] ∧
      w.Publishes (attempts [watcher.handle c])
        (delivered [(Pipeline.process itemSink watcher c w).1])
        (Pipeline.process itemSink watcher c w).2 := by
  by_cases hc : watcher.handle c = .noAction
  · rw [Pipeline.process_of_noAction hc, hc]
    exact ⟨rfl, .refl w⟩
  · rw [Pipeline.process_of_ne hc, dispatched_of_ne hc, attempts_of_ne hc]
    exact ⟨by rw [← publish_fst]; rfl, publishes_publish w _⟩

theorem process_withFeed (c : Versioned (Item S)) (w : World) (m : MachineName)
    (f : Feed (Item m.State)) : Pipeline.process itemSink watcher c (w.withFeed m f) =
      ((Pipeline.process itemSink watcher c w).1,
        (Pipeline.process itemSink watcher c w).2.withFeed m f) := by
  by_cases hc : watcher.handle c = .noAction
  · rw [Pipeline.process_of_noAction hc, Pipeline.process_of_noAction hc]
  · rw [Pipeline.process_of_ne hc, Pipeline.process_of_ne hc]
    show (Outcome.of _ (publish _ _).1, (publish _ _).2) = _
    rw [publish_withFeed]
    rfl

/-- Every commit comes to its own outcome. -/
theorem processAll_eq (cs : List (Versioned (Item S))) (w : World) :
    (Pipeline.processAll itemSink watcher cs w).1 = dispatched w.answer (cs.map watcher.handle) ∧
      w.Publishes (attempts (cs.map watcher.handle))
        (delivered (dispatched w.answer (cs.map watcher.handle)))
        (Pipeline.processAll itemSink watcher cs w).2 := by
  induction cs generalizing w with
  | nil => exact ⟨rfl, .refl w⟩
  | cons c cs ih =>
    obtain ⟨hhead, hpublishes⟩ := process_eq watcher c w
    obtain ⟨htail, hrest⟩ := ih (Pipeline.process itemSink watcher c w).2
    rw [hpublishes.answer] at htail hrest
    have hitems : (c :: cs).map watcher.handle = [watcher.handle c] ++ cs.map watcher.handle := rfl
    rw [Pipeline.processAll_cons, hitems, dispatched_append, attempts_append, delivered_append, hhead,
      htail]
    exact ⟨rfl, hpublishes.trans hrest⟩

theorem processAll_withFeed (cs : List (Versioned (Item S))) (w : World) (m : MachineName)
    (f : Feed (Item m.State)) : Pipeline.processAll itemSink watcher cs (w.withFeed m f) =
      ((Pipeline.processAll itemSink watcher cs w).1,
        (Pipeline.processAll itemSink watcher cs w).2.withFeed m f) := by
  induction cs generalizing w with
  | nil => rfl
  | cons c cs ih =>
    rw [Pipeline.processAll_cons, Pipeline.processAll_cons, process_withFeed, ih]

end Process

section Judges

variable {S : Type} [Named S] {watcher : Watcher S} {answer : WorkItem → Delivery}

theorem answer_of_judges (h : w.sink.Judges answer) : w.answer = fun _ => answer := by
  cases hs : w.sink with
  | memory s =>
    rw [hs] at h
    rw [answer_of_memory hs, h]
  | given s =>
    rw [hs] at h
    rw [answer_of_given hs, h]
  | log path =>
    rw [hs] at h
    exact h.elim

theorem Received.judges (h : w.Received tried items w') (hj : w.sink.Judges answer) :
    w'.sink.Judges answer ∧ w'.keptItems = w.keptItems ++ items := by
  unfold Received at h
  unfold keptItems
  cases hs : w.sink with
  | memory s =>
    rw [hs] at h hj
    rw [h.1]
    exact ⟨hj, rfl⟩
  | given s =>
    rw [hs] at h hj
    rw [h.1]
    exact ⟨hj, rfl⟩
  | log path =>
    rw [hs] at hj
    exact hj.elim

theorem process_of_judges (hj : w.sink.Judges answer) (c : Versioned (Item S)) :
    (Pipeline.process itemSink watcher c w).1 = watcher.outcome answer c := by
  have h := (process_eq watcher c w).1
  rw [answer_of_judges hj, dispatched_of_item] at h
  exact (List.singleton_inj.mp h).symm

theorem processAll_of_judges (hj : w.sink.Judges answer) (cs : List (Versioned (Item S))) :
    (Pipeline.processAll itemSink watcher cs w).1 = cs.map (watcher.outcome answer) := by
  rw [(processAll_eq watcher cs w).1, answer_of_judges hj, dispatched_of_item, List.map_map]
  rfl

end Judges

end World
end ServiceCatalog
