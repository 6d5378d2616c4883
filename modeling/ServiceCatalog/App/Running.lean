import ServiceCatalog.App.Tasks
/-!
The application with its tasks beside it, if they have been started. They run when the caller waits:
for a store on disk to finish a save, and for a sink that never answers.
-/
namespace ServiceCatalog

structure Running where
  world : World
  tasks : Option Tasks := none

namespace Running

def onWorld {α : Type} (f : StateM World α) : StateM Running α := fun s =>
  let (r, w) := f s.world
  (r, { s with world := w })

/-- Lets the tasks catch up. -/
def yield (s : Running) : Running :=
  match s.tasks with
  | some tasks =>
    let (w, tasks) := Tasks.catchUp s.world tasks
    ⟨w, some tasks⟩
  | none => s

/-- Ends the waits of the tasks. -/
def wake (s : Running) : Running :=
  { s with tasks := s.tasks.map fun t => { t with stuck := [] } }

def isOnDisk (w : World) : Bool :=
  match w.lifecycle with
  | .memory _ => false
  | .directory _ => true

/-- While a store on disk finishes a save, the tasks follow up its commit. -/
def waiting {D : Type} (b : Backend World D) : Backend Running D where
  fetch id := onWorld (b.fetch id)
  save id document expected := fun s =>
    let (r, s) := onWorld (b.save id document expected) s
    (r, if isOnDisk s.world then s.yield else s)

def controller (limits : Timeouts) : Controller Running where
  lifecycle := waiting World.lifecycleStore
  publication := waiting World.publicationStore
  topics := onWorld World.topics
  limits := limits

/-- While a publish waits in vain, the tasks run, and their own waits end with it. -/
def itemSink : Sink Running where
  publish item := fun s =>
    let (d, s) := onWorld (World.publish item) s
    (d, if d = .stalled then s.yield.wake else s)

/-- Runs every pipeline over the commits since the subscription. -/
def drain (s : World.Subscription) : StateM Running (List Outcome) := do
  let a ← Pipeline.processAll itemSink Watcher.editorial
    (← onWorld (World.takeLifecycle s.editorial))
  let b ← Pipeline.processAll itemSink Watcher.publicDetail
    (← onWorld (World.takePublication s.publicDetail))
  let c ← Pipeline.processAll itemSink Watcher.archive (← onWorld (World.takePublication s.archive))
  return a ++ b ++ c

/-- Starts the tasks. -/
def start (w : World) : Running :=
  let (s, w) := w.subscribe
  ⟨w, some { subscription := s }⟩

/-- Lets the tasks come to the end of their feeds. -/
def finish (s : Running) : World.Reports × World :=
  match s.tasks with
  | some tasks => Tasks.finish s.world tasks
  | none => ({}, s.world)

end Running
end ServiceCatalog
