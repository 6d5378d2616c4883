import ServiceCatalog.App.Controller
import ServiceCatalog.Store.Shelf
import ServiceCatalog.Watch.ItemLog
import ServiceCatalog.Watch.Pipeline
/-!
The wired application: a store and a feed for each machine, the topics with their cache, the clock,
and the sink for work items. All of its steps are functions on one state.
-/
namespace ServiceCatalog

/-- A sink that the application is given. It answers as it likes and keeps what it accepts. -/
structure GivenSink where
  /-- The answer to an item, by how many it was asked to take before. -/
  answer : Nat → WorkItem → Delivery
  asked : Nat := 0
  items : List WorkItem := []

inductive SinkState where
  | memory (sink : MemorySink)
  | given (sink : GivenSink)
  | log (path : String)

structure World where
  now : Instant
  /-- The tokens that commits are given, in order, and how many have been given. -/
  mint : Nat → Token
  issued : Nat := 0
  files : FileTree := {}
  lifecycle : Shelf (Item Lifecycle.State) := .memory {}
  publication : Shelf (Item Publication.State) := .memory {}
  /-- Whether nobody else holds the lock of a machine's directory. -/
  lockFree : MachineName → Bool := fun _ => true
  topicList : List Topic := []
  topicCache : Cache (List Topic)
  sink : SinkState := .memory {}

namespace World

def fresh (w : World) : Token := w.mint w.issued

/-- A token is used up by a commit only. -/
def issuedAfter {α : Type} (w : World) : Except StoreError α → Nat
  | .ok _ => w.issued + 1
  | .error _ => w.issued

/-- The store of a machine. -/
def shelf (w : World) : (m : MachineName) → Shelf (Item m.State)
  | .lifecycle => w.lifecycle
  | .publication => w.publication

def withShelf (w : World) : (m : MachineName) → Shelf (Item m.State) → World
  | .lifecycle, s => { w with lifecycle := s }
  | .publication, s => { w with publication := s }

def withFeed (w : World) (m : MachineName) (f : Feed (Item m.State)) : World :=
  w.withShelf m ((w.shelf m).withFeed f)

/-- What a save leaves: its answer, the files and the store. -/
def saved {α : Type} (w : World) (m : MachineName) :
    Except StoreError α × FileTree × Shelf (Item m.State) → World
  | (r, files, s) => { w.withShelf m s with files := files, issued := w.issuedAfter r }

def store (m : MachineName) : Backend World (Item m.State) where
  fetch id := fun w => (.answer ((w.shelf m).fetch w.files id), w)
  save id item expected := fun w =>
    let after := (w.shelf m).save w.files w.now w.fresh (w.lockFree m) id item expected
    (.answer after.1, w.saved m after)

def lifecycleStore : Backend World (Item Lifecycle.State) := store .lifecycle

def publicationStore : Backend World (Item Publication.State) := store .publication

/-- The topics through the cache. -/
def topics : StateM World (Except LoadError (List Topic)) := fun w =>
  let ((r, cache), w) := w.topicCache.get w.now (pure (Topic.load w.topicList)) w
  (r, { w with topicCache := cache })

def controller (limits : Timeouts) : Controller World where
  lifecycle := lifecycleStore
  publication := publicationStore
  topics := topics
  limits := limits

def publish (item : WorkItem) : StateM World Delivery := fun w =>
  match w.sink with
  | .memory s =>
    let (d, s) := s.publish item
    (d, { w with sink := .memory s })
  | .given s =>
    let next := { s with asked := s.asked + 1 }
    match s.answer s.asked item with
    | .accepted => (.accepted, { w with sink := .given { next with items := s.items ++ [item] } })
    | d => (d, { w with sink := .given next })
  | .log path =>
    match ItemLog.publish w.files path item with
    | .ok files => (.accepted, { w with files := files })
    | .error _ => (.refused, w)

def itemSink : Sink World := ⟨publish⟩

/-- What the sink has kept, if it is not a log. -/
def keptItems (w : World) : List WorkItem :=
  match w.sink with
  | .memory s => s.items
  | .given s => s.items
  | .log _ => []

/-- Changes the sink in memory. -/
def mapSink (f : MemorySink → MemorySink) (w : World) : World :=
  match w.sink with
  | .memory s => { w with sink := .memory (f s) }
  | .given _ => w
  | .log _ => w

/-- One queue for each pipeline. -/
structure Subscription where
  editorial : Nat
  publicDetail : Nat
  archive : Nat
  deriving DecidableEq, Repr

def subscribe (w : World) : Subscription × World :=
  let (a, f) := w.lifecycle.feed.subscribe
  let (b, g) := w.publication.feed.subscribe
  let (c, g) := g.subscribe
  (⟨a, b, c⟩, (w.withFeed .lifecycle f).withFeed .publication g)

/-- Drops a subscription. -/
def unsubscribe (w : World) (s : Subscription) : World :=
  (w.withFeed .lifecycle (w.lifecycle.feed.leave s.editorial)).withFeed .publication
    ((w.publication.feed.leave s.publicDetail).leave s.archive)

/-- Takes what is queued for a subscriber of a machine. -/
def take (m : MachineName) (n : Nat) : StateM World (List (Versioned (Item m.State))) := fun w =>
  let (rs, f) := (w.shelf m).feed.receiveAll n
  (rs, w.withFeed m f)

def takeLifecycle (n : Nat) : StateM World (List (Versioned (Item Lifecycle.State))) :=
  take .lifecycle n

def takePublication (n : Nat) : StateM World (List (Versioned (Item Publication.State))) :=
  take .publication n

/-- Runs every pipeline over the commits since the subscription. -/
def drain (s : Subscription) : StateM World (List Outcome) := do
  let a ← Pipeline.processAll itemSink Watcher.editorial (← takeLifecycle s.editorial)
  let b ← Pipeline.processAll itemSink Watcher.publicDetail (← takePublication s.publicDetail)
  let c ← Pipeline.processAll itemSink Watcher.archive (← takePublication s.archive)
  return a ++ b ++ c

/-- The pipelines as tasks, each counting what it has received so far. -/
structure Reports where
  editorial : Report := {}
  publicDetail : Report := {}
  archive : Report := {}
  deriving DecidableEq, Repr

/-- The task whose turn it is. -/
inductive Turn where
  | editorial
  | publicDetail
  | archive
  deriving DecidableEq, Repr

/-- Takes the oldest commit that is queued for a subscriber of a machine. -/
def receive (m : MachineName) (n : Nat) : StateM World (Option (Versioned (Item m.State))) := fun w =>
  let (r, f) := (w.shelf m).feed.receive n
  (r, w.withFeed m f)

/-- One task takes one commit from its queue, if there is one, and follows it up. -/
def turn (s : Subscription) (r : Reports) : Turn → StateM World (Option Outcome × Reports)
  | .editorial => do
    match ← receive .lifecycle s.editorial with
    | none => return (none, r)
    | some c =>
      let o ← Pipeline.process itemSink Watcher.editorial c
      return (some o, { r with editorial := r.editorial.add o })
  | .publicDetail => do
    match ← receive .publication s.publicDetail with
    | none => return (none, r)
    | some c =>
      let o ← Pipeline.process itemSink Watcher.publicDetail c
      return (some o, { r with publicDetail := r.publicDetail.add o })
  | .archive => do
    match ← receive .publication s.archive with
    | none => return (none, r)
    | some c =>
      let o ← Pipeline.process itemSink Watcher.archive c
      return (some o, { r with archive := r.archive.add o })

end World
end ServiceCatalog
