import ServiceCatalog.Watch.Watcher
/-!
Pipelines: a watcher and the sink that takes its work items. Each commit comes to one outcome, and a
failure to publish one item touches no other.
-/
namespace ServiceCatalog

/-- What publishing an item comes to. -/
inductive Delivery where
  | accepted
  | refused
  /-- Never comes back, so that the publisher gives up. -/
  | stalled
  deriving DecidableEq, Repr

structure Sink (σ : Type) where
  publish : WorkItem → StateM σ Delivery

inductive Outcome where
  | skipped
  | delivered (item : WorkItem)
  | failed (item : WorkItem)
  deriving DecidableEq, Repr

/-- Counts over the commits that a pipeline has received. -/
structure Report where
  received : Nat := 0
  delivered : Nat := 0
  skipped : Nat := 0
  failed : Nat := 0
  deriving DecidableEq, Repr

def Report.add (r : Report) : Outcome → Report
  | .skipped => { r with received := r.received + 1, skipped := r.skipped + 1 }
  | .delivered _ => { r with received := r.received + 1, delivered := r.delivered + 1 }
  | .failed _ => { r with received := r.received + 1, failed := r.failed + 1 }

namespace Pipeline

variable {σ S : Type} [Named S]

def process (sink : Sink σ) (w : Watcher S) (changed : Versioned (Item S)) : StateM σ Outcome := do
  let item := w.handle changed
  if item.isActionable then
    match ← sink.publish item with
    | .accepted => return .delivered item
    | .refused | .stalled => return .failed item
  else return .skipped

/-- The outcomes of commits in order. -/
def processAll (sink : Sink σ) (w : Watcher S) : List (Versioned (Item S)) → StateM σ (List Outcome)
  | [] => return []
  | c :: rest => do
    let o ← process sink w c
    return o :: (← processAll sink w rest)

/-- Consumes a feed to its end, counting. -/
def run (sink : Sink σ) (w : Watcher S) : Report → List (Versioned (Item S)) → StateM σ Report
  | r, [] => return r
  | r, c :: rest => do
    let o ← process sink w c
    run sink w (r.add o) rest

end Pipeline

/-- Keeps accepted items in memory; items of some subjects are refused or never finish. -/
structure MemorySink where
  items : List WorkItem := []
  refusals : List (String × Delivery) := []
  deriving DecidableEq, Repr

namespace MemorySink

def answer (s : MemorySink) (w : WorkItem) : Delivery :=
  match w.subjectId with
  | some id => ((s.refusals.find? (·.1 == id)).map (·.2)).getD .accepted
  | none => .accepted

def publish (s : MemorySink) (w : WorkItem) : Delivery × MemorySink :=
  match s.answer w with
  | .accepted => (.accepted, { s with items := s.items ++ [w] })
  | d => (d, s)

def sink : Sink MemorySink := ⟨fun w s => s.publish w⟩

end MemorySink
end ServiceCatalog
