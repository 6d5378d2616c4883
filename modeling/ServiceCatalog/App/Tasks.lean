import ServiceCatalog.App.World
/-!
The pipelines as tasks. They take turns in any order; one whose sink does not answer is stuck until its
wait is over. The outcomes of a pipeline do not depend on the turns of the others.
-/
namespace ServiceCatalog

structure Tasks where
  subscription : World.Subscription
  reports : World.Reports := {}
  stuck : List World.Turn := []

namespace Tasks

/-- How many commits are queued for a task. -/
def pending (w : World) (s : World.Subscription) : World.Turn → Nat
  | .editorial => (w.lifecycle.feed.queue s.editorial).length
  | .publicDetail => (w.publication.feed.queue s.publicDetail).length
  | .archive => (w.publication.feed.queue s.archive).length

def neverAnswers (w : World) (item : WorkItem) : Bool :=
  match w.sink with
  | .memory s => s.answer item == .stalled
  | .given s => s.answer s.asked item == .stalled
  | .log _ => false

/-- Up to so many turns of one task, until it is stuck. -/
def run (t : World.Turn) : Nat → World → Tasks → World × Tasks
  | 0, w, tasks => (w, tasks)
  | n + 1, w, tasks =>
    if t ∈ tasks.stuck then (w, tasks)
    else
      let ((o, reports), after) := World.turn tasks.subscription tasks.reports t w
      let tasks := { tasks with reports := reports }
      match o with
      | some (.failed item) =>
        run t n after (if neverAnswers w item then { tasks with stuck := t :: tasks.stuck } else tasks)
      | _ => run t n after tasks

def allTurns : List World.Turn := [.editorial, .publicDetail, .archive]

/-- Lets every task catch up with its feed. -/
def catchUp (w : World) (tasks : Tasks) : World × Tasks :=
  allTurns.foldl (fun s t => run t (pending s.1 tasks.subscription t) s.1 s.2) (w, tasks)

/-- So many turns of one task, all waits being over. -/
def finishOne (s : World.Subscription) (t : World.Turn) : Nat → World.Reports →
    StateM World World.Reports
  | 0, r => return r
  | n + 1, r => do
    let (_, r) ← World.turn s r t
    finishOne s t n r

/-- Runs every task to the end of its feed. -/
def finish (w : World) (tasks : Tasks) : World.Reports × World :=
  allTurns.foldl
    (fun s t => finishOne tasks.subscription t (pending s.2 tasks.subscription t) s.1 s.2)
    (tasks.reports, w)

end Tasks
end ServiceCatalog
