import ServiceCatalog.Store.Record
/-!
The change feed: every commit is put into one queue for each subscriber. A slow subscriber keeps its
backlog. A subscriber that has left is forgotten at the next commit, and when the feed is closed each
one still receives what is queued for it.
-/
namespace ServiceCatalog

structure Feed (D : Type) where
  /-- Where commits are sent, in order of subscription. -/
  senders : List Nat := []
  /-- The queues of the subscribers that have not left. -/
  queues : List (Nat × List (Versioned D)) := []
  /-- The next subscriber's number. -/
  next : Nat := 0
  isOpen : Bool := true

namespace Feed

variable {D : Type}

def isLive (f : Feed D) (n : Nat) : Bool := (f.queues.map (·.1)).contains n

def subscribe (f : Feed D) : Nat × Feed D :=
  (f.next, { f with
    senders := f.senders ++ [f.next], queues := f.queues ++ [(f.next, [])], next := f.next + 1 })

/-- The subscriber drops its queue; it is still counted until the next commit. -/
def leave (f : Feed D) (n : Nat) : Feed D :=
  { f with queues := f.queues.filter fun q => q.1 != n }

def count (f : Feed D) : Nat := f.senders.length

/-- Queues a commit for every subscriber that is still there. -/
def publish (f : Feed D) (r : Versioned D) : Feed D :=
  let live := f.senders.filter f.isLive
  { f with
    senders := live,
    queues := f.queues.map fun q => if live.contains q.1 then (q.1, q.2 ++ [r]) else q }

/-- What is queued for a subscriber. -/
def queue (f : Feed D) (n : Nat) : List (Versioned D) :=
  ((f.queues.find? (·.1 == n)).map (·.2)).getD []

/-- Takes the oldest commit of a subscriber's queue. -/
def receive (f : Feed D) (n : Nat) : Option (Versioned D) × Feed D :=
  match f.queue n with
  | [] => (none, f)
  | r :: rest =>
    (some r, { f with queues := f.queues.map fun q => if q.1 == n then (n, rest) else q })

/-- Takes all of a subscriber's queue. -/
def receiveAll (f : Feed D) (n : Nat) : List (Versioned D) × Feed D :=
  (f.queue n, { f with queues := f.queues.map fun q => if q.1 == n then (n, []) else q })

/-- No more commits will come. -/
def close (f : Feed D) : Feed D := { f with senders := [], isOpen := false }

/-- A subscriber with nothing queued sees the end once the feed is closed. -/
def ended (f : Feed D) (n : Nat) : Bool := !f.isOpen && (f.queue n).isEmpty

end Feed
end ServiceCatalog
