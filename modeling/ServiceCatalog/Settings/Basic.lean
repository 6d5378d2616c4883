import ServiceCatalog.App.Topic
import ServiceCatalog.Workflow.Machine
/-!
The settings of the program, in four sections. Every setting has a default; four numbers must be
positive. A time to live is a number of seconds whose milliseconds must fit 64 bits before it can be
used.
-/
namespace ServiceCatalog

/-- Where records live. -/
inductive Storage where
  | memory
  | filesystem
  deriving DecidableEq, Repr

structure StoreSettings where
  storage : Storage := .filesystem
  directory : String := ".services-cms/store"
  /-- Both in milliseconds. -/
  fetchTimeout : Nat := 5000
  saveTimeout : Nat := 5000
  deriving DecidableEq, Repr

structure SinkSettings where
  path : String := ".services-cms/work-items.jsonl"
  publishTimeout : Nat := 5000
  deriving DecidableEq, Repr

def defaultTopics : List Topic :=
  [⟨0, "Other"⟩, ⟨1, "Environment"⟩, ⟨2, "Health"⟩, ⟨3, "Mobility"⟩, ⟨4, "Taxes"⟩, ⟨5, "Education"⟩]

structure TopicSettings where
  ttlSeconds : Nat := 3600
  list : List Topic := defaultTopics
  deriving DecidableEq, Repr

structure LogSettings where
  level : String := "info"
  /-- Log lines as JSON. -/
  json : Bool := true
  deriving DecidableEq, Repr

structure Settings where
  store : StoreSettings := {}
  sink : SinkSettings := {}
  topics : TopicSettings := {}
  log : LogSettings := {}
  deriving DecidableEq, Repr

namespace Storage

def text : Storage → String
  | .memory => "memory"
  | .filesystem => "filesystem"

def names : List (String × Storage) := [("memory", .memory), ("filesystem", .filesystem)]

end Storage

/-- Numbers that must be positive. -/
inductive PositiveSetting where
  | fetchTimeout
  | saveTimeout
  | publishTimeout
  | ttlSeconds
  deriving DecidableEq, Repr

namespace PositiveSetting

def key : PositiveSetting → String
  | .fetchTimeout => "store.fetch_timeout_ms"
  | .saveTimeout => "store.save_timeout_ms"
  | .publishTimeout => "sink.publish_timeout_ms"
  | .ttlSeconds => "topics.ttl_seconds"

def value (s : Settings) : PositiveSetting → Nat
  | .fetchTimeout => s.store.fetchTimeout
  | .saveTimeout => s.store.saveTimeout
  | .publishTimeout => s.sink.publishTimeout
  | .ttlSeconds => s.topics.ttlSeconds

/-- In the order in which they are checked. -/
def all : List PositiveSetting := [.fetchTimeout, .saveTimeout, .publishTimeout, .ttlSeconds]

def message (p : PositiveSetting) : String := p.key ++ " must be positive"

end PositiveSetting

namespace Settings

/-- The first number that is not positive. -/
def nonPositive? (s : Settings) : Option PositiveSetting :=
  PositiveSetting.all.find? fun p => p.value s == 0

def timeouts (s : Settings) : Timeouts := ⟨s.store.fetchTimeout, s.store.saveTimeout⟩

def maxSigned : Nat := 1 <<< 63 - 1

/-- The greatest number of seconds that a span in milliseconds can hold. -/
def maxSpanSeconds : Nat := maxSigned / 1000

/-- None when the seconds are too many for a span. -/
def topicsTtl? (s : Settings) : Option Span :=
  let seconds := min s.topics.ttlSeconds maxSigned
  if seconds ≤ maxSpanSeconds then some (Span.ofSeconds seconds) else none

end Settings
end ServiceCatalog
