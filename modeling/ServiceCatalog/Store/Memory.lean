import ServiceCatalog.Store.Feed
/-! The store kept in memory. A save compares, commits and publishes in one step. -/
namespace ServiceCatalog

structure Memory (D : Type) where
  records : List (Versioned D) := []
  feed : Feed D := {}

namespace Memory

variable {D : Type}

def get? (s : Memory D) (id : String) : Option (Versioned D) :=
  s.records.find? (·.id == id)

def size (s : Memory D) : Nat := s.records.length

/-- Replaces the record of that id, or adds it. -/
def put : List (Versioned D) → Versioned D → List (Versioned D)
  | [], r => [r]
  | q :: rest, r => if q.id == r.id then r :: rest else q :: put rest r

def fetch (s : Memory D) (id : String) : Except StoreError (Option (Versioned D)) := do
  validateId id
  return s.get? id

/-- Commits under the token `fresh` at time `now` if `expected` is the stored token. -/
def save (s : Memory D) (now : Instant) (fresh : Token) (id : String) (document : D)
    (expected : Option Token) : Except StoreError (Versioned D × Memory D) := do
  validateId id
  let actual := (s.get? id).map (·.version)
  if actual = expected then
    let r : Versioned D := ⟨id, document, fresh, now⟩
    return (r, { records := put s.records r, feed := s.feed.publish r })
  else throw (.conflict id expected actual)

end Memory
end ServiceCatalog
