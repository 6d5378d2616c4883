import ServiceCatalog.Time.Instant
/-!
A value kept for a while. Within its time to live the kept value is answered without a load; after
that each look-up loads again, and while loads fail the old value is answered.
-/
namespace ServiceCatalog

structure LoadError where
  reason : String
  deriving DecidableEq, Repr

def LoadError.message (e : LoadError) : String := s!"failed to load reference data: {e.reason}"

structure Cache (V : Type) where
  ttl : Span
  /-- The value of the last successful load, with the time it was asked for. -/
  slot : Option (V × Instant) := none
  deriving DecidableEq, Repr

namespace Cache

variable {V σ : Type}

/-- The kept value while it is young enough. -/
def fresh? (c : Cache V) (now : Instant) : Option V :=
  match c.slot with
  | some (v, loadedAt) => if now.since loadedAt < c.ttl then some v else none
  | none => none

/-- After a load: a value is kept, an error gives way to what was kept before. -/
def settle (c : Cache V) (now : Instant) : Except LoadError V → Except LoadError V × Cache V
  | .ok v => (.ok v, { c with slot := some (v, now) })
  | .error e =>
    match c.slot with
    | some (v, _) => (.ok v, c)
    | none => (.error e, c)

def get (c : Cache V) (now : Instant) (load : StateM σ (Except LoadError V)) :
    StateM σ (Except LoadError V × Cache V) := do
  match c.fresh? now with
  | some v => return (.ok v, c)
  | none => return c.settle now (← load)

def invalidate (c : Cache V) : Cache V := { c with slot := none }

end Cache
end ServiceCatalog
