import ServiceCatalog.Store.Backend
/-!
Stores that fail on purpose. A fault takes the place of one reply; a caller that gives up on a save
cannot tell whether it was committed. Other work can be put between a caller's read and its write.
-/
namespace ServiceCatalog

inductive Fault where
  | refuse (e : StoreError)
  | stall
  | commitThenStall
  deriving DecidableEq, Repr

/-- The faults of the next fetch and of the next save. -/
structure Faults where
  fetch : Option Fault := none
  save : Option Fault := none
  deriving DecidableEq, Repr

namespace Backend

variable {σ D : Type}

/-- A store with faults, which are kept somewhere in the state. -/
def faulty (faults : σ → Faults) (keep : Faults → σ → σ) (b : Backend σ D) : Backend σ D where
  fetch id := fun s =>
    let f := faults s
    let next := keep { f with fetch := none } s
    match f.fetch with
    | none | some .commitThenStall => b.fetch id s
    | some (.refuse e) => (.answer (.error e), next)
    | some .stall => (.stalled, next)
  save id document expected := fun s =>
    let f := faults s
    let next := keep { f with save := none } s
    match f.save with
    | none => b.save id document expected s
    | some (.refuse e) => (.answer (.error e), next)
    | some .stall => (.stalled, next)
    | some .commitThenStall => (.stalled, (b.save id document expected next).2)

/-- Does something else before each save. -/
def interrupted (work : StateM σ Unit) (b : Backend σ D) : Backend σ D where
  fetch := b.fetch
  save id document expected := do
    work
    b.save id document expected

/-- The store as part of a larger state. -/
def within {τ : Type} (part : τ → σ) (keep : σ → τ → τ) (b : Backend σ D) : Backend τ D where
  fetch id := fun t =>
    let (r, s) := b.fetch id (part t)
    (r, keep s t)
  save id document expected := fun t =>
    let (r, s) := b.save id document expected (part t)
    (r, keep s t)

end Backend
end ServiceCatalog
