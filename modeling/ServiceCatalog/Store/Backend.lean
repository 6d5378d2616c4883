import ServiceCatalog.Store.Record
/-!
A store as its callers see it: two operations on some state. A call either comes back or never
does; a caller that waits only so long is told the same in the second case whatever was written.
-/
namespace ServiceCatalog

inductive Reply (α : Type) where
  | answer (result : Except StoreError α)
  /-- Never comes back. -/
  | stalled

structure Backend (σ D : Type) where
  fetch : String → StateM σ (Reply (Option (Versioned D)))
  save : String → D → Option Token → StateM σ (Reply (Versioned D))

end ServiceCatalog
