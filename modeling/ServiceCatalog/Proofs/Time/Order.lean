import ServiceCatalog.Time.Instant

/-! Instants in the order of time. -/
namespace ServiceCatalog.Instant

/-- In the order of time a leap second comes between the second that it extends and the next. -/
def NotAfter (s t : Instant) : Prop :=
  s.seconds < t.seconds ∨ s.seconds = t.seconds ∧ s.nanos ≤ t.nanos

instance (s t : Instant) : Decidable (NotAfter s t) :=
  inferInstanceAs (Decidable (_ ∨ _))

theorem NotAfter.refl (t : Instant) : NotAfter t t := .inr ⟨rfl, Nat.le_refl _⟩

theorem NotAfter.trans {s t u : Instant} (h : NotAfter s t) (h' : NotAfter t u) : NotAfter s u := by
  unfold NotAfter at *
  omega

end ServiceCatalog.Instant
