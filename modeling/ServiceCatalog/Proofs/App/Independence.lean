import ServiceCatalog.Proofs.App.Slots

/-!
Services do not influence each other. However the requests about many services of both machines are
mixed, each service is answered and ends as if it had been alone.
-/
namespace ServiceCatalog

namespace Ask

def isFor (m : MachineName) (id : String) : Ask → Bool
  | .act n _ i _ => n == m && i == id
  | .lookUp n i => n == m && i == id
  | .listTopics => false

def isOf (m : MachineName) : Ask → Bool
  | .act n _ _ _ => n == m
  | .lookUp n _ => n == m
  | .listTopics => false

/-- The requests that `p` holds of are those about ids in `I`. -/
def Selects (p : Ask → Bool) (I : MachineName → String → Prop) : Prop :=
  ∀ q : Ask, (p q = true → q.Within I) ∧ (p q = false → q.Within fun m id => ¬I m id)

theorem selects_isFor (m : MachineName) (id : String) :
    Selects (isFor m id) fun n i => n = m ∧ i = id := by
  intro q
  cases q <;> simp [isFor, Within]

theorem selects_isOf (m : MachineName) : Selects (isOf m) fun n _ => n = m := by
  intro q
  cases q <;> simp [isOf, Within]

end Ask

namespace Stamped

/-- Requests, one after the other, with their responses. -/
def answers (limits : Timeouts) : List Stamped → World → List (Stamped × Response)
  | [], _ => []
  | q :: qs, w => (q, (q.handle limits w).1) :: answers limits qs (q.handle limits w).2

/-- The state after these requests. -/
def after (limits : Timeouts) : List Stamped → World → World
  | [], w => w
  | q :: qs, w => after limits qs (q.handle limits w).2

def select (p : Ask → Bool) (qs : List Stamped) : List Stamped := qs.filter fun q => p q.request.ask

variable {w v : World} {limits : Timeouts} {p : Ask → Bool} {I : MachineName → String → Prop}

/-- Requests about the ids in `I` run along in another state that is the same to these; all others are
left out there. -/
theorem agree_after (limits : Timeouts) (hp : Ask.Selects p I) (h : World.Agree I w v)
    (qs : List Stamped) :
    (answers limits qs w).filter (fun a => p a.1.request.ask) = answers limits (select p qs) v ∧
      World.Agree I (after limits qs w) (after limits (select p qs) v) := by
  induction qs generalizing w v with
  | nil => exact ⟨rfl, h⟩
  | cons q qs ih =>
    cases hq : p q.request.ask with
    | true =>
      obtain ⟨hresponse, hagree⟩ := handle_within limits h ((hp q.request.ask).1 hq)
      obtain ⟨hrest, hafter⟩ := ih hagree
      have hselect : select p (q :: qs) = q :: select p qs := List.filter_cons_of_pos hq
      rw [hselect, answers, answers, hresponse, ← hrest]
      exact ⟨by simp only [List.filter_cons, hq, if_true], hafter⟩
    | false =>
      have hagree := handle_outside limits h ((hp q.request.ask).2 hq)
      obtain ⟨hrest, hafter⟩ := ih hagree
      have hselect : select p (q :: qs) = select p qs := List.filter_cons_of_neg (by simp [hq])
      rw [hselect, answers, ← hrest]
      exact ⟨by simp only [List.filter_cons, hq, Bool.false_eq_true, if_false], hafter⟩

/-- The requests that `p` holds of get the same responses without the others, and the ids in `I` end
with the same records. -/
structure Undisturbed (limits : Timeouts) (p : Ask → Bool) (I : MachineName → String → Prop)
    (qs : List Stamped) (w : World) : Prop where
  answers : (answers limits qs w).filter (fun a => p a.1.request.ask) =
    Stamped.answers limits (select p qs) w
  records : ∀ m id, I m id → ((after limits qs w).shelf m).fetch (after limits qs w).files id =
    ((after limits (select p qs) w).shelf m).fetch (after limits (select p qs) w).files id

theorem undisturbed_of_selects (limits : Timeouts) (hp : Ask.Selects p I) (hw : w.Wired)
    (qs : List Stamped) :
    Undisturbed limits p I qs w := by
  obtain ⟨hanswers, hagree⟩ := agree_after limits hp (.refl hw) qs
  exact ⟨hanswers, fun m id hi => (hagree.fetch hi).symm⟩

/-- The requests of each service, in any order among each other. Requests for the topics may be
anywhere. -/
def Interleaves (family : MachineName → String → List Stamped) (qs : List Stamped) : Prop :=
  ∀ m id, select (Ask.isFor m id) qs = family m id

/-- Each service is answered as by its own requests alone, and so is each machine. -/
theorem undisturbed_of_interleaves {family : MachineName → String → List Stamped}
    {qs : List Stamped} (hw : w.Wired) (hq : Interleaves family qs) (limits : Timeouts)
    (m : MachineName) :
    (∀ id, (answers limits qs w).filter (fun a => a.1.request.ask.isFor m id) =
        answers limits (family m id) w ∧
      ((after limits qs w).shelf m).fetch (after limits qs w).files id =
        ((after limits (family m id) w).shelf m).fetch (after limits (family m id) w).files id) ∧
      Undisturbed limits (Ask.isOf m) (fun n _ => n = m) qs w := by
  refine ⟨fun id => ?_, undisturbed_of_selects limits (Ask.selects_isOf m) hw qs⟩
  have h := undisturbed_of_selects limits (Ask.selects_isFor m id) hw qs
  rw [← hq m id]
  exact ⟨h.answers, h.records m id ⟨rfl, rfl⟩⟩

theorem valid_early (n : UInt8) : Instant.Valid ⟨n.toNat, 0⟩ := by
  have hlt := n.toNat_lt
  simp only [Instant.Valid, Instant.earliest, Instant.latest]
  omega

/-- A request in the first minutes of the epoch, with the text of its token. -/
def early (n : UInt8) (ask : Ask) (token : String) : Stamped :=
  ⟨{ ask, now := ⟨n.toNat, 0⟩, valid := valid_early n }, ⟨token⟩⟩

open Race in
/-- One name in both machines, and another service between their requests. -/
def mixedRequests : List Stamped :=
  [ early 0 (.act .lifecycle "create" "library" libraryData.toJson) "created",
    early 1 (.lookUp .publication "library") "unused",
    early 2 (.act .lifecycle "create" "museum" libraryData.toJson) "other",
    early 3 (.act .publication "release" "library"
      (.obj [("id", .str "library"), ("data", libraryData.toJson)])) "released",
    early 4 (.act .lifecycle "delete" "library" .null) "deleted",
    early 5 (.lookUp .publication "library") "unused" ]

theorem undisturbed_of_interleaves_mixedRequests :
    let w := Circumstances.opened
    (answers {} (select (Ask.isFor .publication "library") mixedRequests) w).map (·.2.status) =
        [404, 200, 200] ∧
      (answers {} mixedRequests w).filter (fun a => a.1.request.ask.isFor .publication "library") =
        answers {} (select (Ask.isFor .publication "library") mixedRequests) w ∧
      Undisturbed {} (Ask.isOf .publication) (fun n _ => n = .publication) mixedRequests w := by
  have hopened : World.openAll { store := { storage := .memory } } ⟨0, 0⟩ (fun n => ⟨toString n⟩)
      (.memory {}) {} = (.ok Circumstances.opened, Circumstances.opened.files) := rfl
  have hfamily : Interleaves (fun m id => select (Ask.isFor m id) mixedRequests) mixedRequests :=
    fun _ _ => rfl
  have h := undisturbed_of_interleaves (World.wired_of_openAll (by decide) hopened) hfamily {}
    .publication
  exact ⟨by decide +kernel, (h.1 "library").1, h.2⟩

end Stamped
end ServiceCatalog
