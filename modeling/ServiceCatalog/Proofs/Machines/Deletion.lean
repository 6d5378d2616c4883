import ServiceCatalog.Proofs.Machines.Editorial
import ServiceCatalog.Proofs.Workflow.Continuation

/-!
Deletion is final: an item is created once, its record never goes away, and what is deleted stays as
it is, whatever calls are under way.
-/
namespace ServiceCatalog.Lifecycle

theorem ends_of_deleted {item : Item State} (h : item.state = .deleted) : machine.Ends item := by
  intro id action next hfollows
  cases moves_of_follows hfollows with
  | edit hs hv => simp [settled, h] at hs
  | submit hs hv => simp [h] at hs
  | approve hs => simp [h] at hs
  | reject hs hb => simp [h] at hs
  | delete hs => simp [settled, h] at hs

theorem resolve_of_deleted {r : Versioned (Item State)} (h : r.document.state = .deleted)
    (id : String) (action : Action) : machine.resolve id (some r) action =
      .error (.illegalTransition "lifecycle" "deleted" (name action.kind)) := by
  have hnone : ∀ k : Kind, machine.table.lookup (some State.deleted) k = none := by
    intro k
    cases k <;> decide
  have hrow : machine.row id (some r) action.kind =
      .error (.illegalTransition "lifecycle" "deleted" (name action.kind)) := by
    rw [Machine.row, h, hnone]
    rfl
  have hkind : machine.kindOf action = action.kind := rfl
  rw [Machine.resolve, hkind, hrow, error_bind]

/-- Only the first commit on an id can create it. -/
theorem creations_le_one {id : String} {cs : List (Commit State Action)}
    (h : IsChain machine id none cs) : cs.countP (·.action.kind == .create) ≤ 1 := by
  cases cs with
  | nil => simp
  | cons c cs =>
    have hrest : cs.countP (·.action.kind == .create) = 0 := by
      rw [List.countP_eq_zero]
      intro x hx
      obtain ⟨p, hfollows⟩ := h.2.2.2.follows x hx
      have hmoves := moves_of_follows hfollows
      generalize x.action = action, x.record.document = item at hmoves
      cases hmoves <;> simp [Action.kind]
    rw [List.countP_cons, hrest]
    split <;> simp

/-- What is promised for a record `r` that was deleted in the state `c`, in a later state `d`. -/
structure Final (c d : Race State Action) (id : String) (r : Versioned (Item State)) : Prop where
  stays : d.shelf.fetch d.files id = .ok (some r)
  /-- Of what the feed was sent since, nothing is about this id. -/
  silent : ∃ added, Race.Extends c d added ∧ ∀ q ∈ added.records, q.id ≠ id
  /-- A call that begins now ends at once. -/
  refused : ∀ call action, (d.step machine (.fetch call id action)).stage call =
    .done (.error (.illegalTransition "lifecycle" "deleted" (name action.kind)))
  /-- A call that had begun before and saves now. -/
  late : ∀ call action found next expected, d.stage call = .pending id action found next expected →
    ∀ now fresh lockFree, d.Allowed machine (.save call now fresh lockFree) →
      (d.step machine (.save call now fresh lockFree)).stage call = .done (.error
        (if d.shelf.isLocked lockFree then .throttled id (some Directory.retryAfter)
          else .conflict id (found.map (·.version)) (some r.version)))

theorem final_of_deleted {c d : Race State Action} (h : Race.Reachable machine c)
    (hl : Race.Later machine c d) {id : String} {r : Versioned (Item State)}
    (hr : c.shelf.fetch c.files id = .ok (some r)) (hs : r.document.state = .deleted) :
    Final c d id r := by
  have hd := hl.reachable h
  have hends := ends_of_deleted hs
  obtain ⟨hid, hlast⟩ := h.fetch_eq_some.mp hr
  obtain ⟨added, hadded⟩ := hl.extends
  have hnil := hadded.commits_of_ends hd hlast hends
  have hlast' : d.history.last? id = some r := by
    rw [hadded.history, History.last?_append, History.last?_eq_none_iff.mpr hnil, Option.none_or]
    exact hlast
  have hstays := hd.fetch_eq_some.mpr ⟨hid, hlast'⟩
  refine ⟨hstays, ⟨added, hadded, ?_⟩, ?_, ?_⟩
  · rintro q hq rfl
    obtain ⟨x, hx, -⟩ := History.exists_of_mem_records (hadded.history ▸ hd.sound.history) hq
    rw [hnil] at hx
    cases hx
  · intro call action
    rw [Race.stage_fetch, hstays, Machine.afterRead, resolve_of_deleted hs]
  · intro call action found next expected hc now fresh lockFree ha
    exact Race.save_of_ends hd hlast' hends hc ha

/-- In every continuation of every run. -/
theorem deletion_is_final {c d : Race State Action} (h : Race.Reachable machine c)
    (hl : Race.Later machine c d) (id : String) :
    (d.history.commits id).countP (·.action.kind == .create) ≤ 1 ∧
      ∀ r, c.shelf.fetch c.files id = .ok (some r) →
        (∃ q, d.shelf.fetch d.files id = .ok (some q)) ∧
          (r.document.state = .deleted → Final c d id r) := by
  refine ⟨creations_le_one (History.isChain_commits (hl.reachable h).sound.history id), ?_⟩
  intro r hr
  exact ⟨hl.exists_of_fetch h hr, final_of_deleted h hl hr⟩

open Race in
/-- Two calls have read the draft; one of them has deleted it. -/
def deletedRun : Race State Action :=
  let events : List (Event Action) :=
    [.fetch 0 "library" (.create libraryData), .save 0 ⟨0, 0⟩ ⟨"created"⟩ true,
      .fetch 1 "library" .submit, .fetch 2 "library" .delete, .save 2 ⟨1, 0⟩ ⟨"deleted"⟩ true]
  events.foldl (step machine) { files := {}, shelf := .memory {} }

open Race in
theorem reachable_deletedRun : Reachable machine deletedRun := by
  have hempty : Shelf.Empty (D := Item State) {} (.memory {}) := rfl
  have h₁ := (Reachable.start (m := machine) hempty).step
    (e := .fetch 0 "library" (.create libraryData)) ⟨rfl, admits_libraryData⟩
  have h₂ := h₁.step (e := .save 0 ⟨0, 0⟩ ⟨"created"⟩ true) ⟨by decide, by decide⟩
  have h₃ := h₂.step (e := .fetch 1 "library" .submit) ⟨rfl, admits_of_fits (a := .submit) trivial⟩
  have h₄ := h₃.step (e := .fetch 2 "library" .delete) ⟨rfl, admits_of_fits (a := .delete) trivial⟩
  exact h₄.step (e := .save 2 ⟨1, 0⟩ ⟨"deleted"⟩ true) ⟨by decide, by decide⟩

/-- The other call saves after the deletion. -/
theorem deletion_is_final_deletedRun :
    ∃ r, deletedRun.shelf.fetch deletedRun.files "library" = .ok (some r) ∧
      r.document.state = .deleted ∧
      (deletedRun.step machine (.save 1 ⟨2, 0⟩ ⟨"late"⟩ true)).stage 1 =
        .done (.error (.conflict "library" (some ⟨"created"⟩) (some ⟨"deleted"⟩))) ∧
      Final deletedRun (deletedRun.step machine (.save 1 ⟨2, 0⟩ ⟨"late"⟩ true)) "library" r := by
  have hr : deletedRun.shelf.fetch deletedRun.files "library" =
      .ok (some ⟨"library", ⟨{ id := "library", data := Race.libraryData }, .deleted,
        some "delete"⟩, ⟨"deleted"⟩, ⟨1, 0⟩⟩) := rfl
  have ha : deletedRun.Allowed machine (.save 1 ⟨2, 0⟩ ⟨"late"⟩ true) := ⟨by decide, by decide⟩
  obtain ⟨-, h⟩ := deletion_is_final reachable_deletedRun (.step .refl ha) "library"
  obtain ⟨-, hfinal⟩ := h _ hr
  exact ⟨_, hr, rfl, rfl, hfinal rfl⟩

end ServiceCatalog.Lifecycle
