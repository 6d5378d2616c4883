import ServiceCatalog.Proofs.Workflow.Consistency
import ServiceCatalog.Watch.Watcher

/-!
The editorial record: in every run its data is valid, its review agrees with its state, and what is
approved or rejected is what was sent for review.
-/
namespace ServiceCatalog.Lifecycle

/-- The reviews that a state allows. -/
def Reviewed : State → Option Review → Prop
  | .draft, r => r = none
  | .submitted, r => r = none
  | .approved, r => ∃ date, r = some (.approved date)
  | .rejected, r => ∃ reason, r = some (.rejected reason) ∧ Text.isBlank reason = false
  | .deleted, r => r = none ∨ (∃ date, r = some (.approved date)) ∨
    ∃ reason, r = some (.rejected reason) ∧ Text.isBlank reason = false

/-- The actions that lead to a state. -/
def marks : State → List String
  | .draft => ["create", "edit"]
  | .submitted => ["submit"]
  | .approved => ["approve"]
  | .rejected => ["reject"]
  | .deleted => ["delete"]

structure Editorial (id : String) (item : Item State) : Prop where
  id : item.service.id = id
  valid : item.service.data.validate = .ok ()
  reviewed : Reviewed item.state item.service.review
  marked : ∃ t ∈ marks item.state, item.lastTransition = some t

theorem reviewed_deleted {s : State} {r : Option Review} (hs : s ∈ settled) (h : Reviewed s r) :
    Reviewed .deleted r := by
  cases s with
  | draft => exact .inl h
  | approved => exact .inr (.inl h)
  | rejected => exact .inr (.inr h)
  | submitted => simp [settled] at hs
  | deleted => simp [settled] at hs

theorem editorial_of_moves {id : String} {prev : Option (Item State)} {a : Action}
    {item : Item State} (h : Moves id prev a item) (hprev : ∀ p ∈ prev, Editorial id p) :
    Editorial id item := by
  cases h with
  | create hv => exact ⟨rfl, hv, rfl, "create", by simp [marks], rfl⟩
  | edit hs hv => exact ⟨(hprev _ rfl).id, hv, rfl, "edit", by simp [marks], rfl⟩
  | submit hs hv => exact ⟨(hprev _ rfl).id, hv, rfl, "submit", by simp [marks], rfl⟩
  | approve hs =>
    have hp := hprev _ rfl
    exact ⟨hp.id, hp.valid, ⟨_, rfl⟩, "approve", by simp [marks], rfl⟩
  | reject hs hb =>
    have hp := hprev _ rfl
    exact ⟨hp.id, hp.valid, ⟨_, rfl, hb⟩, "reject", by simp [marks], rfl⟩
  | delete hs =>
    have hp := hprev _ rfl
    exact ⟨hp.id, hp.valid, reviewed_deleted hs hp.reviewed, "delete", by simp [marks], rfl⟩

theorem editorial_of_mem_commits {c : Race State Action} (h : Race.Reachable machine c)
    {id : String} {x : Commit State Action} (hx : x ∈ c.history.commits id) :
    x.record.id = id ∧ Editorial id x.record.document :=
  (History.isChain_commits h.sound.history id).forall_mem
    (fun _ _ _ hfollows hprev => editorial_of_moves (moves_of_follows hfollows) hprev) (by simp) x hx

open Race in
/-- One item is created, submitted and approved. -/
def approvedRun : Race State Action :=
  let events : List (Event Action) :=
    [.fetch 0 "library" (.create libraryData), .save 0 ⟨0, 0⟩ ⟨"created"⟩ true,
      .fetch 1 "library" .submit, .save 1 ⟨1, 0⟩ ⟨"submitted"⟩ true,
      .fetch 2 "library" (.approve none), .save 2 ⟨2, 0⟩ ⟨"approved"⟩ true]
  events.foldl (step machine) { files := {}, shelf := .memory {} }

open Race in
theorem reachable_approvedRun : Reachable machine approvedRun := by
  have hempty : Shelf.Empty (D := Item State) {} (.memory {}) := rfl
  have h₁ := (Reachable.start (m := machine) hempty).step
    (e := .fetch 0 "library" (.create libraryData)) ⟨rfl, admits_libraryData⟩
  have h₂ := h₁.step (e := .save 0 ⟨0, 0⟩ ⟨"created"⟩ true) ⟨by decide, by decide⟩
  have h₃ := h₂.step (e := .fetch 1 "library" .submit) ⟨rfl, admits_of_fits (a := .submit) trivial⟩
  have h₄ := h₃.step (e := .save 1 ⟨1, 0⟩ ⟨"submitted"⟩ true) ⟨by decide, by decide⟩
  have h₅ := h₄.step (e := .fetch 2 "library" (.approve none))
    ⟨rfl, admits_of_fits (by simp [Action.Fits])⟩
  exact h₅.step (e := .save 2 ⟨2, 0⟩ ⟨"approved"⟩ true) ⟨by decide, by decide⟩

/-- Every stored record is in order. -/
theorem editorial_of_fetch {c : Race State Action} (h : Race.Reachable machine c) {id : String}
    {r : Versioned (Item State)} (hr : c.shelf.fetch c.files id = .ok (some r)) :
    r.id = id ∧ Editorial id r.document := by
  rw [Shelf.fetch_of_holds h.sound.holds, View.fetch] at hr
  split at hr
  · obtain ⟨x, hx, rfl⟩ := History.exists_of_last? (Except.ok.inj hr)
    exact editorial_of_mem_commits h hx
  · cases hr

theorem editorial_of_fetch_approvedRun :
    ∃ r, approvedRun.shelf.fetch approvedRun.files "library" = .ok (some r) ∧
      r.document.state = .approved ∧ r.id = "library" ∧ Editorial "library" r.document := by
  have hr : approvedRun.shelf.fetch approvedRun.files "library" =
      .ok (some ⟨"library", ⟨⟨"library", Race.libraryData, some (.approved none)⟩, .approved,
        some "approve"⟩, ⟨"approved"⟩, ⟨2, 0⟩⟩) := rfl
  exact ⟨_, hr, rfl, editorial_of_fetch reachable_approvedRun hr⟩

theorem submitted_of_decided {id : String} {prev : Option (Item State)} {a : Action}
    {item : Item State} (h : Moves id prev a item)
    (hs : item.state = .approved ∨ item.state = .rejected) :
    ∃ p, prev = some p ∧ p.state = .submitted ∧ p.service.data = item.service.data := by
  cases h with
  | approve hp => exact ⟨_, rfl, hp, rfl⟩
  | reject hp hb => exact ⟨_, rfl, hp, rfl⟩
  | create hv => simp at hs
  | edit hp hv => simp at hs
  | submit hp hv => simp at hs
  | delete hp => simp at hs

/-- An approval or a rejection comes right after the submission that asked for the review, and
decides on the data that was sent with it. -/
theorem decided_after_submission {c : Race State Action} (h : Race.Reachable machine c)
    {id : String} {before after : List (Commit State Action)} {x : Commit State Action}
    (hx : c.history.commits id = before ++ x :: after)
    (hs : x.record.document.state = .approved ∨ x.record.document.state = .rejected) :
    ∃ earlier p, before = earlier ++ [p] ∧ p.record.document.state = .submitted ∧
      p.record.document.service.data = x.record.document.service.data ∧
      Watcher.editorial.handle p.record =
        .review ⟨id, p.record.version, x.record.document.service.data⟩ ∧
      x.found = some p.record := by
  have hchain := History.isChain_commits h.sound.history id
  rw [hx, isChain_append] at hchain
  obtain ⟨-, hfound, -, hfollows, -⟩ := hchain
  rw [Option.or_none] at hfound hfollows
  obtain ⟨item, hitem, hstate, hdata⟩ := submitted_of_decided (moves_of_follows hfollows) hs
  obtain ⟨r, hr, rfl⟩ := Option.map_eq_some_iff.mp hitem
  obtain ⟨p, hlast, rfl⟩ := Option.map_eq_some_iff.mp hr
  obtain ⟨earlier, rfl⟩ := List.getLast?_eq_some_iff.mp hlast
  have hid : p.record.id = id := (editorial_of_mem_commits h (by simp [hx])).1
  refine ⟨earlier, p, rfl, hstate, hdata, ?_, hfound.trans hr⟩
  simp [Watcher.handle, Watcher.editorial, hstate, Rule.apply, WorkItem.ofReview, hid, hdata]

theorem decided_after_submission_approvedRun :
    ∃ before x, approvedRun.history.commits "library" = before ++ [x] ∧
      x.record.document.state = .approved ∧ ∃ earlier p, before = earlier ++ [p] ∧
        p.record.document.state = .submitted ∧
        p.record.document.service.data = x.record.document.service.data ∧
        Watcher.editorial.handle p.record =
          .review ⟨"library", p.record.version, x.record.document.service.data⟩ ∧
        x.found = some p.record := by
  obtain ⟨c₁, c₂, c₃, hcommits, hstate⟩ : ∃ c₁ c₂ c₃,
      approvedRun.history.commits "library" = [c₁, c₂] ++ c₃ :: [] ∧
        c₃.record.document.state = .approved := ⟨_, _, _, rfl, rfl⟩
  exact ⟨[c₁, c₂], c₃, hcommits, hstate,
    decided_after_submission reachable_approvedRun hcommits (.inl hstate)⟩

end ServiceCatalog.Lifecycle
