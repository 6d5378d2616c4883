import ServiceCatalog.Proofs.Machines.Publication
import ServiceCatalog.Proofs.Workflow.Consistency

/-!
The publication record: in every run it carries the data that was released last, and it is live
exactly if the last of its switches was a publish.
-/
namespace ServiceCatalog.Publication

/-- The service that an action brings. -/
def Action.released? : Action → Option Service
  | .release service => some service
  | .publish => none
  | .unpublish => none

/-- Whether an action turns the live status on or off. -/
def Action.isSwitch : Action → Bool
  | .release _ => false
  | .publish => true
  | .unpublish => true

/-- What the committed actions on an id, oldest first, make of its record. -/
structure Integrity (id : String) (actions : List Action) (item : Item State) : Prop where
  id : item.service.id = id
  unreviewed : item.service.review = none
  valid : item.service.data.validate = .ok ()
  released : (actions.filterMap Action.released?).getLast?.map (·.data) = some item.service.data
  live : item.state = .published ↔ (actions.filter Action.isSwitch).getLast? = some .publish

theorem integrity_of_moves {id : String} {actions : List Action} {prev : Option (Item State)}
    {a : Action} {item : Item State} (h : Moves id prev a item) (hnone : prev = none → actions = [])
    (hprev : ∀ p ∈ prev, Integrity id actions p) : Integrity id (actions ++ [a]) item := by
  cases h with
  | create hid hv =>
    obtain rfl := hnone rfl
    exact ⟨hid, rfl, hv, by simp [Action.released?], by simp [Action.isSwitch]⟩
  | release hid hv =>
    have hp := hprev _ rfl
    exact ⟨hid.trans hp.id, rfl, hv, by simp [Action.released?],
      by simpa [Action.isSwitch] using hp.live⟩
  | publish hs =>
    have hp := hprev _ rfl
    exact ⟨hp.id, hp.unreviewed, hp.valid, by simpa [Action.released?] using hp.released,
      by simp [Action.isSwitch]⟩
  | unpublish hs =>
    have hp := hprev _ rfl
    exact ⟨hp.id, hp.unreviewed, hp.valid, by simpa [Action.released?] using hp.released,
      by simp [Action.isSwitch]⟩

open Race in
/-- The library's data under another description. -/
def newerData : ServiceData := { libraryData with description := "Loans only" }

open Race in
/-- A service is released, goes live and is released again. -/
def liveRun : Race State Action :=
  let events : List (Event Action) :=
    [.fetch 0 "library" (.release { id := "library", data := libraryData }),
      .save 0 ⟨0, 0⟩ ⟨"released"⟩ true,
      .fetch 1 "library" .publish, .save 1 ⟨1, 0⟩ ⟨"published"⟩ true,
      .fetch 2 "library" (.release { id := "library", data := newerData }),
      .save 2 ⟨2, 0⟩ ⟨"renewed"⟩ true]
  events.foldl (step machine) { files := {}, shelf := .memory {} }

open Race in
theorem reachable_liveRun : Reachable machine liveRun := by
  have hempty : Shelf.Empty (D := Item State) {} (.memory {}) := rfl
  have hreleased : (Action.release { id := "library", data := libraryData }).Fits :=
    ⟨by simp [libraryData], by decide⟩
  have hrenewed : (Action.release { id := "library", data := newerData }).Fits :=
    ⟨by simp [newerData, libraryData], by decide⟩
  have h₁ := (Reachable.start (m := machine) hempty).step
    (e := .fetch 0 "library" (.release { id := "library", data := libraryData }))
    ⟨rfl, admits_of_fits hreleased⟩
  have h₂ := h₁.step (e := .save 0 ⟨0, 0⟩ ⟨"released"⟩ true) ⟨by decide, by decide⟩
  have h₃ := h₂.step (e := .fetch 1 "library" .publish) ⟨rfl, admits_of_fits (a := .publish) trivial⟩
  have h₄ := h₃.step (e := .save 1 ⟨1, 0⟩ ⟨"published"⟩ true) ⟨by decide, by decide⟩
  have h₅ := h₄.step (e := .fetch 2 "library" (.release { id := "library", data := newerData }))
    ⟨rfl, admits_of_fits hrenewed⟩
  exact h₅.step (e := .save 2 ⟨2, 0⟩ ⟨"renewed"⟩ true) ⟨by decide, by decide⟩

/-- Every stored record is what the committed actions on its id make of it. -/
theorem integrity_of_fetch {c : Race State Action} (h : Race.Reachable machine c) {id : String}
    {r : Versioned (Item State)} (hr : c.shelf.fetch c.files id = .ok (some r)) :
    r.id = id ∧ Integrity id ((c.history.commits id).map (·.action)) r.document := by
  rw [Shelf.fetch_of_holds h.sound.holds, View.fetch] at hr
  split at hr
  · obtain ⟨x, hx, rfl⟩ := Option.map_eq_some_iff.mp (Except.ok.inj hr)
    exact (History.isChain_commits h.sound.history id).last
      (fun _ _ _ _ hfollows => integrity_of_moves (moves_of_follows hfollows)) x hx
  · cases hr

theorem integrity_of_fetch_liveRun :
    ∃ r, liveRun.shelf.fetch liveRun.files "library" = .ok (some r) ∧
      r.document.state = .published ∧ r.document.service.data = newerData ∧ r.id = "library" ∧
      Integrity "library" ((liveRun.history.commits "library").map (·.action)) r.document := by
  have hr : liveRun.shelf.fetch liveRun.files "library" =
      .ok (some ⟨"library", ⟨⟨"library", newerData, none⟩, .published, some "release"⟩,
        ⟨"renewed"⟩, ⟨2, 0⟩⟩) := rfl
  exact ⟨_, hr, rfl, rfl, integrity_of_fetch reachable_liveRun hr⟩

end ServiceCatalog.Publication
