import ServiceCatalog.Proofs.App.Requests

/-!
What a request is told that does not succeed. The body says whether to try again, unless the request
could not be read or its topic could not be looked up.
-/
namespace ServiceCatalog

namespace Response

/-- The body names the failure and says to try again after a conflict, a delay or a failure inside. -/
def Flagged (r : Response) : Prop :=
  ∃ kind message : String, r.body = some (.obj [("error", .str kind), ("message", .str message),
    ("retryable", .bool (r.status = 409 ∨ r.status = 429 ∨ r.status = 500))])

theorem flagged_ofApplyError (e : ApplyError) : (ofApplyError e).Flagged := by
  have hflag : e.isRetryable = decide (e.status = 409 ∨ e.status = 429 ∨ e.status = 500) :=
    Bool.eq_iff_iff.mpr (by simpa using e.isRetryable_iff)
  exact ⟨e.kind, e.message, by rw [ofApplyError, hflag]⟩

theorem not_flagged_failure (status : Nat) (kind message : String) :
    ¬(failure status kind message).Flagged := by
  rintro ⟨kind', message', h⟩
  simp [failure] at h

end Response

namespace Controller

variable {σ : Type} (c : Controller σ) (m : MachineName) (action id : String) (payload : Json) (s : σ)

/-- The request can be read, and there is a list of topics if it names one. -/
def Understands : Prop :=
  match m with
  | .lifecycle => ∃ a, Lifecycle.machine.parse action payload = .ok a ∧
      (topicOf a ≠ none → ∃ topics, (c.topics s).1 = .ok topics)
  | .publication => ∃ a, Publication.machine.parse action payload = .ok a

theorem applyTo_answer {S K A : Type} [DecidableEq S] [DecidableEq K] [Named S] [Named K]
    (t : Machine S K A) (store : Backend σ (Item S)) (a : A) :
    (c.applyTo t store id a s).1.isSuccess = true ∨ (c.applyTo t store id a s).1.Flagged := by
  rcases h : t.apply c.limits store id a s with ⟨e | r, s'⟩
  · rw [Circumstances.applyTo_of_error h]
    exact .inr (Response.flagged_ofApplyError e)
  · obtain ⟨response, happly, hr⟩ := Circumstances.applyTo_of_ok h
    rw [happly]
    exact .inl (Circumstances.isSuccess_of_answer hr)

/-- The check fails for want of a list, or refuses with a flag at most. -/
theorem checkTopic_cases (a : Lifecycle.Action) :
    (∃ e, topicOf a ≠ none ∧ (c.topics s).1 = .error e ∧
        (c.checkTopic a s).1 = some (.ofLoadError e)) ∨
      ((topicOf a ≠ none → ∃ topics, (c.topics s).1 = .ok topics) ∧
        ∀ refusal ∈ (c.checkTopic a s).1, refusal.Flagged) := by
  unfold checkTopic
  cases ht : topicOf a with
  | none => exact .inr ⟨fun hn => absurd rfl hn, fun refusal h => by cases h⟩
  | some topic =>
    dsimp only
    rw [state_bind]
    rcases c.topics s with ⟨loaded, s'⟩
    cases loaded with
    | error e => exact .inl ⟨e, by simp, rfl, rfl⟩
    | ok topics =>
      refine .inr ⟨fun _ => ⟨topics, rfl⟩, fun refusal h => ?_⟩
      have hr : refusalOf a.kind topic (.ok topics) = some refusal := h
      unfold refusalOf at hr
      dsimp only at hr
      split at hr
      · cases hr
      · cases hr
        exact Response.flagged_ofApplyError _

/-- A request that is understood succeeds or is told whether to try again; any other fails without. -/
theorem dispatch_answer :
    (c.Understands m action payload s ∧ ((c.dispatch m action id payload s).1.isSuccess = true ∨
        (c.dispatch m action id payload s).1.Flagged)) ∨
      (¬c.Understands m action payload s ∧ ∃ message,
        (c.dispatch m action id payload s).1 = .failure 400 "bad_request" message ∨
          (c.dispatch m action id payload s).1 = .failure 500 "internal" message) := by
  unfold dispatch
  cases m with
  | publication =>
    cases hp : Publication.machine.parse action payload with
    | error e =>
      refine .inr ⟨?_, e.message, .inl rfl⟩
      rintro ⟨a, ha⟩
      cases hp.symm.trans ha
    | ok a => exact .inl ⟨⟨a, hp⟩, c.applyTo_answer id s Publication.machine c.publication a⟩
  | lifecycle =>
    cases hp : Lifecycle.machine.parse action payload with
    | error e =>
      refine .inr ⟨?_, e.message, .inl rfl⟩
      rintro ⟨a, ha, -⟩
      cases hp.symm.trans ha
    | ok a =>
      have hcases := c.checkTopic_cases s a
      dsimp only
      rw [state_bind]
      rcases hcheck : c.checkTopic a s with ⟨refusal, s'⟩
      rw [hcheck] at hcases
      rcases hcases with ⟨e, ht, hl, rfl⟩ | ⟨htopics, hflagged⟩
      · refine .inr ⟨?_, e.message, .inr rfl⟩
        rintro ⟨b, hb, htopics⟩
        obtain rfl : a = b := Except.ok.inj (hp.symm.trans hb)
        obtain ⟨topics, hok⟩ := htopics ht
        cases hl.symm.trans hok
      · refine .inl ⟨⟨a, hp, htopics⟩, ?_⟩
        cases refusal with
        | some refusal => exact .inr (hflagged refusal rfl)
        | none => exact c.applyTo_answer id s' Lifecycle.machine c.lifecycle a

/-- The body of a failure is flagged exactly when the request was understood. -/
theorem flagged_iff_understands (h : (c.dispatch m action id payload s).1.isSuccess = false) :
    ((c.dispatch m action id payload s).1.Flagged ↔ c.Understands m action payload s) ∧
      (¬c.Understands m action payload s → ∃ message,
        (c.dispatch m action id payload s).1 = .failure 400 "bad_request" message ∨
          (c.dispatch m action id payload s).1 = .failure 500 "internal" message) := by
  rcases c.dispatch_answer m action id payload s with ⟨hu, hanswer⟩ | ⟨hu, message, hanswer⟩
  · have hflagged := hanswer.resolve_left (by simp [h])
    exact ⟨iff_of_true hflagged hu, fun hn => absurd hu hn⟩
  · refine ⟨iff_of_false ?_ hu, fun _ => ⟨message, hanswer⟩⟩
    rcases hanswer with he | he <;> rw [he] <;> exact Response.not_flagged_failure _ _ _

/-- No service was released yet, so there is none to take back. -/
theorem flagged_iff_understands_unpublish :
    let answer := ((World.controller {}).dispatch .publication "unpublish" "S1" .null
      Circumstances.opened).1
    answer.isSuccess = false ∧ answer.status = 404 ∧
      (World.controller {}).Understands .publication "unpublish" .null Circumstances.opened ∧
      answer.Flagged := by
  intro answer
  have hf : answer.isSuccess = false := by decide +kernel
  have hu : (World.controller {}).Understands .publication "unpublish" .null Circumstances.opened :=
    ⟨.unpublish, rfl⟩
  exact ⟨hf, by decide +kernel, hu, (flagged_iff_understands _ _ _ _ _ _ hf).1.mpr hu⟩

/-- A service that names a topic. -/
def filedData : ServiceData := { Race.libraryData with metadata := { topicId := some 1 } }

/-- The machine has no such action; and while there are no topics none can be named. -/
theorem dispatch_archive_not_flagged :
    let unknown := ((World.controller {}).dispatch .publication "archive" "S1" .null
      Circumstances.opened).1
    let unlisted := ((World.controller {}).dispatch .lifecycle "create" "S1" filedData.toJson
      { Circumstances.opened with topicList := [] }).1
    unknown.isSuccess = false ∧ unknown.status = 400 ∧ ¬unknown.Flagged ∧
      unlisted.isSuccess = false ∧ unlisted.status = 500 ∧ ¬unlisted.Flagged := by
  intro unknown unlisted
  have hunknown : unknown = .failure 400 "bad_request" "unknown action \"archive\"" := rfl
  have hunlisted : unlisted =
      .failure 500 "internal" "failed to load reference data: no topics configured" := rfl
  rw [hunknown, hunlisted]
  exact ⟨rfl, rfl, Response.not_flagged_failure _ _ _, rfl, rfl,
    Response.not_flagged_failure _ _ _⟩

end Controller
end ServiceCatalog
