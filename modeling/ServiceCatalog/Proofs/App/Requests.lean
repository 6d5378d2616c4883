import ServiceCatalog.Proofs.App.World
import ServiceCatalog.Proofs.Workflow.Consistency

/-!
Requests to the application. A request that fails changes neither store, whatever has gone wrong on
its way; one that succeeds commits one record and answers for it.
-/
namespace ServiceCatalog

theorem Machine.bounded_eq_ok {α : Type} {operation id : String} {limit : Nat} {reply : Reply α}
    {a : α} : bounded operation id limit reply = .ok a ↔ reply = .answer (.ok a) := by
  cases reply with
  | stalled => simp [bounded]
  | answer r => cases r <;> simp [bounded, Except.mapError]

/-- What goes on around a request: faults of the stores, and what others do between its read and its
save. -/
structure Circumstances where
  faults : MachineName → Faults := fun _ => {}
  others : World → World := id

namespace Circumstances

variable {c : Circumstances} {w w' : World} {m : MachineName} {id : String} {item : Item m.State}
  {expected : Option Token}

def store (c : Circumstances) (m : MachineName) : Backend World (Item m.State) :=
  ((World.store m).faulty (fun _ => c.faults m) fun _ w => w).interrupted (modify c.others)

def controller (c : Circumstances) (limits : Timeouts) : Controller World where
  lifecycle := c.store .lifecycle
  publication := c.store .publication
  topics := World.topics
  limits := limits

/-- A read changes nothing, and what it finds is in the store. -/
theorem fetch_store (c : Circumstances) (m : MachineName) (id : String) (w : World) :
    ((c.store m).fetch id w).2 = w ∧ ∀ found, ((c.store m).fetch id w).1 = .answer (.ok found) →
      (w.shelf m).fetch w.files id = .ok found := by
  unfold store Backend.interrupted Backend.faulty
  dsimp only
  cases (c.faults m).fetch with
  | none => exact ⟨rfl, fun found h => Reply.answer.inj h⟩
  | some fault =>
    cases fault with
    | refuse e => exact ⟨rfl, by simp⟩
    | stall => exact ⟨rfl, by simp⟩
    | commitThenStall => exact ⟨rfl, fun found h => Reply.answer.inj h⟩

section Save

variable {reply : Reply (Versioned (Item m.State))}

/-- A save comes after the work of the others; a fault takes its place, or hides its answer. -/
theorem save_store (h : (c.store m).save id item expected w = (reply, w')) :
    (World.store m).save id item expected (c.others w) = (reply, w') ∨
      (∀ r, reply ≠ .answer (.ok r)) ∧ (w' = c.others w ∨
        (c.faults m).save = some .commitThenStall ∧
          w' = ((World.store m).save id item expected (c.others w)).2) := by
  have hothers : (c.store m).save id item expected w =
      ((World.store m).faulty (fun _ => c.faults m) fun _ w => w).save id item expected
        (c.others w) := rfl
  rw [hothers] at h
  unfold Backend.faulty at h
  dsimp only at h
  cases hf : (c.faults m).save with
  | none =>
    rw [hf] at h
    exact .inl h
  | some fault =>
    rw [hf] at h
    cases fault with
    | refuse e =>
      cases h
      exact .inr ⟨by simp, .inl rfl⟩
    | stall =>
      cases h
      exact .inr ⟨by simp, .inl rfl⟩
    | commitThenStall =>
      cases h
      exact .inr ⟨by simp, .inr ⟨rfl, rfl⟩⟩

theorem commits_of_save (hw : (c.others w).Sound) (hi : item.service.Fits)
    {r : Versioned (Item m.State)}
    (h : (c.store m).save id item expected w = (.answer (.ok r), w')) :
    r.id = id ∧ World.Commits (c.others w) w' m r :=
  hw.commits_of_save hi ((save_store h).resolve_right fun hr => hr.1 r rfl)

theorem unchanged_of_save (hw : (c.others w).Sound)
    (h : (c.store m).save id item expected w = (reply, w')) (hr : ∀ r, reply ≠ .answer (.ok r))
    (hc : (c.faults m).save ≠ some .commitThenStall) : World.Unchanged (c.others w) w' := by
  rcases save_store h with hs | ⟨-, rfl | ⟨hf, -⟩⟩
  · cases reply with
    | stalled => cases hs
    | answer answer =>
      cases answer with
      | ok r => exact absurd rfl (hr r)
      | error e => exact hw.unchanged_of_save hs
  · exact .refl _
  · exact absurd hf hc

theorem sound_of_save (hw : (c.others w).Sound) (hi : item.service.Fits)
    (h : (c.store m).save id item expected w = (reply, w')) : w'.Sound := by
  have hs : ((World.store m).save id item expected (c.others w)).2.Sound := hw.save hi
  rcases save_store h with heq | ⟨-, rfl | ⟨-, rfl⟩⟩
  · rwa [heq] at hs
  · exact hw
  · exact hs

end Save

section Apply

variable {K A : Type} [DecidableEq m.State] [DecidableEq K] [Named K] {t : Machine m.State K A}
  {limits : Timeouts} {action : A} {r : Versioned (Item m.State)}

/-- An action is refused on what was read, or a next item is saved. -/
theorem apply_cases (hw : w.Sound) (ha : t.Admits action)
    {result : Except ApplyError (Versioned (Item m.State))}
    (h : t.apply limits (c.store m) id action w = (result, w')) :
    ((∃ e, result = .error e) ∧ w' = w) ∨
      ∃ next expected reply, next.service.Fits ∧
        (c.store m).save id next expected w = (reply, w') ∧
        result = bounded "save" id limits.save reply := by
  obtain ⟨hstate, hfetch⟩ := c.fetch_store m id w
  rw [Race.apply_eq, hstate] at h
  split at h
  · cases h
    exact .inl ⟨⟨_, rfl⟩, rfl⟩
  · next found hfound =>
    split at h
    · cases h
      exact .inl ⟨⟨_, rfl⟩, rfl⟩
    · next next expected hr =>
      have hread := hfetch found (Machine.bounded_eq_ok.mp hfound)
      have hfits : next.service.Fits := by
        refine ha id _ next (Machine.resolve_eq_ok hr).1 fun p hp => ?_
        obtain ⟨q, rfl, rfl⟩ := Option.map_eq_some_iff.mp hp
        exact (hw.fits m).fetch hread
      obtain ⟨rfl, rfl⟩ := Prod.mk.inj h
      exact .inr ⟨next, expected, _, hfits, rfl, rfl⟩

theorem sound_of_apply (hw : w.Sound) (hothers : (c.others w).Sound) (ha : t.Admits action) :
    (t.apply limits (c.store m) id action w).2.Sound := by
  rcases h : t.apply limits (c.store m) id action w with ⟨result, w'⟩
  rcases apply_cases hw ha h with ⟨-, rfl⟩ | ⟨next, expected, reply, hfits, hs, -⟩
  · exact hw
  · exact sound_of_save hothers hfits hs

end Apply

section Answers

@[simp] theorem isSuccess_ofApplyError (e : ApplyError) :
    (Response.ofApplyError e).isSuccess = false := by
  cases e <;> rfl

theorem isSuccess_of_answer {S : Type} [Named S] {r : Versioned (Item S)} {response : Response}
    (h : response = .noContent ∨ response = .ofRecord r) : response.isSuccess = true := by
  rcases h with rfl | rfl <;> rfl

section Answer

variable {σ S K A : Type} [DecidableEq S] [DecidableEq K] [Named S] [Named K] {v : Controller σ}
  {t : Machine S K A} {store : Backend σ (Item S)} {a : A} {s s' : σ} {r : Versioned (Item S)}

theorem applyTo_of_error {e : ApplyError} (h : t.apply v.limits store id a s = (.error e, s')) :
    v.applyTo t store id a s = (.ofApplyError e, s') := by
  unfold Controller.applyTo
  rw [state_bind, h]
  rfl

theorem applyTo_of_ok (h : t.apply v.limits store id a s = (.ok r, s')) :
    ∃ response, v.applyTo t store id a s = (response, s') ∧
      (response = .noContent ∨ response = .ofRecord r) := by
  unfold Controller.applyTo
  rw [state_bind, h]
  refine ⟨if t.answersWithRecord (t.kindOf a) then .ofRecord r else .noContent, rfl, ?_⟩
  split
  · exact .inr rfl
  · exact .inl rfl

theorem applyTo_snd (v : Controller σ) (t : Machine S K A) (store : Backend σ (Item S)) (id : String)
    (a : A) (s : σ) : (v.applyTo t store id a s).2 = (t.apply v.limits store id a s).2 := by
  rcases h : t.apply v.limits store id a s with ⟨e | r, s'⟩
  · rw [applyTo_of_error h]
  · obtain ⟨response, hr, -⟩ := applyTo_of_ok h
    rw [hr]

end Answer

theorem topics_eq (w : World) : ∃ loaded cache, World.topics w =
    (loaded, { w with topicCache := cache }) := by
  unfold World.topics Cache.get
  cases w.topicCache.fresh? w.now with
  | some topics => exact ⟨_, _, rfl⟩
  | none => exact ⟨_, _, rfl⟩

theorem isSuccess_of_refusalOf {kind : Lifecycle.Kind} {topic : Nat}
    {loaded : Except LoadError (List Topic)} {response : Response}
    (h : Controller.refusalOf kind topic loaded = some response) : response.isSuccess = false := by
  unfold Controller.refusalOf at h
  split at h
  · cases h
    rfl
  · split at h
    · cases h
    · cases h
      rfl

/-- The topics may be loaded for the check; a refusal is a failure. -/
theorem checkTopic_eq (c : Circumstances) (limits : Timeouts) (a : Lifecycle.Action) (w : World) :
    ∃ refusal cache, (c.controller limits).checkTopic a w = (refusal, { w with topicCache := cache }) ∧
      ∀ response ∈ refusal, response.isSuccess = false := by
  unfold Controller.checkTopic
  cases Controller.topicOf a with
  | none => exact ⟨none, w.topicCache, rfl, by simp⟩
  | some topic =>
    obtain ⟨loaded, cache, hloaded⟩ := topics_eq w
    refine ⟨Controller.refusalOf a.kind topic loaded, cache, ?_, fun _ => isSuccess_of_refusalOf⟩
    show (Controller.refusalOf a.kind topic (World.topics w).1, (World.topics w).2) = _
    rw [hloaded]

theorem sound_withCache (hw : w.Sound) (cache : Cache (List Topic)) :
    World.Sound { w with topicCache := cache } :=
  hw.congr hw.now (fun m => by cases m <;> rfl) (fun m => by cases m <;> exact hw.feed _)
    fun m => by cases m <;> exact hw.fits _

/-- A request is refused before the store is asked, or its action is applied. -/
theorem dispatch_cases (c : Circumstances) (limits : Timeouts) (m : MachineName)
    (action id : String) (payload : Json) (w : World) {motive : Response × World → Prop}
    (refused : ∀ response cache, response.isSuccess = false →
      motive (response, { w with topicCache := cache }))
    (applied : ∀ {K A : Type} [DecidableEq m.State] [DecidableEq K] [Named K]
      (t : Machine m.State K A) (a : A) (cache : Cache (List Topic)), t.Admits a →
      motive ((c.controller limits).applyTo t (c.store m) id a { w with topicCache := cache })) :
    motive ((c.controller limits).dispatch m action id payload w) := by
  unfold Controller.dispatch
  cases m with
  | lifecycle =>
    cases hp : Lifecycle.machine.parse action payload with
    | error e => exact refused _ w.topicCache rfl
    | ok a =>
      obtain ⟨refusal, cache, hcheck, hrefusal⟩ := checkTopic_eq c limits a w
      dsimp only
      rw [state_bind, hcheck]
      cases refusal with
      | some response => exact refused response cache (hrefusal _ rfl)
      | none => exact applied Lifecycle.machine a cache (Lifecycle.admits_of_parse hp)
  | publication =>
    cases hp : Publication.machine.parse action payload with
    | error e => exact refused _ w.topicCache rfl
    | ok a => exact applied Publication.machine a w.topicCache (Publication.admits_of_parse hp)

theorem sound_of_dispatch (hw : w.Sound) (hothers : ∀ v : World, v.Sound → (c.others v).Sound)
    (limits : Timeouts) (m : MachineName) (action id : String) (payload : Json) :
    ((c.controller limits).dispatch m action id payload w).2.Sound := by
  refine dispatch_cases c limits m action id payload w (motive := fun answer => answer.2.Sound)
    (fun response cache _ => sound_withCache hw cache) ?_
  intro K A _ _ _ t a cache ha
  have hsound := sound_withCache hw cache
  rw [applyTo_snd]
  exact sound_of_apply hsound (hothers _ hsound) ha

/-- Two stores in memory with nothing in them. -/
def opened : World where
  now := ⟨0, 0⟩
  mint n := ⟨toString n⟩
  topicList := defaultTopics
  topicCache := ⟨Span.ofSeconds 3600, none⟩

theorem sound_opened : opened.Sound := by
  have h : World.openAll { store := { storage := .memory } } ⟨0, 0⟩ (fun n => ⟨toString n⟩)
      (.memory {}) {} = (.ok opened, opened.files) := rfl
  exact World.sound_of_openAll h (by decide)

end Answers

end Circumstances
end ServiceCatalog
