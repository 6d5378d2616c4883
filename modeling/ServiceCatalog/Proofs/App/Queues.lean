import ServiceCatalog.Proofs.App.Requests

/-!
A sequence of requests. Whatever comes of each of them, every subscriber has queued the commits of its
machine in their order.
-/
namespace ServiceCatalog

namespace World

variable {w w' w'' : World} {m : MachineName} {id : String}

/-- What one action for a service leads to: nothing, or a commit, which uses up one token. -/
inductive Advances (w : World) (m : MachineName) (id : String) :
    Option (Versioned (Item m.State)) → World → Prop
  | unchanged {w' : World} : Unchanged w w' → w'.issued = w.issued → w'.sink = w.sink →
      Advances w m id none w'
  | commits {w' : World} {r : Versioned (Item m.State)} : r.id = id → Commits w w' m r →
      w'.issued = w.issued + 1 → w'.sink = w.sink → Advances w m id (some r) w'

theorem advances_of_save {item : Item m.State} {expected : Option Token}
    {reply : Reply (Versioned (Item m.State))} (hw : w.Sound) (hi : item.service.Fits)
    (h : (store m).save id item expected w = (reply, w')) :
    ∃ commit, Advances w m id commit w' ∧ ∀ r, reply = .answer (.ok r) ↔ commit = some r := by
  have hsaved : ∃ after, reply = .answer after.1 ∧ w' = w.saved m after :=
    ⟨_, (congrArg Prod.fst h).symm, (congrArg Prod.snd h).symm⟩
  obtain ⟨⟨answer, files, s⟩, rfl, rfl⟩ := hsaved
  have hsink : (w.saved m (answer, files, s)).sink = w.sink := by cases m <;> rfl
  cases answer with
  | error e =>
    refine ⟨none, .unchanged (hw.unchanged_of_save h) ?_ hsink, by simp⟩
    cases m <;> rfl
  | ok r =>
    obtain ⟨hid, hcommits⟩ := hw.commits_of_save hi h
    refine ⟨some r, .commits hid hcommits ?_ hsink, by simp⟩
    cases m <;> rfl

/-- States that differ in the clock, the locks and the topics at most. -/
structure Alike (w v : World) : Prop where
  shelf : ∀ m, v.shelf m = w.shelf m
  files : v.files = w.files
  issued : v.issued = w.issued
  sink : v.sink = w.sink

theorem alike_withCache (w : World) (cache : Cache (List Topic)) :
    Alike w { w with topicCache := cache } :=
  ⟨fun m => by cases m <;> rfl, rfl, rfl, rfl⟩

theorem Alike.trans (h : Alike w w') (h' : Alike w' w'') : Alike w w'' :=
  ⟨fun m => (h'.shelf m).trans (h.shelf m), h'.files.trans h.files, h'.issued.trans h.issued,
    h'.sink.trans h.sink⟩

theorem Alike.unchanged (h : Alike w w') : Unchanged w w' :=
  fun m => ⟨fun id => by rw [h.shelf m, h.files], by rw [h.shelf m]⟩

theorem Unchanged.trans (h : Unchanged w w') (h' : Unchanged w' w'') : Unchanged w w'' :=
  fun m => ⟨fun id => ((h' m).fetch id).trans ((h m).fetch id), (h' m).feed.trans (h m).feed⟩

theorem Commits.of_unchanged {r : Versioned (Item m.State)} (h : Unchanged w w')
    (h' : Commits w' w'' m r) : Commits w w'' m r where
  stored := h'.stored
  others i hi := (h'.others i hi).trans ((h m).fetch i)
  queued k hk := by
    rw [← (h m).feed] at hk ⊢
    exact h'.queued k hk
  live := by rw [h'.live, (h m).feed]
  elsewhere n hn := ⟨fun i => ((h'.elsewhere n hn).fetch i).trans ((h n).fetch i),
    (h'.elsewhere n hn).feed.trans (h n).feed⟩

theorem Advances.of_alike {commit : Option (Versioned (Item m.State))} (h : Alike w w')
    (h' : Advances w' m id commit w'') : Advances w m id commit w'' := by
  cases h' with
  | unchanged hsame hissued hsink =>
    exact .unchanged (h.unchanged.trans hsame) (hissued.trans h.issued) (hsink.trans h.sink)
  | commits hid hcommits hissued hsink =>
    exact .commits hid (.of_unchanged h.unchanged hcommits) (by rw [hissued, h.issued])
      (hsink.trans h.sink)

/-- The record that was committed between two states, if a token was used up. -/
def committed (w w' : World) (m : MachineName) (id : String) : List (Versioned (Item m.State)) :=
  if w'.issued = w.issued then []
  else
    match (w'.shelf m).fetch w'.files id with
    | .ok (some r) => [r]
    | _ => []

theorem Advances.committed_eq {commit : Option (Versioned (Item m.State))}
    (h : Advances w m id commit w') : committed w w' m id = commit.toList := by
  unfold committed
  cases h with
  | unchanged hsame hissued hsink => rw [if_pos hissued, Option.toList_none]
  | commits hid hcommits hissued hsink =>
    rw [if_neg (by omega), ← hid, hcommits.stored, Option.toList_some]

/-- In each queue there is more: the given commits of its machine. The sink was not used. -/
structure Queues (w : World) (commits : (m : MachineName) → List (Versioned (Item m.State)))
    (w' : World) : Prop where
  sound : w'.Sound
  sink : w'.sink = w.sink
  live : ∀ m, (w'.shelf m).feed.isLive = (w.shelf m).feed.isLive
  queue : ∀ m k, (w.shelf m).feed.isLive k = true →
    (w'.shelf m).feed.queue k = (w.shelf m).feed.queue k ++ commits m

theorem Queues.refl (hw : w.Sound) : w.Queues (fun _ => []) w :=
  ⟨hw, rfl, fun _ => rfl, fun _ _ _ => (List.append_nil _).symm⟩

theorem Queues.trans {cs ds : (m : MachineName) → List (Versioned (Item m.State))}
    (h : w.Queues cs w') (h' : w'.Queues ds w'') : w.Queues (fun m => cs m ++ ds m) w'' where
  sound := h'.sound
  sink := h'.sink.trans h.sink
  live m := (h'.live m).trans (h.live m)
  queue m k hk := by
    rw [h'.queue m k (by rwa [h.live m]), h.queue m k hk, List.append_assoc]

theorem queues_of_unchanged (h : Unchanged w w') (hw' : w'.Sound) (hsink : w'.sink = w.sink) :
    w.Queues (fun _ => []) w' :=
  ⟨hw', hsink, fun m => by rw [(h m).feed], fun m k _ => by rw [(h m).feed, List.append_nil]⟩

theorem Advances.queues {commit : Option (Versioned (Item m.State))}
    (h : Advances w m id commit w') (hw' : w'.Sound) :
    w.Queues (fun n => if n = m then committed w w' n id else []) w' := by
  have hcommitted := h.committed_eq
  cases h with
  | unchanged hsame hissued hsink =>
    have hnone : (fun n => if n = m then committed w w' n id else []) = fun _ => [] := by
      funext n
      by_cases hn : n = m
      · subst hn
        simpa using hcommitted
      · rw [if_neg hn]
    rw [hnone]
    exact queues_of_unchanged hsame hw' hsink
  | commits hid hcommits hissued hsink =>
    refine ⟨hw', hsink, fun n => ?_, fun n k hk => ?_⟩
    · by_cases hn : n = m
      · subst hn
        exact hcommits.live
      · rw [(hcommits.elsewhere n hn).feed]
    · by_cases hn : n = m
      · subst hn
        rw [if_pos rfl, hcommitted]
        exact hcommits.queued k hk
      · rw [if_neg hn, (hcommits.elsewhere n hn).feed, List.append_nil]

end World

namespace Circumstances

variable {w w' : World} {m : MachineName} {id : String} {faults : MachineName → Faults}

/-- Nobody else comes between a request's read and its save; the stores may fail. -/
def alone (faults : MachineName → Faults) : Circumstances where
  faults := faults

/-- What has come of a request to the machine `m` for `id`. A caller that gave up on a save does not
know whether its record was committed. -/
def Settled (faults : MachineName → Faults) (w : World) (m : MachineName) (id : String)
    (answer : Response × World) : Prop :=
  ∃ commit, World.Advances w m id commit answer.2 ∧
    (answer.1.isSuccess = true →
      ∃ r ∈ commit, answer.1 = .noContent ∨ answer.1 = .ofRecord r) ∧
    (answer.1.isSuccess = false → (faults m).save ≠ some .commitThenStall → commit = none)

section Apply

variable {K A : Type} [DecidableEq m.State] [DecidableEq K] [Named K] {t : Machine m.State K A}
  {limits : Timeouts} {action : A}

theorem advances_of_apply {result : Except ApplyError (Versioned (Item m.State))} (hw : w.Sound)
    (ha : t.Admits action) (h : t.apply limits ((alone faults).store m) id action w = (result, w')) :
    ∃ commit, World.Advances w m id commit w' ∧ (∀ r, result = .ok r → commit = some r) ∧
      ∀ e, result = .error e → (faults m).save ≠ some .commitThenStall → commit = none := by
  have hnothing : World.Advances w m id none w := .unchanged (.refl w) rfl rfl
  rcases apply_cases hw ha h with ⟨⟨e, rfl⟩, rfl⟩ | ⟨next, expected, reply, hfits, hs, rfl⟩
  · exact ⟨none, hnothing, by simp, fun _ _ _ => rfl⟩
  · rcases save_store hs with hsave | ⟨hreply, rfl | ⟨hfault, rfl⟩⟩
    · obtain ⟨commit, hadvances, hcommit⟩ := World.advances_of_save hw hfits hsave
      refine ⟨commit, hadvances, fun r hr => (hcommit r).mp (Machine.bounded_eq_ok.mp hr), ?_⟩
      rintro e he -
      cases commit with
      | none => rfl
      | some r =>
        rw [(hcommit r).mpr rfl] at he
        cases he
    · exact ⟨none, hnothing, fun r hr => absurd (Machine.bounded_eq_ok.mp hr) (hreply r),
        fun _ _ _ => rfl⟩
    · obtain ⟨commit, hadvances, -⟩ := World.advances_of_save hw hfits (Prod.eta _).symm
      exact ⟨commit, hadvances, fun r hr => absurd (Machine.bounded_eq_ok.mp hr) (hreply r),
        fun _ _ hne => absurd hfault hne⟩

theorem settled_applyTo (hw : w.Sound) (ha : t.Admits action) :
    Settled faults w m id
      (((alone faults).controller limits).applyTo t ((alone faults).store m) id action w) := by
  rcases h : t.apply ((alone faults).controller limits).limits ((alone faults).store m) id action w
    with ⟨e | r, w'⟩
  · obtain ⟨commit, hadvances, -, herror⟩ := advances_of_apply hw ha h
    rw [applyTo_of_error h]
    exact ⟨commit, hadvances, fun hs => absurd hs (by simp), fun _ => herror e rfl⟩
  · obtain ⟨commit, hadvances, hok, -⟩ := advances_of_apply hw ha h
    obtain ⟨response, happly, hr⟩ := applyTo_of_ok h
    rw [happly]
    exact ⟨commit, hadvances, fun _ => ⟨r, hok r rfl, hr⟩,
      fun hf => absurd ((isSuccess_of_answer hr).symm.trans hf) (by simp)⟩

end Apply

theorem Settled.of_alike {answer : Response × World} (h : World.Alike w w')
    (h' : Settled faults w' m id answer) : Settled faults w m id answer := by
  obtain ⟨commit, hadvances, hanswer⟩ := h'
  exact ⟨commit, hadvances.of_alike h, hanswer⟩

theorem settled_of_dispatch (hw : w.Sound) (limits : Timeouts) (m : MachineName)
    (action id : String) (payload : Json) : Settled faults w m id
      (((alone faults).controller limits).dispatch m action id payload w) := by
  refine dispatch_cases (alone faults) limits m action id payload w (motive := Settled faults w m id)
    ?_ ?_
  · intro response cache hr
    have halike := World.alike_withCache w cache
    exact ⟨none, .unchanged halike.unchanged rfl rfl, fun hs => absurd (hs.symm.trans hr) (by simp),
      fun _ _ => rfl⟩
  · intro K A _ _ _ t a cache ha
    exact (settled_applyTo (sound_withCache hw cache) ha).of_alike (World.alike_withCache w cache)

theorem lookUp_snd (c : Circumstances) (limits : Timeouts) (m : MachineName) (id : String)
    (w : World) : ((c.controller limits).lookUp m id w).2 = w := by
  have hshow : ∀ (n : MachineName) (machine : String) (v : Controller World),
      (v.showFrom machine (c.store n) id w).2 = w := by
    intro n machine v
    have hget : (Machine.get v.limits (c.store n) id w).2 = w := (c.fetch_store n id w).1
    unfold Controller.showFrom
    rw [state_bind, hget]
    rcases (Machine.get v.limits (c.store n) id w).1 with e | found | r <;> rfl
  cases m with
  | lifecycle => exact hshow .lifecycle _ _
  | publication => exact hshow .publication _ _

theorem listTopics_snd (c : Circumstances) (limits : Timeouts) (w : World) :
    ∃ cache, ((c.controller limits).listTopics w).2 = { w with topicCache := cache } := by
  obtain ⟨loaded, cache, h⟩ := topics_eq w
  refine ⟨cache, ?_⟩
  unfold Controller.listTopics
  have htopics : (c.controller limits).topics w = (loaded, { w with topicCache := cache }) := h
  rw [state_bind, htopics]
  cases loaded <;> rfl

end Circumstances

/-- What the application can be asked. -/
inductive Ask where
  | act (m : MachineName) (action id : String) (payload : Json)
  | lookUp (m : MachineName) (id : String)
  | listTopics

def Ask.send {σ : Type} (c : Controller σ) : Ask → StateM σ Response
  | .act m action id payload => c.dispatch m action id payload
  | .lookUp m id => c.lookUp m id
  | .listTopics => c.listTopics

/-- A request with the time it comes at, the locks that others hold then, and the faults it meets. -/
structure Request where
  ask : Ask
  now : Instant
  valid : now.Valid
  lockFree : MachineName → Bool := fun _ => true
  faults : MachineName → Faults := fun _ => {}

namespace Request

variable {w : World} {q : Request} {limits : Timeouts}

def arrive (q : Request) (w : World) : World := { w with now := q.now, lockFree := q.lockFree }

def handle (limits : Timeouts) (q : Request) : StateM World Response := fun w =>
  q.ask.send ((Circumstances.alone q.faults).controller limits) (q.arrive w)

/-- What a request commits to the store of a machine: one record or none. -/
def commits (limits : Timeouts) (q : Request) (w : World) (m : MachineName) :
    List (Versioned (Item m.State)) :=
  match q.ask with
  | .act n _ id _ => if m = n then World.committed w (q.handle limits w).2 m id else []
  | .lookUp _ _ | .listTopics => []

theorem alike_arrive (q : Request) (w : World) : World.Alike w (q.arrive w) :=
  ⟨fun m => by cases m <;> rfl, rfl, rfl, rfl⟩

theorem sound_arrive (hw : w.Sound) (q : Request) : (q.arrive w).Sound := by
  have h := alike_arrive q w
  exact hw.congr q.valid (fun m => by rw [h.shelf m]) (fun m => by rw [h.shelf m]; exact hw.feed m)
    fun m => by rw [h.shelf m]; exact hw.fits m

section Act

variable {m : MachineName} {action id : String} {payload : Json}

theorem handle_act (hq : q.ask = .act m action id payload) : q.handle limits w =
    ((Circumstances.alone q.faults).controller limits).dispatch m action id payload (q.arrive w) := by
  rw [handle, hq, Ask.send]

theorem settled_handle (hw : w.Sound) (limits : Timeouts) (hq : q.ask = .act m action id payload) :
    Circumstances.Settled q.faults w m id (q.handle limits w) := by
  rw [handle_act hq]
  exact (Circumstances.settled_of_dispatch (sound_arrive hw q) limits m action id payload).of_alike
    (alike_arrive q w)

theorem commits_act (hq : q.ask = .act m action id payload) : q.commits limits w =
    fun n => if n = m then World.committed w (q.handle limits w).2 n id else [] := by
  funext n
  rw [commits, hq]

theorem commits_of_read (hq : ∀ m action id payload, q.ask ≠ .act m action id payload) :
    q.commits limits w = fun _ => [] := by
  funext m
  unfold commits
  split
  · next n action id payload h => exact absurd h (hq n action id payload)
  · rfl
  · rfl

end Act

/-- One request. -/
theorem queues_handle (hw : w.Sound) (limits : Timeouts) (q : Request) :
    w.Queues (q.commits limits w) (q.handle limits w).2 := by
  have halike := alike_arrive q w
  have hsound := sound_arrive hw q
  cases hq : q.ask with
  | act m action id payload =>
    obtain ⟨commit, hadvances, -⟩ := settled_handle hw limits hq
    rw [commits_act hq]
    refine hadvances.queues ?_
    rw [handle_act hq]
    exact Circumstances.sound_of_dispatch hsound (fun _ hv => hv) limits m action id payload
  | lookUp m id =>
    have hhandle : (q.handle limits w).2 = q.arrive w := by
      rw [handle, hq, Ask.send, Circumstances.lookUp_snd]
    rw [hhandle, commits_of_read (by simp [hq])]
    exact World.queues_of_unchanged halike.unchanged hsound halike.sink
  | listTopics =>
    obtain ⟨cache, h⟩ := Circumstances.listTopics_snd (.alone q.faults) limits (q.arrive w)
    have hhandle : (q.handle limits w).2 = { q.arrive w with topicCache := cache } := by
      rw [handle, hq, Ask.send, h]
    have hcached := halike.trans (World.alike_withCache (q.arrive w) cache)
    rw [hhandle, commits_of_read (by simp [hq])]
    exact World.queues_of_unchanged hcached.unchanged (Circumstances.sound_withCache hsound cache)
      hcached.sink

/-- The state after some requests, one after the other. -/
def after (limits : Timeouts) : List Request → World → World
  | [], w => w
  | q :: qs, w => after limits qs (q.handle limits w).2

/-- The commits of some requests to the store of a machine, in order. -/
def allCommits (limits : Timeouts) : List Request → World → (m : MachineName) →
    List (Versioned (Item m.State))
  | [], _, _ => []
  | q :: qs, w, m => q.commits limits w m ++ allCommits limits qs (q.handle limits w).2 m

/-- A whole run of requests. -/
theorem queues_after (hw : w.Sound) (limits : Timeouts) (qs : List Request) :
    w.Queues (allCommits limits qs w) (after limits qs w) := by
  induction qs generalizing w with
  | nil => exact .refl hw
  | cons q qs ih =>
    have hstep := queues_handle hw limits q
    exact hstep.trans (ih hstep.sound)

end Request
end ServiceCatalog
