import ServiceCatalog.Proofs.App.Queues
import ServiceCatalog.Proofs.App.Sink

/-!
Every commit since a subscription is dispatched once: the pipelines take it from their queues in the
order of the commits, and what the sink takes are the items of these commits.
-/
namespace ServiceCatalog

namespace World

variable {w w' : World} {m : MachineName} {n tried : Nat} {items : List WorkItem}

theorem Sound.withFeed (hw : w.Sound) {f : Feed (Item m.State)} (hf : f.Sound) :
    (w.withFeed m f).Sound := by
  have hparts : ∀ k, ((w.withFeed m f).shelf k).path? = (w.shelf k).path? ∧
      ((w.withFeed m f).shelf k).feed.Sound ∧ ((w.withFeed m f).shelf k).Fits := by
    intro k
    by_cases hk : k = m
    · subst hk
      rw [shelf_withFeed, Shelf.feed_withFeed]
      exact ⟨Shelf.path?_withFeed _ _, hf, (hw.fits k).withFeed f⟩
    · rw [shelf_withFeed_of_ne w m f hk]
      exact ⟨rfl, hw.feed k, hw.fits k⟩
  exact hw.congr (by cases m <;> exact hw.now) (fun k => (hparts k).1) (fun k => (hparts k).2.1)
    fun k => (hparts k).2.2

theorem Sound.withSink (hw : w.Sound) (sink : SinkState) : World.Sound { w with sink := sink } :=
  hw.congr hw.now (fun m => by cases m <;> rfl) (fun m => by cases m <;> exact hw.feed _)
    fun m => by cases m <;> exact hw.fits _

/-- Follows up all that is queued for a subscriber of a machine. -/
def follow (m : MachineName) (n : Nat) (watcher : Watcher m.State) : StateM World (List Outcome) := do
  Pipeline.processAll itemSink watcher (← take m n)

theorem drain_eq (s : Subscription) : drain s = do
    let a ← follow .lifecycle s.editorial .editorial
    let b ← follow .publication s.publicDetail .publicDetail
    let c ← follow .publication s.archive .archive
    return a ++ b ++ c := rfl

/-- A queue was emptied and its items put to the sink; nothing else was done. -/
structure Follows (w : World) (m : MachineName) (n tried : Nat) (items : List WorkItem)
    (w' : World) : Prop where
  received : w.Received tried items w'
  answer : w'.answer = fun n => w.answer (n + tried)
  now : w'.now = w.now
  elsewhere : ∀ k, k ≠ m → w'.shelf k = w.shelf k
  emptied : w'.shelf m = (w.shelf m).withFeed ((w.shelf m).feed.withQueue n [])

theorem Publishes.follows (h : w.Publishes tried items w') (m : MachineName) (n : Nat) :
    w.Follows m n tried items (w'.withFeed m ((w.shelf m).feed.withQueue n [])) where
  received := by
    have hreceived := h.received
    unfold Received at hreceived ⊢
    cases m <;> exact hreceived
  answer := by rw [answer_withFeed, h.answer]
  now := by cases m <;> exact h.now
  elsewhere k hk := by rw [shelf_withFeed_of_ne _ _ _ hk, h.shelf k]
  emptied := by rw [shelf_withFeed, h.shelf m]

theorem Follows.sound (h : w.Follows m n tried items w') (hw : w.Sound) : w'.Sound := by
  have hparts : ∀ k, (w'.shelf k).path? = (w.shelf k).path? ∧ (w'.shelf k).feed.Sound ∧
      (w'.shelf k).Fits := by
    intro k
    by_cases hk : k = m
    · subst hk
      rw [h.emptied, Shelf.feed_withFeed]
      exact ⟨Shelf.path?_withFeed _ _, (hw.feed k).withQueue n [], (hw.fits k).withFeed _⟩
    · rw [h.elsewhere k hk]
      exact ⟨rfl, hw.feed k, hw.fits k⟩
  exact hw.congr (h.now ▸ hw.now) (fun k => (hparts k).1) (fun k => (hparts k).2.1)
    fun k => (hparts k).2.2

/-- The subscriber is there and has these commits queued. -/
def Awaits (w : World) (m : MachineName) (n : Nat) (cs : List (Versioned (Item m.State))) : Prop :=
  (w.shelf m).feed.isLive n = true ∧ (w.shelf m).feed.queue n = cs

theorem Follows.awaits_self {cs : List (Versioned (Item m.State))}
    (h : w.Follows m n tried items w') (ha : w.Awaits m n cs) : w'.Awaits m n [] := by
  unfold Awaits
  rw [h.emptied, Shelf.feed_withFeed, Feed.isLive_withQueue]
  exact ⟨ha.1, Feed.queue_withQueue ha.1 []⟩

theorem Follows.awaits_of_ne {k : Nat} {cs : List (Versioned (Item m.State))}
    (h : w.Follows m n tried items w') (hk : k ≠ n) (ha : w.Awaits m k cs) : w'.Awaits m k cs := by
  unfold Awaits
  rw [h.emptied, Shelf.feed_withFeed, Feed.isLive_withQueue, Feed.queue_withQueue_of_ne hk]
  exact ha

theorem Follows.awaits_elsewhere {l : MachineName} {k : Nat}
    {cs : List (Versioned (Item l.State))} (h : w.Follows m n tried items w') (hl : l ≠ m)
    (ha : w.Awaits l k cs) : w'.Awaits l k cs := by
  unfold Awaits
  rw [h.elsewhere l hl]
  exact ha

section Follow

variable (watcher : Watcher m.State) {cs : List (Versioned (Item m.State))}

theorem follow_eq (ha : w.Awaits m n cs) : follow m n watcher w =
    ((Pipeline.processAll itemSink watcher cs w).1,
      (Pipeline.processAll itemSink watcher cs w).2.withFeed m
        ((w.shelf m).feed.withQueue n [])) := by
  rw [← processAll_withFeed, ← ha.2]
  rfl

/-- All at once or one by one, it comes to the same. -/
theorem loops_processAll (hw : (w.shelf m).feed.Sound) (ha : w.Awaits m n cs) :
    Pipeline.Loops (receive m n) itemSink watcher w
      (Pipeline.processAll itemSink watcher cs w).1
      ((Pipeline.processAll itemSink watcher cs w).2.withFeed m
        ((w.shelf m).feed.withQueue n [])) := by
  obtain ⟨hlive, hqueue⟩ := ha
  induction cs generalizing w with
  | nil =>
    refine .stop ?_
    show ((w.shelf m).feed.receive n).map id (w.withFeed m) = _
    rw [Feed.receive_of_nil hqueue]
    have hself : (w.shelf m).feed.withQueue n [] = (w.shelf m).feed := by
      rw [← hqueue]
      exact Feed.withQueue_self hw n
    rw [hself]
    rfl
  | cons c rest ih =>
    have hreceive : receive m n w = (some c, w.withFeed m ((w.shelf m).feed.withQueue n rest)) := by
      show ((w.shelf m).feed.receive n).map id (w.withFeed m) = _
      rw [Feed.receive_of_cons hqueue]
      rfl
    have hprocess := process_withFeed watcher c w m ((w.shelf m).feed.withQueue n rest)
    set u := (Pipeline.process itemSink watcher c w).2
    have hfeed : ((u.withFeed m ((w.shelf m).feed.withQueue n rest)).shelf m).feed =
        (w.shelf m).feed.withQueue n rest := by rw [shelf_withFeed, Shelf.feed_withFeed]
    have hrest := ih (w := u.withFeed m ((w.shelf m).feed.withQueue n rest))
      (by rw [hfeed]; exact hw.withQueue n rest) (by rw [hfeed, Feed.isLive_withQueue, hlive])
      (by rw [hfeed, Feed.queue_withQueue hlive])
    rw [hfeed, processAll_withFeed, withFeed_withFeed, Feed.withQueue_withQueue] at hrest
    exact .next hreceive hprocess hrest

theorem follow_of_empty (hw : w.Sound) (ha : w.Awaits m n []) :
    follow m n watcher w = ([], w) := by
  have hself : (w.shelf m).feed.withQueue n [] = (w.shelf m).feed := by
    rw [← ha.2]
    exact Feed.withQueue_self (hw.feed m) n
  rw [follow_eq watcher ha, hself]
  show ([], w.withFeed m (w.shelf m).feed) = _
  rw [withFeed_feed]

/-- One pipeline. -/
theorem follow_spec (hw : w.Sound) (ha : w.Awaits m n cs) :
    ∃ w', follow m n watcher w = (dispatched w.answer (cs.map watcher.handle), w') ∧
      w.Follows m n (attempts (cs.map watcher.handle))
        (delivered (dispatched w.answer (cs.map watcher.handle))) w' ∧
      Pipeline.Loops (receive m n) itemSink watcher w
        (dispatched w.answer (cs.map watcher.handle)) w' := by
  obtain ⟨houtcomes, hpublishes⟩ := processAll_eq watcher cs w
  refine ⟨_, ?_, hpublishes.follows m n, ?_⟩
  · rw [follow_eq watcher ha, houtcomes]
  · rw [← houtcomes]
    exact loops_processAll watcher (hw.feed m) ha

end Follow

/-- What every pipeline has to follow up. -/
structure Subscription.Awaits (s : Subscription) (w : World)
    (ls : List (Versioned (Item Lifecycle.State))) (ps : List (Versioned (Item Publication.State))) :
    Prop where
  apart : s.publicDetail ≠ s.archive
  editorial : w.Awaits .lifecycle s.editorial ls
  publicDetail : w.Awaits .publication s.publicDetail ps
  archive : w.Awaits .publication s.archive ps

/-- After a subscription nothing is queued. -/
theorem subscribe_awaits (hf : ∀ m, (w.shelf m).feed.Sound) :
    w.subscribe.1.Awaits w.subscribe.2 [] [] ∧ ∀ m, (w.subscribe.2.shelf m).feed.Sound := by
  have hl := hf .lifecycle
  have hp := hf .publication
  have hp' := hp.subscribe
  have hlifecycle : (w.subscribe.2.shelf .lifecycle).feed = w.lifecycle.feed.subscribe.2 :=
    Shelf.feed_withFeed w.lifecycle _
  have hpublication : (w.subscribe.2.shelf .publication).feed =
      w.publication.feed.subscribe.2.subscribe.2 := Shelf.feed_withFeed w.publication _
  refine ⟨⟨?_, ?_, ?_, ?_⟩, fun m => ?_⟩
  · exact Nat.ne_of_lt (Nat.lt_succ_self w.publication.feed.next)
  · rw [Awaits, hlifecycle]
    exact hl.subscribed
  · rw [Awaits, hpublication]
    exact Feed.subscribed_of_subscribed hp.subscribed
  · rw [Awaits, hpublication]
    exact hp'.subscribed
  · cases m with
    | lifecycle => exact hlifecycle ▸ hl.subscribe
    | publication => exact hpublication ▸ hp'.subscribe

theorem subscribe_spec (hw : w.Sound) : w.subscribe.2.Sound ∧ w.subscribe.2.sink = w.sink ∧
    w.subscribe.1.Awaits w.subscribe.2 [] [] := by
  have hl := hw.feed .lifecycle
  have hp' := (hw.feed .publication).subscribe.subscribe
  exact ⟨(hw.withFeed (m := .lifecycle) hl.subscribe).withFeed (m := .publication) hp', rfl,
    (subscribe_awaits hw.feed).1⟩

/-- What is committed is to be followed up. -/
theorem Subscription.Awaits.queues {s : Subscription}
    {cs : (m : MachineName) → List (Versioned (Item m.State))} (h : s.Awaits w [] [])
    (hq : w.Queues cs w') : s.Awaits w' (cs .lifecycle) (cs .publication) := by
  have hawaits : ∀ m n, w.Awaits m n [] → w'.Awaits m n (cs m) := by
    intro m n ha
    refine ⟨by rw [hq.live m, ha.1], ?_⟩
    rw [hq.queue m n ha.1, ha.2, List.nil_append]
  exact ⟨h.apart, hawaits _ _ h.editorial, hawaits _ _ h.publicDetail, hawaits _ _ h.archive⟩

/-- The loops of a drain, one after the other. -/
def Loops (s : Subscription) (w : World) (outcomes : List Outcome) (w' : World) : Prop :=
  ∃ a b c u v, outcomes = a ++ b ++ c ∧
    Pipeline.Loops (receive .lifecycle s.editorial) itemSink Watcher.editorial w a u ∧
    Pipeline.Loops (receive .publication s.publicDetail) itemSink Watcher.publicDetail u b v ∧
    Pipeline.Loops (receive .publication s.archive) itemSink Watcher.archive v c w'

/-- What the pipelines make of the commits of either machine, in the order of a drain. -/
def workOf (ls : List (Versioned (Item Lifecycle.State)))
    (ps : List (Versioned (Item Publication.State))) : List WorkItem :=
  ls.map Watcher.editorial.handle ++
    (ps.map Watcher.publicDetail.handle ++ ps.map Watcher.archive.handle)

/-- What a drain comes to, given the commits of either machine that are to be followed up. -/
structure Drained (s : Subscription) (ls : List (Versioned (Item Lifecycle.State)))
    (ps : List (Versioned (Item Publication.State))) (w : World) (result : List Outcome × World) :
    Prop where
  /-- One outcome for each commit and pipeline. -/
  outcomes : result.1 = dispatched w.answer (workOf ls ps)
  received : w.Received (attempts (workOf ls ps)) (delivered result.1) result.2
  again : drain s result.2 = ([], result.2)
  sound : result.2.Sound
  /-- Taking the commits one by one, as long as there are any, comes to an end and to the same. -/
  loops : Loops s w result.1 result.2
  /-- Where nothing fails, the history of a service is what was committed on it. -/
  history : (∀ item, .failed item ∉ result.1) → ∀ id,
    (histories id (delivered result.1)).map (fun h => (h.state, h.version, h.data)) =
      (ps.filter (·.id == id)).map
        fun c => (name c.document.state, c.version, c.document.service.data)

section Drain

variable {s : Subscription} {ls : List (Versioned (Item Lifecycle.State))}
  {ps : List (Versioned (Item Publication.State))}

theorem drain_of_empty (hw : w.Sound) (ha : s.Awaits w [] []) : drain s w = ([], w) := by
  have ha' := follow_of_empty (m := .lifecycle) .editorial hw ha.editorial
  have hb := follow_of_empty (m := .publication) .publicDetail hw ha.publicDetail
  have hc := follow_of_empty (m := .publication) .archive hw ha.archive
  rw [drain_eq, state_bind, ha', state_bind, hb, state_bind, hc]
  rfl

theorem histories_workOf (id : String) :
    (histories id ((workOf ls ps).filter (·.isActionable))).map
        (fun h => (h.state, h.version, h.data)) =
      (ps.filter (·.id == id)).map
        fun c => (name c.document.state, c.version, c.document.service.data) := by
  rw [workOf, List.filter_append, List.filter_append, histories_append, histories_append,
    histories_of_no_history Watcher.editorial_ne_history,
    histories_of_no_history Watcher.publicDetail_ne_history, List.nil_append, List.nil_append]
  exact Watcher.histories_archive id ps

/-- Three pipelines, one after the other; what one does leaves the queues of the others alone. -/
theorem drain_spec (hw : w.Sound) (ha : s.Awaits w ls ps) :
    ∃ w', drain s w = (dispatched w.answer (workOf ls ps), w') ∧
      w.Received (attempts (workOf ls ps)) (delivered (dispatched w.answer (workOf ls ps))) w' ∧
      w'.Sound ∧ s.Awaits w' [] [] ∧ Loops s w (dispatched w.answer (workOf ls ps)) w' := by
  have hne : MachineName.publication ≠ .lifecycle := by decide
  obtain ⟨u, hu, hfu, hlu⟩ := follow_spec (m := .lifecycle) .editorial hw ha.editorial
  have hsu := hfu.sound hw
  obtain ⟨v, hv, hfv, hlv⟩ := follow_spec (m := .publication) .publicDetail hsu
    (hfu.awaits_elsewhere hne ha.publicDetail)
  have hsv := hfv.sound hsu
  have hav : v.Awaits .publication s.archive ps :=
    hfv.awaits_of_ne ha.apart.symm (hfu.awaits_elsewhere hne ha.archive)
  obtain ⟨w', hw', hfw, hlw⟩ := follow_spec (m := .publication) .archive hsv hav
  have houtcomes : dispatched w.answer (ls.map Watcher.editorial.handle) ++
      dispatched u.answer (ps.map Watcher.publicDetail.handle) ++
      dispatched v.answer (ps.map Watcher.archive.handle) = dispatched w.answer (workOf ls ps) := by
    rw [workOf, dispatched_append, dispatched_append, hfv.answer, hfu.answer, List.append_assoc]
  have hempty : s.Awaits w' [] [] :=
    { apart := ha.apart
      editorial := hfw.awaits_elsewhere hne.symm (hfv.awaits_elsewhere hne.symm
        (hfu.awaits_self ha.editorial))
      publicDetail := hfw.awaits_of_ne ha.apart (hfv.awaits_self
        (hfu.awaits_elsewhere hne ha.publicDetail))
      archive := hfw.awaits_self hav }
  refine ⟨w', ?_, ?_, hfw.sound hsv, hempty, _, _, _, u, v, houtcomes.symm, hlu, hlv, hlw⟩
  · rw [drain_eq, state_bind, hu, state_bind, hv, state_bind, hw', ← houtcomes]
    rfl
  · rw [← houtcomes, delivered_append, delivered_append, workOf, attempts_append, attempts_append,
      ← Nat.add_assoc]
    exact (hfu.received.trans hfv.received).trans hfw.received

theorem drained_of_awaits (hw : w.Sound) (ha : s.Awaits w ls ps) :
    Drained s ls ps w (drain s w) := by
  obtain ⟨w', hdrain, hreceived, hsound, hempty, hloops⟩ := drain_spec hw ha
  rw [hdrain]
  refine ⟨rfl, hreceived, drain_of_empty hsound hempty, hsound, hloops, fun h id => ?_⟩
  rw [delivered_dispatched h]
  exact histories_workOf id

end Drain

/-- Whatever is asked of the application after a subscription, every commit is dispatched once. -/
theorem drained_after_subscribe (hw : w.Sound) (limits : Timeouts) (qs : List Request) :
    let start := w.subscribe.2
    let reached := Request.after limits qs start
    reached.sink = w.sink ∧
      Drained w.subscribe.1 (Request.allCommits limits qs start .lifecycle)
        (Request.allCommits limits qs start .publication) reached
        (drain w.subscribe.1 reached) := by
  obtain ⟨hstart, hsink, ha⟩ := subscribe_spec hw
  have hqueues := Request.queues_after hstart limits qs
  exact ⟨hqueues.sink.trans hsink, drained_of_awaits hqueues.sound (ha.queues hqueues)⟩

/-- An application whose sink never comes back from the second item it is asked to take. -/
def stalling : World :=
  { Circumstances.opened with
    sink := .given { answer := fun n _ => if n = 1 then .stalled else .accepted } }

open Race in
/-- A library is created, refused approval, released and published. -/
def libraryRequests : List Request :=
  [ { ask := .act .lifecycle "create" "library" libraryData.toJson,
      now := ⟨0, 0⟩, valid := by decide },
    { ask := .act .lifecycle "approve" "library" .null, now := ⟨1, 0⟩, valid := by decide },
    { ask := .act .publication "release" "library"
        (.obj [("id", .str "library"), ("data", libraryData.toJson)]),
      now := ⟨2, 0⟩, valid := by decide },
    { ask := .act .publication "publish" "library" .null, now := ⟨3, 0⟩, valid := by decide } ]

theorem drained_after_subscribe_stalling :
    let s := stalling.subscribe.1
    let start := stalling.subscribe.2
    let reached := Request.after {} libraryRequests start
    (drain s reached).1.length = 5 ∧
      (delivered (drain s reached).1).map WorkItem.kind =
        ["request_detail_lifecycle", "request_historicization", "request_historicization"] ∧
      reached.sink = stalling.sink ∧
      Drained s (Request.allCommits {} libraryRequests start .lifecycle)
        (Request.allCommits {} libraryRequests start .publication) reached (drain s reached) :=
  ⟨by decide +kernel, by decide +kernel,
    drained_after_subscribe (Circumstances.sound_opened.withSink _) {} libraryRequests⟩

end World
end ServiceCatalog
