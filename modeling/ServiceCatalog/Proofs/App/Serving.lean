import ServiceCatalog.Proofs.App.Parallel
import ServiceCatalog.Proofs.Watch.WorkItem

/-!
Requests that are followed up at once. What is handed out then are the items of their commits, and other
tokens only give these other names.
-/
namespace ServiceCatalog

variable {ρ : Token → Token}

/-- The item with other tokens. -/
def WorkItem.rename (ρ : Token → Token) : WorkItem → WorkItem
  | .review r => .review { r with version := ρ r.version }
  | .history r => .history { r with version := ρ r.version }
  | .lifecycleDetail r => .lifecycleDetail r
  | .publicationDetail r => .publicationDetail r
  | .noAction => .noAction

namespace WorkItem

@[simp] theorem kind_rename (item : WorkItem) : (item.rename ρ).kind = item.kind := by
  cases item <;> rfl

@[simp] theorem rename_eq_noAction {item : WorkItem} :
    item.rename ρ = .noAction ↔ item = .noAction := by
  cases item <;> simp [rename]

@[simp] theorem isActionable_rename (item : WorkItem) :
    (item.rename ρ).isActionable = item.isActionable := by
  cases item <;> rfl

theorem Fits.rename {item : WorkItem} (h : item.Fits) : (item.rename ρ).Fits := by
  cases item <;> exact h

end WorkItem

/-- What a watcher makes of a commit depends on its token only where it repeats it. -/
theorem Watcher.handle_rename {S : Type} [Named S] (w : Watcher S) (c : Versioned (Item S)) :
    w.handle (c.rename ρ) = (w.handle c).rename ρ := by
  have hstate : (c.rename ρ).document = c.document := rfl
  unfold handle
  rw [hstate]
  cases w.ruleFor c.document.state with
  | requestReview => rfl
  | requestDetail kind => cases kind <;> rfl
  | requestHistory => rfl
  | noAction => rfl

theorem Watcher.map_handle_rename {S : Type} [Named S] (w : Watcher S)
    (cs : List (Versioned (Item S))) :
    (cs.map (·.rename ρ)).map w.handle = (cs.map w.handle).map (·.rename ρ) := by
  rw [List.map_map, List.map_map]
  exact List.map_congr_left fun c _ => w.handle_rename c

theorem World.workOf_rename (ls : List (Versioned (Item Lifecycle.State)))
    (ps : List (Versioned (Item Publication.State))) :
    workOf (ls.map (·.rename ρ)) (ps.map (·.rename ρ)) = (workOf ls ps).map (·.rename ρ) := by
  simp only [workOf, Watcher.map_handle_rename, List.map_append]

theorem World.fits_of_mem_workOf {ls : List (Versioned (Item Lifecycle.State))}
    {ps : List (Versioned (Item Publication.State))}
    (hls : ∀ r ∈ ls, r.document.service.Fits ∧ r.modifiedAt.Valid)
    (hps : ∀ r ∈ ps, r.document.service.Fits ∧ r.modifiedAt.Valid) {item : WorkItem}
    (h : item ∈ workOf ls ps) : item.Fits := by
  simp only [workOf, List.mem_append, List.mem_map] at h
  rcases h with ⟨r, hr, rfl⟩ | ⟨r, hr, rfl⟩ | ⟨r, hr, rfl⟩
  · exact Watcher.editorial.fits_handle (hls r hr).1 (hls r hr).2
  · exact Watcher.publicDetail.fits_handle (hps r hr).1 (hps r hr).2
  · exact Watcher.archive.fits_handle (hps r hr).1 (hps r hr).2

/-- What comes of some items where the sink takes every one. -/
def accepted (items : List WorkItem) : List Outcome :=
  items.map fun item => if item = .noAction then .skipped else .delivered item

theorem dispatched_accepted (items : List WorkItem) :
    dispatched (fun _ _ => .accepted) items = accepted items :=
  dispatched_of_item (fun _ => .accepted) items

theorem delivered_accepted (items : List WorkItem) :
    delivered (accepted items) = items.filter (·.isActionable) := by
  rw [← dispatched_accepted]
  refine delivered_dispatched fun item hitem => ?_
  rw [dispatched_accepted, accepted, List.mem_map] at hitem
  obtain ⟨other, -, ho⟩ := hitem
  split at ho <;> cases ho

namespace World

section Drain

variable {w : World} {s : Subscription} {ls : List (Versioned (Item Lifecycle.State))}
  {ps : List (Versioned (Item Publication.State))} {items : List WorkItem}

/-- A drain while the sink takes every item. -/
theorem drain_accepted (hw : w.Sound) (ha : s.Awaits w ls ps)
    (haccept : w.answer = fun _ _ => .accepted) :
    ∃ w' tried, drain s w = (accepted (workOf ls ps), w') ∧
      w.Received tried ((workOf ls ps).filter (·.isActionable)) w' ∧ w'.Sound ∧
      s.Awaits w' [] [] := by
  obtain ⟨w', hdrain, hreceived, hsound, hempty, -⟩ := drain_spec hw ha
  rw [haccept, dispatched_accepted] at hdrain hreceived
  rw [delivered_accepted] at hreceived
  exact ⟨w', _, hdrain, hreceived, hsound, hempty⟩

theorem drain_memory (hw : w.Sound) (ha : s.Awaits w ls ps)
    (hs : w.sink = .memory { items := items }) :
    ∃ w', drain s w = (accepted (workOf ls ps), w') ∧
      w'.sink = .memory { items := items ++ (workOf ls ps).filter (·.isActionable) } ∧ w'.Sound ∧
      s.Awaits w' [] [] := by
  have haccept : w.answer = fun _ _ => .accepted := by
    rw [answer_of_memory hs]
    funext _ item
    unfold MemorySink.answer
    cases item.subjectId <;> rfl
  obtain ⟨w', tried, hdrain, hreceived, hsound, hempty⟩ := drain_accepted hw ha haccept
  rw [Received, hs] at hreceived
  exact ⟨w', hdrain, hreceived.1, hsound, hempty⟩

/-- Each item adds its line to the log. -/
theorem drain_log {path text : String} {p : Place} (hw : w.Sound) (ha : s.Awaits w ls ps)
    (hs : w.sink = .log path) (he : (Path.ofText path).ending = .name)
    (hr : w.files.resolve (.ofText path) = .ok p) (hp : w.files.get? p = some (.file (.text text))) :
    ∃ w', drain s w = (accepted (workOf ls ps), w') ∧
      w'.files.get? p = some (.file (.text
        (text ++ String.join (((workOf ls ps).filter (·.isActionable)).map ItemLog.line)))) ∧
      w.files.ChangesFiles {p} w'.files := by
  have htakes : w.files.TakesText (.ofText path) := ⟨he, p, hr, by simp [hp]⟩
  have haccept : w.answer = fun _ _ => .accepted := by
    funext n item
    exact answer_of_log hs htakes n item
  obtain ⟨w', tried, hdrain, hreceived, -⟩ := drain_accepted hw ha haccept
  rw [Received, hs] at hreceived
  obtain ⟨htext, hc⟩ := ItemLog.text_of_publishAll hreceived.2 hr hp
  exact ⟨w', hdrain, htext, hc⟩

end Drain

end World

/-- The lines of a log that has taken these items with other tokens. -/
def ItemLog.lines (ρ : Token → Token) (items : List WorkItem) : String :=
  String.join ((items.map (·.rename ρ)).map line)

theorem ItemLog.lines_append (ρ : Token → Token) (xs ys : List WorkItem) :
    lines ρ (xs ++ ys) = lines ρ xs ++ lines ρ ys := by
  simp only [lines, List.map_append, String.join_append]

namespace World

/-- After a drain on both sides: the sink in memory has taken the items of these commits, and the log
their lines. -/
structure FollowedUp (ρ : Token → Token) (p : Place) (start : World) (s : Subscription)
    (taken work : List WorkItem) (a w : World) : Prop where
  sound : a.Sound
  wired : a.Wired
  list : a.topicList = start.topicList
  awaits : s.Awaits a [] []
  sink : a.sink = .memory { items := taken ++ work.filter (·.isActionable) }
  slot : ∀ m id, (a.slot m id).Matches ρ id (w.slot m id)
  path : ∀ m, (w.shelf m).path? = (start.shelf m).path?
  directories : start.files.DirectoriesStay w.files
  text : w.files.get? p =
    some (.file (.text (ItemLog.lines ρ (taken ++ work.filter (·.isActionable)))))

theorem Parallel.drain {p : Place} {n : Nat} {start a w : World} {s s' : Subscription}
    {taken : List WorkItem} {path : String} {ls : List (Versioned (Item Lifecycle.State))}
    {ps : List (Versioned (Item Publication.State))} (h : Parallel ρ p start n a w)
    (ha : s.Awaits a ls ps) (hmemory : a.sink = .memory { items := taken }) (hw : w.Sound)
    (hb : s'.Awaits w (ls.map (·.rename ρ)) (ps.map (·.rename ρ))) (hlog : w.sink = .log path)
    (he : (Path.ofText path).ending = .name) (hr : w.files.resolve (.ofText path) = .ok p)
    (ht : w.files.get? p = some (.file (.text (ItemLog.lines ρ taken)))) :
    ∃ a' w', World.drain s a = (accepted (workOf ls ps), a') ∧
      World.drain s' w = (accepted ((workOf ls ps).map (·.rename ρ)), w') ∧
      FollowedUp ρ p start s taken (workOf ls ps) a' w' := by
  obtain ⟨a', hdrain, hsink, hsound, hempty⟩ := drain_memory h.sound ha hmemory
  obtain ⟨w', hdrain', htext, hc⟩ := drain_log hw hb hlog he hr ht
  have hquiet : a.Quiet (World.drain s a).2 :=
    (logAside_of_noLog (by simp [hmemory])).drain s
  have haside : w.LogAside := h.spares.logAside fun path' hpath => by
    rw [hlog] at hpath
    cases hpath
    exact hr
  have hquiet' := haside.drain s'
  rw [hdrain] at hquiet
  rw [hdrain'] at hquiet'
  rw [workOf_rename] at hdrain' htext
  refine ⟨a', w', hdrain, hdrain', hsound, h.left.quiet hquiet, hquiet.topics.1.trans h.list.1, hempty,
    hsink, fun m id => ?_, fun m => (hquiet'.path m).trans (h.path m),
    h.frame.directoriesStay.trans hc.directoriesStay, ?_⟩
  · rw [hquiet.slot, hquiet'.slot]
    exact h.slot m id
  · have hfilter : ((workOf ls ps).map (·.rename ρ)).filter (·.isActionable) =
        ((workOf ls ps).filter (·.isActionable)).map (·.rename ρ) := by
      simp only [List.filter_map, Function.comp_def, WorkItem.isActionable_rename]
    rw [htext, hfilter, ItemLog.lines_append]
    rfl

end World

/-- The id that a request is about. -/
def Ask.subject : Ask → String
  | .act _ _ id _ => id
  | .lookUp _ id => id
  | .listTopics => ""

/-- A request that only reads. -/
def Ask.IsRead (q : Ask) : Prop := ∀ m action id payload, q ≠ .act m action id payload

theorem Ask.IsRead.files {q : Ask} (hq : q.IsRead) (limits : Timeouts) (w : World) :
    (q.send (World.controller limits) w).2.files = w.files := by
  cases q with
  | act m action id payload => exact absurd rfl (hq m action id payload)
  | lookUp m id =>
    exact congrArg World.files (Circumstances.lookUp_snd (.alone fun _ => {}) limits m id w)
  | listTopics =>
    obtain ⟨cache, h⟩ := Circumstances.listTopics_snd (.alone fun _ => {}) limits w
    have hfiles := congrArg World.files h
    exact hfiles

namespace Stamped

theorem handle_eq (limits : Timeouts) (q : Stamped) (w : World) :
    q.handle limits w = q.request.handle limits (q.arrive w) := rfl

/-- The request is handled, and then its commits are followed up. -/
def serve (limits : Timeouts) (s : World.Subscription) (q : Stamped) :
    StateM World (Response × List Outcome) := do
  let response ← q.handle limits
  let outcomes ← World.drain s
  return (response, outcomes)

theorem serve_of_drain {limits : Timeouts} {s : World.Subscription} {q : Stamped} {w w' : World}
    {outcomes : List Outcome} (h : World.drain s (q.handle limits w).2 = (outcomes, w')) :
    q.serve limits s w = (((q.handle limits w).1, outcomes), w') := by
  unfold serve
  rw [state_bind, state_bind, h]
  rfl

/-- The state after these requests. -/
def served (limits : Timeouts) (s : World.Subscription) : List Stamped → World → World
  | [], w => w
  | q :: qs, w => served limits s qs (q.serve limits s w).2

/-- The items that these requests lead to, in the order in which the sink takes them. -/
def collected (limits : Timeouts) (s : World.Subscription) : List Stamped → World → List WorkItem
  | [], _ => []
  | q :: qs, w => delivered (q.serve limits s w).1.2 ++ collected limits s qs (q.serve limits s w).2

theorem served_append (limits : Timeouts) (s : World.Subscription) (xs ys : List Stamped) (w : World) :
    served limits s (xs ++ ys) w = served limits s ys (served limits s xs w) := by
  induction xs generalizing w with
  | nil => rfl
  | cons x xs ih => exact ih _

theorem collected_append (limits : Timeouts) (s : World.Subscription) (xs ys : List Stamped)
    (w : World) : collected limits s (xs ++ ys) w =
      collected limits s xs w ++ collected limits s ys (served limits s xs w) := by
  induction xs generalizing w with
  | nil => rfl
  | cons x xs ih =>
    rw [List.cons_append, collected, collected, ih, List.append_assoc]
    rfl

end Stamped
end ServiceCatalog
