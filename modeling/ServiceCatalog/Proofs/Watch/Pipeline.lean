import ServiceCatalog.Proofs.Except
import ServiceCatalog.Watch.Pipeline

/-! What a pipeline makes of each commit, and the loop that takes commits from a queue one by one. -/
namespace ServiceCatalog

/-- What an attempt to publish an item comes to. -/
def Outcome.of (item : WorkItem) : Delivery → Outcome
  | .accepted => .delivered item
  | .refused | .stalled => .failed item

/-- The items that were delivered, in order. -/
def delivered (outcomes : List Outcome) : List WorkItem :=
  outcomes.filterMap fun
    | .delivered item => some item
    | .skipped | .failed _ => none

theorem delivered_append (os ps : List Outcome) :
    delivered (os ++ ps) = delivered os ++ delivered ps :=
  List.filterMap_append

theorem WorkItem.isActionable_iff {item : WorkItem} : item.isActionable = true ↔ item ≠ .noAction := by
  cases item <;> simp [isActionable]

/-- How many of the items are put to the sink. -/
def attempts (items : List WorkItem) : Nat := (items.filter (·.isActionable)).length

/-- The outcomes of some items in order. Each depends on its item and on the sink's answer to it alone;
`answer` is numbered by the attempts. -/
def dispatched (answer : Nat → WorkItem → Delivery) : List WorkItem → List Outcome
  | [] => []
  | item :: rest =>
    if item = .noAction then .skipped :: dispatched answer rest
    else .of item (answer 0 item) :: dispatched (fun n => answer (n + 1)) rest

section Dispatched

variable {answer : Nat → WorkItem → Delivery} {item : WorkItem} {items : List WorkItem}

theorem attempts_append (xs ys : List WorkItem) :
    attempts (xs ++ ys) = attempts xs + attempts ys := by
  rw [attempts, List.filter_append, List.length_append]
  rfl

theorem attempts_of_ne (h : item ≠ .noAction) : attempts [item] = 1 := by
  rw [attempts, List.filter_cons_of_pos (WorkItem.isActionable_iff.mpr h)]
  rfl

theorem dispatched_of_ne (h : item ≠ .noAction) :
    dispatched answer [item] = [.of item (answer 0 item)] := by
  rw [dispatched, if_neg h, dispatched]

theorem dispatched_append (answer : Nat → WorkItem → Delivery) (xs ys : List WorkItem) :
    dispatched answer (xs ++ ys) =
      dispatched answer xs ++ dispatched (fun n => answer (n + attempts xs)) ys := by
  induction xs generalizing answer with
  | nil => rfl
  | cons x xs ih =>
    have hcount : attempts (x :: xs) = attempts [x] + attempts xs := attempts_append [x] xs
    rw [List.cons_append, dispatched, dispatched, hcount]
    by_cases hx : x = .noAction
    · subst hx
      have hnone : attempts [.noAction] = 0 := rfl
      rw [if_pos rfl, if_pos rfl, ih, hnone, Nat.zero_add, List.cons_append]
    · rw [if_neg hx, if_neg hx, ih, attempts_of_ne hx, List.cons_append]
      simp only [Nat.add_assoc, Nat.add_comm 1]

/-- A sink that judges each item by itself. -/
theorem dispatched_of_item (answer : WorkItem → Delivery) (items : List WorkItem) :
    dispatched (fun _ => answer) items =
      items.map fun item => if item = .noAction then .skipped else .of item (answer item) := by
  induction items with
  | nil => rfl
  | cons item items ih =>
    rw [dispatched, ih, List.map_cons]
    by_cases h : item = .noAction <;> simp [h]

/-- Where nothing fails, all is delivered that calls for an action. -/
theorem delivered_dispatched (h : ∀ item, .failed item ∉ dispatched answer items) :
    delivered (dispatched answer items) = items.filter (·.isActionable) := by
  induction items generalizing answer with
  | nil => rfl
  | cons item items ih =>
    rw [dispatched] at h ⊢
    by_cases hi : item = .noAction
    · subst hi
      rw [if_pos rfl] at h ⊢
      exact ih fun other ho => h other (List.mem_cons_of_mem _ ho)
    · rw [if_neg hi] at h ⊢
      have htail := ih fun other ho => h other (List.mem_cons_of_mem _ ho)
      rw [List.filter_cons_of_pos (WorkItem.isActionable_iff.mpr hi), ← htail]
      have hne : Outcome.of item (answer 0 item) ≠ .failed item :=
        fun he => h item (he ▸ List.mem_cons_self)
      cases ha : answer 0 item with
      | accepted => rfl
      | refused => exact absurd (by rw [ha]; rfl) hne
      | stalled => exact absurd (by rw [ha]; rfl) hne

end Dispatched

/-- What a commit comes to where the sink judges each item by itself. -/
def Watcher.outcome {S : Type} [Named S] (w : Watcher S) (answer : WorkItem → Delivery)
    (c : Versioned (Item S)) : Outcome :=
  if w.handle c = .noAction then .skipped else .of (w.handle c) (answer (w.handle c))

namespace Report

/-- The counts of some outcomes. -/
def of (outcomes : List Outcome) : Report where
  received := outcomes.length
  delivered := outcomes.countP fun
    | .delivered _ => true
    | _ => false
  skipped := outcomes.countP fun
    | .skipped => true
    | _ => false
  failed := outcomes.countP fun
    | .failed _ => true
    | _ => false

theorem of_add (outcomes : List Outcome) (o : Outcome) : (of outcomes).add o = of (outcomes ++ [o]) := by
  cases o <;> simp [of, add]

theorem foldl_add (outcomes told : List Outcome) :
    outcomes.foldl add (of told) = of (told ++ outcomes) := by
  induction outcomes generalizing told with
  | nil => rw [List.append_nil]; rfl
  | cons o rest ih => rw [List.foldl_cons, of_add, ih, List.append_assoc]; rfl

theorem received_of (outcomes : List Outcome) :
    (of outcomes).received =
      (of outcomes).delivered + (of outcomes).skipped + (of outcomes).failed := by
  induction outcomes with
  | nil => rfl
  | cons o rest ih =>
    cases o <;> simp [of] at ih ⊢ <;> omega

end Report

namespace Pipeline

variable {σ S : Type} [Named S] {sink : Sink σ} {w : Watcher S} {c : Versioned (Item S)}

theorem process_of_noAction (h : w.handle c = .noAction) (s : σ) :
    process sink w c s = (.skipped, s) := by
  unfold process
  rw [h]
  rfl

theorem process_of_ne (h : w.handle c ≠ .noAction) (s : σ) :
    process sink w c s = (.of (w.handle c) (sink.publish (w.handle c) s).1,
      (sink.publish (w.handle c) s).2) := by
  unfold process
  rw [if_pos (WorkItem.isActionable_iff.mpr h), state_bind]
  cases (sink.publish (w.handle c) s).1 <;> rfl

theorem processAll_cons (rest : List (Versioned (Item S))) (s : σ) :
    processAll sink w (c :: rest) s =
      ((process sink w c s).1 :: (processAll sink w rest (process sink w c s).2).1,
        (processAll sink w rest (process sink w c s).2).2) := rfl

theorem run_fst (r : Report) (cs : List (Versioned (Item S))) (s : σ) :
    (run sink w r cs s).1 = (processAll sink w cs s).1.foldl Report.add r := by
  induction cs generalizing r s with
  | nil => rfl
  | cons c rest ih => exact ih _ _

/-- Takes commits one at a time and processes each, until nothing is queued: from a state the loop
comes to these outcomes and ends in that state. -/
inductive Loops (receive : StateM σ (Option (Versioned (Item S)))) (sink : Sink σ) (w : Watcher S) :
    σ → List Outcome → σ → Prop
  | stop {s t} : receive s = (none, t) → Loops receive sink w s [] t
  | next {s t u v c o os} : receive s = (some c, t) → process sink w c t = (o, u) →
      Loops receive sink w u os v → Loops receive sink w s (o :: os) v

end Pipeline

section History

/-- The history items of a service among some items, in order. -/
def histories (id : String) (items : List WorkItem) : List HistoryRequest :=
  items.filterMap fun
    | .history h => if h.id = id then some h else none
    | .review _ | .lifecycleDetail _ | .publicationDetail _ | .noAction => none

theorem histories_append (id : String) (xs ys : List WorkItem) :
    histories id (xs ++ ys) = histories id xs ++ histories id ys :=
  List.filterMap_append

/-- A watcher that asks for no history adds nothing to one. -/
theorem histories_of_no_history {S : Type} [Named S] {w : Watcher S}
    (h : ∀ c request, w.handle c ≠ .history request) (id : String)
    (cs : List (Versioned (Item S))) :
    histories id ((cs.map w.handle).filter (·.isActionable)) = [] := by
  rw [histories, List.filterMap_eq_nil_iff]
  intro item hitem
  obtain ⟨c, -, rfl⟩ := List.mem_map.mp (List.mem_filter.mp hitem).1
  cases hc : w.handle c with
  | history request => exact absurd hc (h c request)
  | review _ => rfl
  | lifecycleDetail _ => rfl
  | publicationDetail _ => rfl
  | noAction => rfl

end History

namespace Watcher

theorem editorial_ne_history (c : Versioned (Item Lifecycle.State)) (request : HistoryRequest) :
    editorial.handle c ≠ .history request := by
  unfold handle
  cases c.document.state <;> simp [editorial, Rule.apply, WorkItem.ofDetail, WorkItem.ofReview]

theorem publicDetail_ne_history (c : Versioned (Item Publication.State)) (request : HistoryRequest) :
    publicDetail.handle c ≠ .history request := by
  unfold handle
  cases c.document.state <;> simp [publicDetail, Rule.apply, WorkItem.ofDetail]

/-- Whatever its state, a publication commit is archived. -/
theorem archive_handle (c : Versioned (Item Publication.State)) :
    archive.handle c = .ofHistory c := by
  unfold handle
  cases c.document.state <;> rfl

/-- Only what is published is shown. -/
theorem publicDetail_handle (c : Versioned (Item Publication.State)) : publicDetail.handle c =
    if c.document.state = .published then .ofDetail .publication c else .noAction := by
  unfold handle
  cases c.document.state <;> rfl

/-- The history of a service is what was committed on it, one item for each commit. -/
theorem histories_archive (id : String) (cs : List (Versioned (Item Publication.State))) :
    (histories id ((cs.map archive.handle).filter (·.isActionable))).map
        (fun h => (h.state, h.version, h.data)) =
      (cs.filter (·.id == id)).map
        fun c => (name c.document.state, c.version, c.document.service.data) := by
  induction cs with
  | nil => rfl
  | cons c cs ih =>
    rw [List.map_cons, archive_handle, List.filter_cons_of_pos (by rfl)]
    by_cases hid : c.id = id
    · rw [List.filter_cons_of_pos (by simpa using hid), List.map_cons, ← ih]
      simp [histories, WorkItem.ofHistory, hid]
    · rw [List.filter_cons_of_neg (by simpa using hid), ← ih]
      simp [histories, WorkItem.ofHistory, hid]

end Watcher
end ServiceCatalog
