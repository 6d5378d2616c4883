import ServiceCatalog.Proofs.Store.Frame
import ServiceCatalog.Proofs.Workflow.Race

/-!
How a run goes on from a state of it: history and feed only grow, a record stays, and an item from
which no row leads on is never replaced.
-/
namespace ServiceCatalog

variable {S K A : Type}

def Entry.record? : Entry S A → Option (Versioned (Item S))
  | .saved _ _ _ _ _ (.ok r) => some r
  | _ => none

/-- The records that were committed, on any id. -/
def History.records (h : History S A) : List (Versioned (Item S)) := h.filterMap Entry.record?

theorem History.records_append (g h : History S A) : records (g ++ h) = records g ++ records h :=
  List.filterMap_append

/-- What follows on an item follows from an item. -/
theorem IsChain.follows [Named K] {m : Machine S K A} {id : String} {r : Versioned (Item S)}
    {cs : List (Commit S A)} (h : IsChain m id (some r) cs) :
    ∀ x ∈ cs, ∃ p, m.Follows id (some p) x.action x.record.document := by
  induction cs generalizing r with
  | nil => simp
  | cons c cs ih =>
    obtain ⟨-, -, hfollows, hrest⟩ := h
    rw [List.forall_mem_cons]
    exact ⟨⟨r.document, hfollows⟩, ih hrest⟩

variable [DecidableEq S] [DecidableEq K] [Named S] [Named K] {m : Machine S K A}

theorem History.exists_of_mem_records {g h : History S A} (hs : Sound m (g ++ h))
    {r : Versioned (Item S)} (hr : r ∈ h.records) : ∃ x ∈ h.commits r.id, x.record = r := by
  obtain ⟨e, he, her⟩ := List.mem_filterMap.mp hr
  unfold Entry.record? at her
  split at her
  · next call id action found locked q =>
    obtain rfl := Option.some.inj her
    obtain ⟨before, after, rfl⟩ := List.append_of_mem he
    rw [← List.append_assoc] at hs
    obtain ⟨rfl, -⟩ := commit_follows hs
    refine ⟨⟨call, action, found, q⟩, List.mem_filterMap.mpr ⟨_, he, ?_⟩, rfl⟩
    simp [Entry.commit?]
  · cases her

/-- No row of the table leads on from the item. -/
def Machine.Ends (m : Machine S K A) (item : Item S) : Prop :=
  ∀ id action next, ¬m.Follows id (some item) action next

namespace Race

variable {c d : Race S A}

/-- The states that a run can come to from one of its states. -/
inductive Later (m : Machine S K A) (c : Race S A) : Race S A → Prop
  | refl : Later m c c
  | step {d : Race S A} {e : Event A} (h : Later m c d) (ha : d.Allowed m e) :
    Later m c (d.step m e)

theorem Later.reachable (hl : Later m c d) (h : Reachable m c) : Reachable m d := by
  induction hl with
  | refl => exact h
  | step _ ha ih => exact ih.step ha

/-- The entries that came to the history between two states; the feed was sent their commits. -/
structure Extends (c d : Race S A) (added : History S A) : Prop where
  history : d.history = c.history ++ added
  feed : d.shelf.feed = added.records.foldl Feed.publish c.shelf.feed

omit [DecidableEq S] [Named S] in
theorem Extends.trans {e : Race S A} {added more : History S A} (h : Extends c d added)
    (h' : Extends d e more) : Extends c e (added ++ more) where
  history := by rw [h'.history, h.history, List.append_assoc]
  feed := by rw [h'.feed, h.feed, History.records_append, List.foldl_append]

theorem extends_step (m : Machine S K A) (c : Race S A) (e : Event A) :
    ∃ added, Extends c (c.step m e) added := by
  cases e with
  | fetch call id action =>
    refine ⟨Entry.ofRead call id (c.shelf.fetch c.files id), rfl, ?_⟩
    cases c.shelf.fetch c.files id <;> rfl
  | save call now fresh lockFree =>
    unfold step
    dsimp only
    split
    · next id action found next expected _ =>
      rcases hs : c.shelf.save c.files now fresh lockFree id next expected with ⟨answer, files, shelf⟩
      refine ⟨_, rfl, ?_⟩
      have hfeed := Shelf.feed_save hs
      cases answer with
      | error e => exact hfeed
      | ok r => exact hfeed
    · exact ⟨[], (List.append_nil _).symm, rfl⟩

theorem Later.extends (hl : Later m c d) : ∃ added, Extends c d added := by
  induction hl with
  | refl => exact ⟨[], (List.append_nil _).symm, rfl⟩
  | @step d e _ _ ih =>
    obtain ⟨added, hadded⟩ := ih
    obtain ⟨more, hmore⟩ := extends_step m d e
    exact ⟨added ++ more, hadded.trans hmore⟩

variable [LawfulNamed S] {id : String} {r : Versioned (Item S)}

/-- What a fetch shows is the last commit. -/
theorem Reachable.fetch_eq_some (h : Reachable m c) :
    c.shelf.fetch c.files id = .ok (some r) ↔
      isValidId id = true ∧ c.history.last? id = some r := by
  rw [Shelf.fetch_of_holds h.sound.holds, View.fetch]
  split
  · next hid => simp [hid]
  · next hid => simp [hid]

/-- A record that was stored once is never taken away. -/
theorem Later.exists_of_fetch (hl : Later m c d) (h : Reachable m c)
    (hr : c.shelf.fetch c.files id = .ok (some r)) :
    ∃ q, d.shelf.fetch d.files id = .ok (some q) := by
  obtain ⟨hid, hlast⟩ := h.fetch_eq_some.mp hr
  obtain ⟨added, hadded⟩ := hl.extends
  have hd : ∃ q, d.history.last? id = some q := by
    rw [hadded.history, History.last?_append, hlast]
    cases added.last? id with
    | none => exact ⟨r, rfl⟩
    | some q => exact ⟨q, rfl⟩
  obtain ⟨q, hq⟩ := hd
  exact ⟨q, (hl.reachable h).fetch_eq_some.mpr ⟨hid, hq⟩⟩

/-- Nothing is committed after an item from which no row leads on. -/
theorem Extends.commits_of_ends {added : History S A} (hx : Extends c d added) (hd : Reachable m d)
    (hr : c.history.last? id = some r) (he : m.Ends r.document) : added.commits id = [] := by
  have hchain := History.isChain_commits hd.sound.history id
  rw [hx.history, History.commits_append, isChain_append] at hchain
  have hlast : ((c.history.commits id).getLast?.map (·.record)).or none = some r := by
    rw [Option.or_none]
    exact hr
  rw [hlast] at hchain
  cases hcommits : added.commits id with
  | nil => rfl
  | cons x xs =>
    obtain ⟨-, -, -, hfollows, -⟩ := hcommits ▸ hchain
    exact absurd hfollows (he id x.action x.record.document)

/-- A call that reaches its save when such an item is stored has read another one, so it is told of
a conflict, unless the lock is taken. -/
theorem save_of_ends (h : Reachable m c) (hr : c.history.last? id = some r)
    (he : m.Ends r.document) {call : Nat} {action : A} {found : Option (Versioned (Item S))}
    {next : Item S} {expected : Option Token} {now : Instant} {fresh : Token} {lockFree : Bool}
    (hc : c.stage call = .pending id action found next expected)
    (ha : c.Allowed m (.save call now fresh lockFree)) :
    (c.step m (.save call now fresh lockFree)).stage call = .done (.error
      (if c.shelf.isLocked lockFree then .throttled id (some Directory.retryAfter)
        else .conflict id (found.map (·.version)) (some r.version))) := by
  obtain ⟨hresolve, -, pre, mid, hsplit, -⟩ := h.sound.pending call id action found next expected hc
  have hid := h.sound.valid_of_pending hc
  obtain rfl := (Machine.resolve_eq_ok hresolve).2
  have hsound := hsplit ▸ h.sound.history
  have hversion : (View.version? c.history.last? id) ≠ found.map (·.version) := by
    intro hv
    have hnil := (History.version?_eq_found_iff hsound).mp (hsplit ▸ hv)
    have hfound : found = some r := by
      obtain ⟨-, hfound, -⟩ := hsound pre (.read call id found) mid rfl
      rw [hsplit, History.last?_append,
        History.last?_eq_none_iff.mpr (by rw [History.commits_read, hnil]), Option.none_or] at hr
      rw [hfound, hr]
    subst hfound
    exact he id action next (Machine.resolve_eq_ok hresolve).1
  have hnext := (h.sound.pending call id action found next _ hc).2.1
  obtain ⟨files, shelf, hsave, -⟩ := Shelf.save_of_holds h.sound.holds lockFree
    (r := ⟨id, next, fresh, now⟩) (Item.readable hnext) ha.1 (found.map (·.version))
  have hstored : View.version? c.history.last? id = some r.version := by
    rw [View.version?, hr]
    rfl
  simp only [step, hc, hsave, Function.update_self]
  cases c.shelf.isLocked lockFree with
  | true =>
    rw [View.save_of_locked hid]
    rfl
  | false =>
    rw [View.save_of_ne hid hversion, hstored]
    rfl

end Race
end ServiceCatalog
