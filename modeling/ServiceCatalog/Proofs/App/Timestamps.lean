import Mathlib.Order.Bounds.Basic
import ServiceCatalog.Proofs.App.Queues
import ServiceCatalog.Proofs.Time.Order
import ServiceCatalog.Proofs.Watch.Pipeline
import ServiceCatalog.Proofs.Watch.Replay

/-!
The time of a publication commit. It stands in the detail item as a number of seconds, in the history
item as text with its offset, and in the stored record as text of another form; all of them go back to
what the clock showed at the commit.
-/
namespace ServiceCatalog

namespace Instant

/-- The seconds of an instant are the last whole ones not after it, before 1970 as well. -/
theorem isGreatest_seconds (t : Instant) :
    IsGreatest {n : Int | NotAfter ⟨n, 0⟩ t} t.seconds := by
  refine ⟨.inr ⟨rfl, Nat.zero_le _⟩, fun n hn => ?_⟩
  rcases hn with h | ⟨h, -⟩
  · exact h.le
  · exact h.le

end Instant

namespace World

variable {w w' v : World} {m : MachineName} {id : String} {r : Versioned (Item m.State)}

theorem fetch_of_mem_committed (h : r ∈ committed w w' m id) :
    (w'.shelf m).fetch w'.files id = .ok (some r) := by
  unfold committed at h
  split at h
  · cases h
  · split at h
    · next q hq =>
      rw [hq, List.mem_singleton.mp h]
    · cases h

theorem Alike.committed_eq (h : Alike w v) : committed v w' m id = committed w w' m id := by
  unfold committed
  rw [h.issued]

theorem committed_of_alike (h : Alike w v) : committed w v m id = [] := if_pos h.issued

/-- A record that is committed by a save carries the time of the save. -/
theorem Sound.committed_of_save {item : Item m.State} {expected : Option Token} (hw : w.Sound)
    (hi : item.service.Fits) (hr : r ∈ committed w ((store m).save id item expected w).2 m id) :
    r = ⟨id, item, w.fresh, w.now⟩ := by
  have hsave : (store m).save id item expected w =
      (((store m).save id item expected w).1, ((store m).save id item expected w).2) := rfl
  obtain ⟨commit, hadvances, hanswer⟩ := advances_of_save hw hi hsave
  rw [hadvances.committed_eq, Option.mem_toList] at hr
  rcases hs : (w.shelf m).save w.files w.now w.fresh (w.lockFree m) id item expected with
    ⟨answer, files, s⟩
  have hreply := (hanswer r).mpr hr
  simp only [store, hs] at hreply
  cases hreply
  exact (Shelf.save_commits (Item.readable hi) hw.now hs).1

end World

namespace Circumstances

variable {w : World}

/-- A request makes one save or none, after a look at the topics. -/
theorem saves_of_dispatch (hw : w.Sound) (faults : MachineName → Faults) (limits : Timeouts)
    (m : MachineName) (action id : String) (payload : Json) :
    ∃ cache, let v : World := { w with topicCache := cache }
      let reached := (((alone faults).controller limits).dispatch m action id payload w).2
      reached = v ∨ ∃ (item : Item m.State) (expected : Option Token), item.service.Fits ∧
        reached = ((World.store m).save id item expected v).2 := by
  refine dispatch_cases (alone faults) limits m action id payload w (motive := fun answer =>
    ∃ cache, let v : World := { w with topicCache := cache }
      answer.2 = v ∨ ∃ (item : Item m.State) (expected : Option Token), item.service.Fits ∧
        answer.2 = ((World.store m).save id item expected v).2) ?_ ?_
  · exact fun response cache _ => ⟨cache, .inl rfl⟩
  · intro K A _ _ _ t a cache ha
    refine ⟨cache, ?_⟩
    rw [applyTo_snd]
    rcases apply_cases (sound_withCache hw cache) ha (Prod.eta _).symm with
      ⟨-, h⟩ | ⟨next, expected, reply, hfits, hs, -⟩
    · exact .inl h
    · rcases save_store hs with hsave | ⟨-, h | ⟨-, h⟩⟩
      · exact .inr ⟨next, expected, hfits, (congrArg Prod.snd hsave).symm⟩
      · exact .inl h
      · exact .inr ⟨next, expected, hfits, h⟩

end Circumstances

section Dated

variable {r : Versioned (Item Publication.State)}

/-- Whatever dates the record of a publication commit says `t`: the history item, the detail item, if
there is one, and what is read back of the record. -/
structure Dated (t : Instant) (r : Versioned (Item Publication.State)) : Prop where
  modifiedAt : r.modifiedAt = t
  history : ∃ h, Watcher.archive.handle r = .history h ∧ h.id = r.id ∧ h.version = r.version ∧
    Instant.ofText h.lastUpdate = .ok t
  detail : r.document.state = .published → ∃ d, Watcher.publicDetail.handle r = .publicationDetail d ∧
    d.id = r.id ∧ IsGreatest {n : Int | Instant.NotAfter ⟨n, 0⟩ t} d.lastUpdate
  withdrawn : r.document.state = .unpublished → Watcher.publicDetail.handle r = .noAction
  sameSecond : ∀ h d, Watcher.archive.handle r = .history h →
    Watcher.publicDetail.handle r = .publicationDetail d →
    (Instant.ofText h.lastUpdate).map Instant.seconds = .ok d.lastUpdate
  stored : Stored.ofText? (Directory.stored r).toText = some (Directory.stored r)
  replays : Replays .publication r

theorem dated_of_fits (hr : r.document.service.Fits) (ht : r.modifiedAt.Valid) :
    Dated r.modifiedAt r where
  modifiedAt := rfl
  history := ⟨_, Watcher.archive_handle r, rfl, rfl, Instant.ofText_offsetText ht⟩
  detail hs := by
    rw [Watcher.publicDetail_handle, if_pos hs]
    exact ⟨_, rfl, rfl, Instant.isGreatest_seconds _⟩
  withdrawn hs := by
    rw [Watcher.publicDetail_handle, hs]
    rfl
  sameSecond h d hh hd := by
    rw [Watcher.archive_handle] at hh
    rw [Watcher.publicDetail_handle] at hd
    split at hd
    · cases hh
      cases hd
      rw [Instant.ofText_offsetText ht]
      rfl
    · cases hd
  stored := Stored.ofText?_toText (Item.readable hr) ht
  replays := replays_of_fits .publication r hr ht

end Dated

namespace Request

variable {w : World} {q : Request}

/-- What a request commits fits, carries the time of the request and can be fetched. -/
theorem fetch_of_mem_commits (hw : w.Sound) (limits : Timeouts) {m : MachineName}
    {r : Versioned (Item m.State)} (hr : r ∈ q.commits limits w m) :
    r.document.service.Fits ∧ r.modifiedAt = q.now ∧
      ((q.handle limits w).2.shelf m).fetch (q.handle limits w).2.files r.id = .ok (some r) := by
  cases hq : q.ask with
  | lookUp n id =>
    rw [commits_of_read (by simp [hq])] at hr
    cases hr
  | listTopics =>
    rw [commits_of_read (by simp [hq])] at hr
    cases hr
  | act n action id payload =>
    rw [commits_act hq] at hr
    dsimp only at hr
    by_cases hn : m = n
    · subst hn
      rw [if_pos rfl] at hr
      have hfetch := World.fetch_of_mem_committed hr
      obtain ⟨cache, hreached⟩ := Circumstances.saves_of_dispatch (sound_arrive hw q) q.faults limits
        m action id payload
      rw [← handle_act hq] at hreached
      have halike := (alike_arrive q w).trans (World.alike_withCache (q.arrive w) cache)
      rcases hreached with hreached | ⟨item, expected, hfits, hreached⟩
      · rw [hreached, World.committed_of_alike halike] at hr
        cases hr
      · have hsound := Circumstances.sound_withCache (sound_arrive hw q) cache
        rw [← halike.committed_eq, hreached] at hr
        obtain rfl := hsound.committed_of_save hfits hr
        exact ⟨hfits, rfl, hfetch⟩
    · rw [if_neg hn] at hr
      cases hr

/-- Every publication commit of every run is dated by the clock of its request, and stays so when it is
read from the store. -/
theorem dated_of_mem_commits (hw : w.Sound) (limits : Timeouts) (qs : List Request) (q : Request) :
    let before := after limits qs w
    let reached := (q.handle limits before).2
    ∀ r ∈ q.commits limits before .publication, Dated q.now r ∧
      (reached.shelf .publication).fetch reached.files r.id = .ok (some r) := by
  intro before reached r hr
  have hbefore : before.Sound := (queues_after hw limits qs).sound
  obtain ⟨hfits, hnow, hfetch⟩ := fetch_of_mem_commits hbefore limits hr
  have hvalid : r.modifiedAt.Valid := hnow ▸ q.valid
  exact ⟨hnow ▸ dated_of_fits hfits hvalid, hfetch⟩

open Race in
def releaseLibrary : Request where
  ask := .act .publication "release" "library"
    (.obj [("id", .str "library"), ("data", libraryData.toJson)])
  now := ⟨1704067200, 0⟩
  valid := by decide

/-- The clock has gone back, into a leap second of the year -1. -/
def publishLibrary : Request where
  ask := .act .publication "publish" "library" .null
  now := ⟨-62167305541, 1000000001⟩
  valid := by decide

theorem dated_of_mem_commits_publishLibrary :
    let before := after {} [releaseLibrary] Circumstances.opened
    ∃ r, publishLibrary.commits {} before .publication = [r] ∧
      r.modifiedAt.offsetText = "-0001-12-31T00:00:60.000000001+00:00" ∧
      r.document.state = .published ∧ Dated publishLibrary.now r := by
  intro before
  let r : Versioned (Item Publication.State) :=
    ⟨"library", ⟨⟨"library", Race.libraryData, none⟩, .published, some "publish"⟩, ⟨"1"⟩,
      publishLibrary.now⟩
  have hcommits : publishLibrary.commits {} before .publication = [r] := by decide +kernel
  have hdated := dated_of_mem_commits Circumstances.sound_opened {} [releaseLibrary] publishLibrary r
    (hcommits ▸ List.mem_singleton_self r)
  exact ⟨r, hcommits, by decide +kernel, rfl, hdated.1⟩

end Request
end ServiceCatalog
