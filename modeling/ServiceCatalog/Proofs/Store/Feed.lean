import Mathlib.Data.List.Nodup
import ServiceCatalog.Store.Feed

/-! What each operation of a feed leaves in the queue of each subscriber. -/
namespace ServiceCatalog.Feed

variable {D : Type} {f : Feed D} {n k : Nat} {r : Versioned D}

/-- Every subscriber that has not left is sent commits, under a number of its own. -/
structure Sound (f : Feed D) : Prop where
  sent : ∀ n, f.isLive n = true → n ∈ f.senders
  below : ∀ n, f.isLive n = true → n < f.next
  distinct : (f.queues.map (·.1)).Nodup

theorem sound_empty : Sound ({} : Feed D) := ⟨by simp [isLive], by simp [isLive], by simp⟩

theorem isLive_iff : f.isLive n = true ↔ ∃ q, (n, q) ∈ f.queues := by
  simp [isLive]

theorem queue_of_not_live (h : f.isLive n = false) : f.queue n = [] := by
  have hnone : f.queues.find? (·.1 == n) = none := by
    rw [List.find?_eq_none]
    rintro ⟨m, q⟩ hq heq
    obtain rfl : m = n := by simpa using heq
    rw [isLive_iff.mpr ⟨q, hq⟩] at h
    cases h
  rw [queue, hnone]
  rfl

/-- The queues, each changed in its own way. -/
def mapQueues (f : Feed D) (g : Nat → List (Versioned D) → List (Versioned D)) :
    List (Nat × List (Versioned D)) :=
  f.queues.map fun q => (q.1, g q.1 q.2)

theorem keys_mapQueues (f : Feed D) (g : Nat → List (Versioned D) → List (Versioned D)) :
    (f.mapQueues g).map (·.1) = f.queues.map (·.1) := by
  simp [mapQueues]

theorem isLive_of_mapQueues {g : Nat → List (Versioned D) → List (Versioned D)} {h : Feed D}
    (hq : h.queues = f.mapQueues g) : h.isLive = f.isLive := by
  funext n
  rw [isLive, hq, keys_mapQueues, isLive]

theorem queue_of_mapQueues {g : Nat → List (Versioned D) → List (Versioned D)} {h : Feed D}
    (hq : h.queues = f.mapQueues g) (hn : f.isLive n = true) : h.queue n = g n (f.queue n) := by
  have hfind : h.queues.find? (·.1 == n) =
      (f.queues.find? (·.1 == n)).map fun q => (q.1, g q.1 q.2) := by
    rw [hq, mapQueues, List.find?_map]
    rfl
  obtain ⟨q, hmem⟩ := isLive_iff.mp hn
  cases hf : f.queues.find? (·.1 == n) with
  | none => simpa using List.find?_eq_none.mp hf _ hmem
  | some e =>
    obtain rfl : e.1 = n := by simpa using List.find?_some hf
    simp [queue, hfind, hf]

theorem queues_publish (f : Feed D) (r : Versioned D) : (f.publish r).queues =
    f.mapQueues fun m q => if m ∈ f.senders ∧ f.isLive m = true then q ++ [r] else q := by
  refine List.map_congr_left fun e he => ?_
  by_cases h : e.1 ∈ f.senders ∧ f.isLive e.1 = true <;> simp [h]

@[simp] theorem isLive_publish (f : Feed D) (r : Versioned D) : (f.publish r).isLive = f.isLive :=
  isLive_of_mapQueues (queues_publish f r)

/-- A commit comes last in the queue of every subscriber that has not left. -/
theorem queue_publish (h : f.Sound) (hn : f.isLive n = true) (r : Versioned D) :
    (f.publish r).queue n = f.queue n ++ [r] := by
  rw [queue_of_mapQueues (queues_publish f r) hn, if_pos ⟨h.sent n hn, hn⟩]

theorem Sound.publish (h : f.Sound) (r : Versioned D) : (f.publish r).Sound where
  sent n hn := by
    rw [isLive_publish] at hn
    exact List.mem_filter.mpr ⟨h.sent n hn, hn⟩
  below n hn := by
    rw [isLive_publish] at hn
    exact h.below n hn
  distinct := by
    rw [queues_publish, keys_mapQueues]
    exact h.distinct

theorem isLive_subscribe : f.subscribe.2.isLive n = (f.isLive n || n == f.next) := by
  rw [Bool.eq_iff_iff]
  simp [subscribe, isLive]

/-- A new subscriber has nothing queued, and the others keep what they have. -/
theorem queue_subscribe (n : Nat) : f.subscribe.2.queue n = f.queue n := by
  unfold queue subscribe
  rw [List.find?_append]
  cases hf : f.queues.find? (·.1 == n) with
  | some e => simp
  | none =>
    by_cases hn : f.next = n
    · simp [hn]
    · simp [hn]

/-- A new subscriber starts with nothing queued. -/
theorem Sound.subscribed (h : f.Sound) :
    f.subscribe.2.isLive f.subscribe.1 = true ∧ f.subscribe.2.queue f.subscribe.1 = [] := by
  have hnew : f.isLive f.next = false :=
    Bool.eq_false_iff.mpr fun hn => Nat.lt_irrefl _ (h.below f.next hn)
  refine ⟨?_, ?_⟩
  · rw [isLive_subscribe]
    simp [Feed.subscribe]
  · rw [queue_subscribe]
    exact queue_of_not_live hnew

/-- A subscriber stays one when another comes. -/
theorem subscribed_of_subscribed {q : List (Versioned D)} (h : f.isLive n = true ∧ f.queue n = q) :
    f.subscribe.2.isLive n = true ∧ f.subscribe.2.queue n = q := by
  rw [isLive_subscribe, queue_subscribe, h.1]
  exact ⟨rfl, h.2⟩

theorem Sound.subscribe (h : f.Sound) : f.subscribe.2.Sound where
  sent n hn := by
    rw [isLive_subscribe, Bool.or_eq_true, beq_iff_eq] at hn
    exact List.mem_append.mpr (hn.imp (h.sent n) fun he => by simp [he])
  below n hn := by
    rw [isLive_subscribe, Bool.or_eq_true, beq_iff_eq] at hn
    rcases hn with hn | rfl
    · exact Nat.lt_succ_of_lt (h.below n hn)
    · exact Nat.lt_succ_self _
  distinct := by
    have hnew : f.next ∉ f.queues.map (·.1) := by
      intro hm
      exact Nat.lt_irrefl _ (h.below f.next (by simpa [isLive] using hm))
    have hkeys : f.subscribe.2.queues.map (·.1) = f.queues.map (·.1) ++ [f.next] := by
      simp [Feed.subscribe]
    rw [hkeys]
    exact List.nodup_append.mpr ⟨h.distinct, by simp, by
      intro a ha b hb
      rw [List.mem_singleton] at hb
      rintro rfl
      exact hnew (hb ▸ ha)⟩

theorem isLive_leave : (f.leave k).isLive n = (f.isLive n && n != k) := by
  rw [Bool.eq_iff_iff]
  simp [leave, isLive]

theorem queue_leave_of_ne (h : n ≠ k) : (f.leave k).queue n = f.queue n := by
  unfold queue leave
  rw [List.find?_filter]
  congr 3
  funext e
  by_cases he : e.1 = n
  · simp [he, h]
  · simp [he]

theorem Sound.leave (h : f.Sound) (k : Nat) : (f.leave k).Sound where
  sent n hn := by
    rw [isLive_leave, Bool.and_eq_true] at hn
    exact h.sent n hn.1
  below n hn := by
    rw [isLive_leave, Bool.and_eq_true] at hn
    exact h.below n hn.1
  distinct := h.distinct.sublist (List.filter_sublist.map _)

/-- The feed with another queue for one subscriber. -/
def withQueue (f : Feed D) (n : Nat) (q : List (Versioned D)) : Feed D :=
  { f with queues := f.queues.map fun e => if e.1 == n then (n, q) else e }

theorem queues_withQueue (f : Feed D) (n : Nat) (q : List (Versioned D)) :
    (f.withQueue n q).queues = f.mapQueues fun m p => if m = n then q else p := by
  refine List.map_congr_left fun e _ => ?_
  by_cases he : e.1 = n <;> simp [he]

@[simp] theorem isLive_withQueue (f : Feed D) (n : Nat) (q : List (Versioned D)) :
    (f.withQueue n q).isLive = f.isLive :=
  isLive_of_mapQueues (queues_withQueue f n q)

theorem queue_withQueue (hn : f.isLive n = true) (q : List (Versioned D)) :
    (f.withQueue n q).queue n = q := by
  rw [queue_of_mapQueues (queues_withQueue f n q) hn, if_pos rfl]

theorem queue_withQueue_of_ne (h : n ≠ k) (q : List (Versioned D)) :
    (f.withQueue k q).queue n = f.queue n := by
  cases hn : f.isLive n with
  | true => rw [queue_of_mapQueues (queues_withQueue f k q) hn, if_neg h]
  | false => rw [queue_of_not_live hn, queue_of_not_live (by rw [isLive_withQueue, hn])]

theorem withQueue_withQueue (f : Feed D) (n : Nat) (q p : List (Versioned D)) :
    (f.withQueue n q).withQueue n p = f.withQueue n p := by
  simp only [withQueue, List.map_map, Feed.mk.injEq, and_true, true_and]
  refine List.map_congr_left fun e _ => ?_
  by_cases h : e.1 = n <;> simp [h]

/-- The queue that a subscriber has is no other queue, since the numbers differ. -/
theorem withQueue_self (h : f.Sound) (n : Nat) : f.withQueue n (f.queue n) = f := by
  have hsame : ∀ e ∈ f.queues, (if e.1 == n then (n, f.queue n) else e) = e := by
    intro e he
    by_cases hn : e.1 = n
    · have hfind : f.queues.find? (·.1 == n) = some e := by
        cases hf : f.queues.find? (·.1 == n) with
        | none => simpa [hn] using List.find?_eq_none.mp hf e he
        | some d =>
          have hd : d.1 = n := by simpa using List.find?_some hf
          rw [List.inj_on_of_nodup_map h.distinct (List.mem_of_find?_eq_some hf) he (hd.trans hn.symm)]
      have hqueue : f.queue n = e.2 := by rw [queue, hfind, Option.map_some, Option.getD_some]
      rw [hqueue, ← hn]
      simp
    · simp [hn]
  rw [withQueue, List.map_congr_left hsame, List.map_id']

theorem Sound.withQueue (h : f.Sound) (n : Nat) (q : List (Versioned D)) :
    (f.withQueue n q).Sound where
  sent m hm := h.sent m (by simpa using hm)
  below m hm := h.below m (by simpa using hm)
  distinct := by
    rw [queues_withQueue, keys_mapQueues]
    exact h.distinct

theorem receive_of_nil (h : f.queue n = []) : f.receive n = (none, f) := by
  simp [receive, h]

theorem receive_of_cons {rest : List (Versioned D)} (h : f.queue n = r :: rest) :
    f.receive n = (some r, f.withQueue n rest) := by
  simp [receive, h, withQueue]

theorem Sound.receive (h : f.Sound) (m : Nat) : (f.receive m).2.Sound := by
  cases hq : f.queue m with
  | nil => rwa [receive_of_nil hq]
  | cons r rest =>
    rw [receive_of_cons hq]
    exact h.withQueue m rest

/-- Whoever receives, what a subscriber is given and what is left for it is what was queued for it. -/
theorem receive_queue (hn : f.isLive n = true) (m : Nat) :
    (if m = n then (f.receive m).1 else none).toList ++ (f.receive m).2.queue n = f.queue n ∧
      (f.receive m).2.isLive = f.isLive := by
  cases hq : f.queue m with
  | nil =>
    rw [receive_of_nil hq]
    exact ⟨by simp, rfl⟩
  | cons r rest =>
    rw [receive_of_cons hq]
    refine ⟨?_, isLive_withQueue f m rest⟩
    by_cases hm : m = n
    · subst hm
      rw [queue_withQueue hn, hq]
      simp
    · rw [queue_withQueue_of_ne (Ne.symm hm)]
      simp [hm]

end ServiceCatalog.Feed
