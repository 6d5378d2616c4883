import ServiceCatalog.Proofs.Store.Feed

/-!
Runs of a feed. Subscribers come, take what is queued for them and leave, commits are published, and the
feed may be closed. What a subscriber has been given, followed by what it still has queued, is what was
published since it came.
-/
namespace ServiceCatalog.Feed

variable {D : Type}

/-- What can be done with a feed. -/
inductive Step (D : Type) where
  | subscribe
  | leave (n : Nat)
  | publish (r : Versioned D)
  | receive (n : Nat)
  | count
  | close

inductive Answer (D : Type) where
  | joined (n : Nat)
  | left
  /-- How many subscribers got the commit: those to whom commits are sent from then on. -/
  | reached (count : Nat)
  | got (r : Versioned D)
  /-- Nothing is queued yet. -/
  | waits
  /-- Nothing is queued and nothing will come. -/
  | ended
  | counted (count : Nat)
  | closed
  /-- The feed is closed, or nobody is there to receive. -/
  | refused

def step (f : Feed D) : Step D → Answer D × Feed D
  | .subscribe => if f.isOpen then (.joined f.subscribe.1, f.subscribe.2) else (.refused, f)
  | .leave n => (.left, f.leave n)
  | .publish r => if f.isOpen then (.reached (f.publish r).count, f.publish r) else (.refused, f)
  | .receive n =>
    if f.isLive n then
      match f.receive n with
      | (some r, g) => (.got r, g)
      | (none, g) => (if f.ended n then .ended else .waits, g)
    else (.refused, f)
  | .count => if f.isOpen then (.counted f.count, f) else (.refused, f)
  | .close => (.closed, f.close)

def run : List (Step D) → Feed D → Feed D
  | [], f => f
  | s :: rest, f => run rest (f.step s).2

/-- Each step with its answer. -/
def trace : List (Step D) → Feed D → List (Step D × Answer D)
  | [], _ => []
  | s :: rest, f => (s, (f.step s).1) :: trace rest (f.step s).2

/-- The commits that subscriber `n` was given. -/
def heard (n : Nat) (told : List (Step D × Answer D)) : List (Versioned D) :=
  told.filterMap fun
    | (.receive m, .got r) => if m = n then some r else none
    | _ => none

/-- The commits that are published before the feed is closed. -/
def published : List (Step D) → List (Versioned D)
  | [] | .close :: _ => []
  | .publish r :: rest => r :: published rest
  | .subscribe :: rest | .leave _ :: rest | .receive _ :: rest | .count :: rest => published rest

/-- How many subscribers come. -/
def joins (steps : List (Step D)) : Nat :=
  steps.countP fun
    | .subscribe => true
    | _ => false

def closes (steps : List (Step D)) : Bool :=
  steps.any fun
    | .close => true
    | _ => false

def leaves (n : Nat) (steps : List (Step D)) : Bool :=
  steps.any fun
    | .leave m => m == n
    | _ => false

/-- The subscribers that come and do not leave again; `next` is the number of the first. -/
def stayers (next : Nat) : List (Step D) → List Nat
  | [] => []
  | .subscribe :: rest =>
    (if leaves next rest then [] else [next]) ++ stayers (next + 1) rest
  | .leave _ :: rest | .publish _ :: rest | .receive _ :: rest | .count :: rest | .close :: rest =>
    stayers next rest

section Runs

theorem run_append (steps more : List (Step D)) (f : Feed D) :
    run (steps ++ more) f = run more (run steps f) := by
  induction steps generalizing f with
  | nil => rfl
  | cons s steps ih => exact ih _

theorem trace_append (steps more : List (Step D)) (f : Feed D) :
    trace (steps ++ more) f = trace steps f ++ trace more (run steps f) := by
  induction steps generalizing f with
  | nil => rfl
  | cons s steps ih => exact congrArg (_ :: ·) (ih _)

theorem heard_append (n : Nat) (told more : List (Step D × Answer D)) :
    heard n (told ++ more) = heard n told ++ heard n more :=
  List.filterMap_append

theorem heard_cons (n : Nat) (s : Step D × Answer D) (told : List (Step D × Answer D)) :
    heard n (s :: told) = heard n [s] ++ heard n told :=
  heard_append n [s] told

theorem closes_cons (s : Step D) (rest : List (Step D)) :
    closes (s :: rest) = (closes [s] || closes rest) := by
  simp [closes]

theorem joins_cons (s : Step D) (rest : List (Step D)) :
    joins (s :: rest) = joins [s] + joins rest := by
  simp [joins, List.countP_cons, Nat.add_comm]

theorem leaves_cons (n : Nat) (s : Step D) (rest : List (Step D)) :
    leaves n (s :: rest) = (leaves n [s] || leaves n rest) := by
  simp [leaves]

end Runs

section Receive

variable {f : Feed D} {n m : Nat} {r : Versioned D} {rest : List (Versioned D)}

theorem isLive_of_queue (h : f.queue n = r :: rest) : f.isLive n = true := by
  by_contra hn
  rw [queue_of_not_live (Bool.not_eq_true _ ▸ hn)] at h
  cases h

theorem step_receive_of_cons (h : f.queue n = r :: rest) :
    f.step (.receive n) = (.got r, f.withQueue n rest) := by
  simp [step, isLive_of_queue h, receive_of_cons h]

theorem step_receive_of_nil (hn : f.isLive n = true) (h : f.queue n = []) :
    f.step (.receive n) = (if f.isOpen then .waits else .ended, f) := by
  cases ho : f.isOpen <;> simp [step, hn, receive_of_nil h, ended, h, ho]

/-- Nothing is received, or the oldest commit of the queue. -/
theorem step_receive_cases (f : Feed D) (m : Nat) :
    (∃ a, f.step (.receive m) = (a, f) ∧ ∀ n, heard n [(.receive m, a)] = []) ∨
      ∃ r rest, f.queue m = r :: rest ∧ f.step (.receive m) = (.got r, f.withQueue m rest) := by
  cases hm : f.isLive m with
  | false => exact .inl ⟨.refused, by simp [step, hm], fun _ => rfl⟩
  | true =>
    cases hq : f.queue m with
    | nil =>
      refine .inl ⟨_, step_receive_of_nil hm hq, fun n => ?_⟩
      cases f.isOpen <;> rfl
    | cons r rest => exact .inr ⟨r, rest, rfl, step_receive_of_cons hq⟩

/-- Whoever receives, a subscriber's commits stay in order and none is lost. -/
theorem heard_receive (hn : f.isLive n = true) (m : Nat) :
    heard n [(.receive m, (f.step (.receive m)).1)] ++ (f.step (.receive m)).2.queue n = f.queue n ∧
      (f.step (.receive m)).2.isLive = f.isLive := by
  rcases step_receive_cases f m with ⟨a, h, hnone⟩ | ⟨r, rest, hq, h⟩
  · rw [h, hnone n]
    exact ⟨rfl, rfl⟩
  · rw [h]
    refine ⟨?_, isLive_withQueue f m rest⟩
    by_cases hmn : m = n
    · subst hmn
      rw [queue_withQueue hn, hq]
      simp [heard]
    · rw [queue_withQueue_of_ne (Ne.symm hmn)]
      simp [heard, hmn]

theorem isOpen_receive (f : Feed D) (m : Nat) : (f.step (.receive m)).2.isOpen = f.isOpen := by
  rcases step_receive_cases f m with ⟨a, h, -⟩ | ⟨r, rest, -, h⟩ <;> rw [h]
  rfl

end Receive

/-- Commits are sent to numbers that were given out, each once, and to everybody who has not left. -/
structure Numbered (f : Feed D) : Prop where
  sound : f.Sound
  distinct : f.senders.Nodup
  below : ∀ n ∈ f.senders, n < f.next

theorem numbered_empty : Numbered ({} : Feed D) := ⟨sound_empty, by simp, by simp⟩

section Steps

variable {f : Feed D} {n : Nat}

theorem Numbered.subscribe (h : f.Numbered) : f.subscribe.2.Numbered where
  sound := h.sound.subscribe
  distinct := by
    refine List.nodup_append.mpr ⟨h.distinct, by simp, ?_⟩
    intro a ha b hb
    obtain rfl := List.mem_singleton.mp hb
    exact Nat.ne_of_lt (h.below a ha)
  below n hn := by
    rcases List.mem_append.mp hn with hn | hn
    · exact Nat.lt_succ_of_lt (h.below n hn)
    · obtain rfl := List.mem_singleton.mp hn
      exact Nat.lt_succ_self _

theorem Numbered.publish (h : f.Numbered) (r : Versioned D) : (f.publish r).Numbered where
  sound := h.sound.publish r
  distinct := h.distinct.filter _
  below n hn := h.below n (List.mem_filter.mp hn).1

theorem Numbered.receive (h : f.Numbered) (m : Nat) : (f.step (.receive m)).2.Numbered := by
  rcases step_receive_cases f m with ⟨a, hs, -⟩ | ⟨r, rest, -, hs⟩ <;> rw [hs]
  · exact h
  · exact ⟨h.sound.withQueue m rest, h.distinct, h.below⟩

theorem isOpen_step (f : Feed D) (s : Step D) :
    (f.step s).2.isOpen = (f.isOpen && !closes [s]) := by
  cases s with
  | receive m => simpa [closes] using isOpen_receive f m
  | subscribe => cases ho : f.isOpen <;> simp [step, closes, ho, Feed.subscribe]
  | publish r => cases ho : f.isOpen <;> simp [step, closes, ho, Feed.publish]
  | count => cases ho : f.isOpen <;> simp [step, closes, ho]
  | leave m => simp [step, closes, Feed.leave]
  | close => simp [step, closes, Feed.close]

/-- As long as a feed is open it serves everybody. -/
theorem Numbered.step (h : f.isOpen = true → f.Numbered) (s : Step D)
    (ho : (f.step s).2.isOpen = true) : (f.step s).2.Numbered := by
  have hopen : f.isOpen = true := by
    rw [isOpen_step, Bool.and_eq_true] at ho
    exact ho.1
  have hf := h hopen
  cases s with
  | subscribe => simpa [Feed.step, hopen] using hf.subscribe
  | leave m => exact ⟨hf.sound.leave m, hf.distinct, hf.below⟩
  | publish r => simpa [Feed.step, hopen] using hf.publish r
  | receive m => exact hf.receive m
  | count => simpa [Feed.step, hopen] using hf
  | close =>
    rw [isOpen_step, hopen] at ho
    cases ho

/-- What one step gives to a subscriber that stays, and what it queues for it. -/
theorem heard_step (h : f.isOpen = true → f.Numbered) (hn : f.isLive n = true) {s : Step D}
    (hs : leaves n [s] = false) :
    heard n [(s, (f.step s).1)] ++ (f.step s).2.queue n =
        f.queue n ++ (if f.isOpen then published [s] else []) ∧
      (f.step s).2.isLive n = true := by
  cases s with
  | receive m =>
    obtain ⟨hqueue, hlive⟩ := heard_receive hn m
    refine ⟨?_, hlive ▸ hn⟩
    rw [hqueue]
    simp [published]
  | subscribe =>
    cases ho : f.isOpen with
    | false => simp [step, ho, heard, hn]
    | true => simp [step, ho, heard, published, queue_subscribe, isLive_subscribe, hn]
  | publish r =>
    cases ho : f.isOpen with
    | false => simp [step, ho, heard, hn]
    | true => simp [step, ho, heard, published, queue_publish (h ho).sound hn, hn]
  | count => cases ho : f.isOpen <;> simp [step, ho, heard, published, hn]
  | leave m =>
    have hm : n ≠ m := by
      rintro rfl
      simp [leaves] at hs
    simp [step, heard, published, queue_leave_of_ne hm, isLive_leave, hn, hm]
  | close =>
    refine ⟨?_, hn⟩
    rw [published, ite_self, List.append_nil]
    rfl

theorem next_step (ho : f.isOpen = true) (s : Step D) :
    (f.step s).2.next = f.next + joins [s] := by
  cases s with
  | receive m =>
    rcases step_receive_cases f m with ⟨a, h, -⟩ | ⟨r, rest, -, h⟩ <;> rw [h] <;> rfl
  | subscribe => simp [step, ho, joins, Feed.subscribe]
  | publish r => simp [step, ho, joins, Feed.publish]
  | count => simp [step, ho, joins]
  | leave m => rfl
  | close => rfl

theorem next_le_step (f : Feed D) (s : Step D) : f.next ≤ (f.step s).2.next := by
  cases ho : f.isOpen with
  | true => exact next_step ho s ▸ Nat.le_add_right _ _
  | false =>
    cases s with
    | receive m =>
      rcases step_receive_cases f m with ⟨a, h, -⟩ | ⟨r, rest, -, h⟩
      · simp [h]
      · simp [h, withQueue]
    | subscribe => simp [step, ho]
    | publish r => simp [step, ho]
    | count => simp [step, ho]
    | leave m => exact Nat.le_refl _
    | close => exact Nat.le_refl _

theorem keys_step (ho : f.isOpen = true) (s : Step D) :
    (f.step s).2.queues.map (·.1) =
      (f.queues.map (·.1)).filter (fun n => !leaves n [s]) ++ stayers f.next [s] := by
  cases s with
  | receive m =>
    rcases step_receive_cases f m with ⟨a, h, -⟩ | ⟨r, rest, -, h⟩ <;> rw [h]
    · simp [leaves, stayers]
    · simp [leaves, stayers, queues_withQueue, keys_mapQueues]
  | subscribe => simp [step, ho, leaves, stayers, Feed.subscribe]
  | publish r => simp [step, ho, leaves, stayers, queues_publish, keys_mapQueues]
  | count => simp [step, ho, leaves, stayers]
  | leave m =>
    simp only [step, leaves, stayers, Feed.leave, List.filter_map, List.append_nil]
    congr 2
    funext e
    simp [Bool.beq_comm, bne]
  | close => simp [step, leaves, stayers, Feed.close]

/-- Whoever has left gets nothing more and does not come back under the same number. -/
theorem gone_step (hn : f.isLive n = false) (hlt : n < f.next) (s : Step D) :
    heard n [(s, (f.step s).1)] = [] ∧ (f.step s).2.isLive n = false := by
  cases s with
  | receive m =>
    rcases step_receive_cases f m with ⟨a, h, hnone⟩ | ⟨r, rest, hq, h⟩ <;> rw [h]
    · exact ⟨hnone n, hn⟩
    · have hm : m ≠ n := by
        rintro rfl
        rw [isLive_of_queue hq] at hn
        cases hn
      exact ⟨by simp [heard, hm], by simpa using hn⟩
  | subscribe =>
    cases ho : f.isOpen with
    | false => simp [step, ho, heard, hn]
    | true => simp [step, ho, heard, isLive_subscribe, hn, Nat.ne_of_lt hlt]
  | publish r => cases ho : f.isOpen <;> simp [step, ho, heard, hn]
  | count => cases ho : f.isOpen <;> simp [step, ho, heard, hn]
  | leave m => simp [step, heard, isLive_leave, hn]
  | close => exact ⟨rfl, hn⟩

/-- Nobody is given anything under a number that is still to be given out. -/
theorem unborn_step (hf : f.Numbered) (hn : f.next ≤ n) (s : Step D) :
    heard n [(s, (f.step s).1)] = [] := by
  cases s with
  | receive m =>
    rcases step_receive_cases f m with ⟨a, h, hnone⟩ | ⟨r, rest, hq, h⟩ <;> rw [h]
    · exact hnone n
    · have hm : m ≠ n := by
        rintro rfl
        exact Nat.not_lt.mpr hn (hf.sound.below m (isLive_of_queue hq))
      simp [heard, hm]
  | _ => rfl

/-- The commit of a step comes to everybody who is there, and to nobody twice. -/
theorem count_publish (h : f.Numbered) (r : Versioned D) :
    (f.publish r).count = (f.queues.map (·.1)).length := by
  refine List.Perm.length_eq ?_
  refine (List.perm_ext_iff_of_nodup (h.distinct.filter _) h.sound.distinct).mpr fun n => ?_
  rw [List.mem_filter]
  exact ⟨fun hn => by simpa [isLive] using hn.2, fun hn =>
    have hlive : f.isLive n = true := by simpa [isLive] using hn
    ⟨h.sound.sent n hlive, hlive⟩⟩

end Steps

section Histories

variable {f : Feed D} {n : Nat}

theorem published_cons (s : Step D) (rest : List (Step D)) :
    published (s :: rest) = published [s] ++ (if closes [s] then [] else published rest) := by
  cases s <;> simp [published, closes]

theorem isOpen_run (f : Feed D) (steps : List (Step D)) :
    (run steps f).isOpen = (f.isOpen && !closes steps) := by
  induction steps generalizing f with
  | nil => simp [run, closes]
  | cons s rest ih =>
    rw [run, ih, isOpen_step, closes_cons s rest, Bool.not_or, Bool.and_assoc]

theorem Numbered.run (h : f.isOpen = true → f.Numbered) (steps : List (Step D)) :
    (run steps f).isOpen = true → (run steps f).Numbered := by
  induction steps generalizing f with
  | nil => exact h
  | cons s rest ih => exact ih (Numbered.step h s)

/-- A subscriber that stays through some steps. -/
theorem heard_run (h : f.isOpen = true → f.Numbered) (hn : f.isLive n = true)
    {steps : List (Step D)} (hs : leaves n steps = false) :
    heard n (trace steps f) ++ (run steps f).queue n =
        f.queue n ++ (if f.isOpen then published steps else []) ∧
      (run steps f).isLive n = true := by
  induction steps generalizing f with
  | nil => simp [trace, run, heard, published, hn]
  | cons s rest ih =>
    rw [leaves_cons, Bool.or_eq_false_iff] at hs
    obtain ⟨hstep, hlive⟩ := heard_step h hn hs.1
    obtain ⟨hrest, hend⟩ := ih (Numbered.step h s) hlive hs.2
    refine ⟨?_, hend⟩
    rw [trace, run, heard_cons, List.append_assoc, hrest, ← List.append_assoc, hstep,
      published_cons s rest, isOpen_step]
    cases f.isOpen <;> cases closes [s] <;> simp

theorem heard_gone (hn : f.isLive n = false) (hlt : n < f.next) (steps : List (Step D)) :
    heard n (trace steps f) = [] := by
  induction steps generalizing f with
  | nil => rfl
  | cons s rest ih =>
    obtain ⟨hnone, hn'⟩ := gone_step hn hlt s
    rw [trace, heard_cons, hnone, ih hn' (Nat.lt_of_lt_of_le hlt (next_le_step f s)), List.nil_append]

theorem heard_unborn (ho : f.isOpen = true) (hf : f.Numbered) {steps : List (Step D)}
    (hs : closes steps = false) (hn : f.next + joins steps ≤ n) : heard n (trace steps f) = [] := by
  induction steps generalizing f with
  | nil => rfl
  | cons s rest ih =>
    rw [closes_cons s rest, Bool.or_eq_false_iff] at hs
    have ho' : (f.step s).2.isOpen = true := by rw [isOpen_step, ho, hs.1]; rfl
    rw [joins_cons s rest, ← Nat.add_assoc, ← next_step ho s] at hn
    have hnow : f.next ≤ n := Nat.le_trans (next_le_step f s) (Nat.le_trans (Nat.le_add_right _ _) hn)
    rw [trace, heard_cons, unborn_step hf hnow, ih ho' (Numbered.step (fun _ => hf) s ho') hs.2 hn,
      List.nil_append]

/-- One that leaves on the way has been given the first of the commits. -/
theorem heard_prefix (h : f.isOpen = true → f.Numbered) (hn : f.isLive n = true)
    (hlt : n < f.next) (steps : List (Step D)) :
    heard n (trace steps f) <+: f.queue n ++ (if f.isOpen then published steps else []) := by
  induction steps generalizing f with
  | nil => exact List.nil_prefix
  | cons s rest ih =>
    have hlt' := Nat.lt_of_lt_of_le hlt (next_le_step f s)
    cases hs : leaves n [s] with
    | true =>
      obtain rfl : s = .leave n := by
        cases s <;> simp_all [leaves]
      have hgone : (f.leave n).isLive n = false := by simp [isLive_leave]
      have hnone : heard n (trace (.leave n :: rest) f) = [] := heard_gone hgone hlt' rest
      rw [hnone]
      exact List.nil_prefix
    | false =>
      obtain ⟨hstep, hlive⟩ := heard_step h hn hs
      have hrest := ih (Numbered.step h s) hlive hlt'
      have hall : f.queue n ++ (if f.isOpen then published (s :: rest) else []) =
          heard n [(s, (f.step s).1)] ++ ((f.step s).2.queue n ++
            if (f.step s).2.isOpen then published rest else []) := by
        rw [← List.append_assoc, hstep, published_cons s rest, isOpen_step]
        cases f.isOpen <;> cases closes [s] <;> simp
      rw [trace, heard_cons, hall]
      exact (List.prefix_append_right_inj _).mpr hrest

theorem stayers_cons (next : Nat) (s : Step D) (rest : List (Step D)) :
    stayers next (s :: rest) =
      (stayers next [s]).filter (fun n => !leaves n rest) ++ stayers (next + joins [s]) rest := by
  cases s with
  | subscribe => cases h : leaves next rest <;> simp [stayers, joins, h, show leaves next [] = false from rfl]
  | _ => simp [stayers, joins]

theorem next_run {steps : List (Step D)} (ho : f.isOpen = true) (hs : closes steps = false) :
    (run steps f).next = f.next + joins steps := by
  induction steps generalizing f with
  | nil => rfl
  | cons s rest ih =>
    rw [closes_cons s rest, Bool.or_eq_false_iff] at hs
    have ho' : (f.step s).2.isOpen = true := by rw [isOpen_step, ho, hs.1]; rfl
    rw [run, ih ho' hs.2, next_step ho, joins_cons s rest, Nat.add_assoc]

/-- Those who are there are those who were there and those who came, but for those who left. -/
theorem keys_run (ho : f.isOpen = true) {steps : List (Step D)} (hs : closes steps = false) :
    (run steps f).queues.map (·.1) =
      (f.queues.map (·.1)).filter (fun n => !leaves n steps) ++ stayers f.next steps := by
  induction steps generalizing f with
  | nil => simp [run, leaves, stayers]
  | cons s rest ih =>
    rw [closes_cons s rest, Bool.or_eq_false_iff] at hs
    have ho' : (f.step s).2.isOpen = true := by rw [isOpen_step, ho, hs.1]; rfl
    rw [run, ih ho' hs.2, keys_step ho, next_step ho, List.filter_append, List.filter_filter,
      stayers_cons f.next s rest, List.append_assoc]
    simp only [leaves_cons _ s rest, Bool.not_or, Bool.and_comm]

/-- Once the feed is closed, a subscriber is given its backlog and then the end. -/
theorem answers_backlog (ho : f.isOpen = false) (hn : f.isLive n = true) :
    (trace (List.replicate ((f.queue n).length + 1) (.receive n)) f).map (·.2) =
      (f.queue n).map .got ++ [.ended] := by
  induction hq : f.queue n generalizing f with
  | nil => simp [trace, step_receive_of_nil hn hq, ho]
  | cons r rest ih =>
    have hlive : (f.withQueue n rest).isLive n = true := by rw [isLive_withQueue, hn]
    have hrest := ih (f := f.withQueue n rest) ho hlive (queue_withQueue hn rest)
    rw [List.length_cons, List.replicate_succ, trace, step_receive_of_cons hq, List.map_cons, hrest]
    rfl

end Histories

/-- How subscriber `n` is served in a run, where the steps `after` are those since it came. -/
structure Served (n : Nat) (steps after : List (Step D)) : Prop where
  /-- As long as it stays, each commit since it came was given to it or is queued, in order. -/
  complete : leaves n after = false →
    heard n (trace steps {}) ++ (run steps {}).queue n = published after
  /-- Until it leaves it is given the first of these commits. -/
  ordered : heard n (trace steps {}) <+: published after
  /-- The next commit it is given is the first that it has not been given. -/
  next : leaves n after = false → ((run steps {}).step (.receive n)).1 =
    match (published after).drop (heard n (trace steps {})).length with
    | r :: _ => .got r
    | [] => if closes after then .ended else .waits
  /-- A closed feed ends when the backlog has been given. -/
  backlog : leaves n after = false → closes after = true →
    (trace (List.replicate (((run steps {}).queue n).length + 1) (.receive n)) (run steps {})).map
      (·.2) = ((run steps {}).queue n).map .got ++ [.ended]

/-- What a run of a new feed promises to those who come and to those who publish. -/
structure Lossless (steps : List (Step D)) : Prop where
  joined : ∀ before after, steps = before ++ .subscribe :: after → closes before = false →
    ((run before {}).step .subscribe).1 = .joined (joins before) ∧
      Served (joins before) steps after
  reached : closes steps = false → ∀ r,
    ((run steps {}).step (.publish r)).1 = .reached (stayers 0 steps).length
  counted : closes steps = false → ∀ r,
    ((run (steps ++ [.publish r]) {}).step .count).1 = .counted (stayers 0 steps).length

section Whole

/-- A feed as the steps before a subscriber's coming leave it. -/
theorem opened_run {before : List (Step D)} (hb : closes before = false) :
    (run before ({} : Feed D)).isOpen = true ∧ (run before ({} : Feed D)).Numbered ∧
      (run before ({} : Feed D)).next = joins before := by
  have ho : (run before ({} : Feed D)).isOpen = true := by rw [isOpen_run, hb]; rfl
  refine ⟨ho, Numbered.run (fun _ => numbered_empty) before ho, ?_⟩
  rw [next_run rfl hb]
  exact Nat.zero_add _

theorem served_of_join {before : List (Step D)} (hb : closes before = false)
    (after : List (Step D)) : Served (joins before) (before ++ .subscribe :: after) after := by
  obtain ⟨ho, hf, hnext⟩ := opened_run hb
  obtain ⟨hlive, hnil⟩ := hf.sound.subscribed
  have hjoin : (run before {}).step .subscribe =
      (.joined (joins before), (run before {}).subscribe.2) := by
    rw [step, if_pos ho, ← hnext]
    rfl
  have hrun : run (before ++ .subscribe :: after) {} = run after (run before {}).subscribe.2 := by
    rw [run_append, run, hjoin]
  have hheard : heard (joins before) (trace (before ++ .subscribe :: after) {}) =
      heard (joins before) (trace after (run before {}).subscribe.2) := by
    have hnone := heard_unborn rfl numbered_empty hb (Nat.le_of_eq (Nat.zero_add (joins before)))
    rw [trace_append, heard_append, hnone, trace, hjoin]
    rfl
  have hopen : (run before {}).subscribe.2.isOpen = true := ho
  have hnum : (run before {}).subscribe.2.isOpen = true → (run before {}).subscribe.2.Numbered :=
    fun _ => hf.subscribe
  rw [show (run before {}).subscribe.1 = joins before from hnext] at hlive hnil
  have hstay : ∀ hs : leaves (joins before) after = false,
      heard (joins before) (trace (before ++ .subscribe :: after) {}) ++
          (run (before ++ .subscribe :: after) {}).queue (joins before) = published after ∧
        (run (before ++ .subscribe :: after) {}).isLive (joins before) = true := by
    intro hs
    have hstays := heard_run hnum hlive hs
    rwa [hnil, hopen, if_pos rfl, List.nil_append, ← hheard, ← hrun] at hstays
  have hclosed : (run (before ++ .subscribe :: after) {}).isOpen = !closes after := by
    rw [hrun, isOpen_run, hopen]
    rfl
  exact
    { complete := fun hs => (hstay hs).1
      ordered := by
        have hprefix := heard_prefix hnum hlive (hnext ▸ Nat.lt_succ_self _) after
        rwa [hnil, hopen, if_pos rfl, List.nil_append, ← hheard] at hprefix
      next := fun hs => by
        obtain ⟨hall, hthere⟩ := hstay hs
        rw [← hall, List.drop_left]
        cases hq : (run (before ++ .subscribe :: after) {}).queue (joins before) with
        | nil => rw [step_receive_of_nil hthere hq, hclosed]; cases closes after <;> rfl
        | cons r rest => rw [step_receive_of_cons hq]
      backlog := fun hs hc => answers_backlog (by rw [hclosed, hc]; rfl) (hstay hs).2 }

theorem reached_stayers {steps : List (Step D)} (hs : closes steps = false) (r : Versioned D) :
    ((run steps {}).publish r).count = (stayers 0 steps).length := by
  obtain ⟨-, hf, -⟩ := opened_run hs
  rw [count_publish hf, keys_run rfl hs]
  rfl

/-- In any run of a feed nobody misses a commit, gets one twice or out of order, and each commit is
counted for those who are there. -/
theorem run_lossless (steps : List (Step D)) : Lossless steps where
  joined before after hsteps hb := by
    obtain ⟨ho, -, hnext⟩ := opened_run hb
    refine ⟨?_, hsteps ▸ served_of_join hb after⟩
    rw [step, if_pos ho, ← hnext]
    rfl
  reached hs r := by
    rw [step, if_pos (opened_run hs).1, reached_stayers hs]
  counted hs r := by
    rw [run_append, run, run, step, if_pos (opened_run hs).1, step]
    rw [if_pos (show ((run steps {}).publish r).isOpen = true from (opened_run hs).1),
      reached_stayers hs]

example (r : Versioned D) :
    (trace [.subscribe, .publish r, .count, .close, .receive 0, .receive 0] {}).map (·.2) =
      [.joined 0, .reached 1, .counted 1, .closed, .got r, .ended] := rfl

end Whole

end ServiceCatalog.Feed
