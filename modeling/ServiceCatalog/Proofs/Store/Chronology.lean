import ServiceCatalog.Proofs.Store.Protection
import ServiceCatalog.Proofs.Time.Order

/-!
Saves of many callers on one store while the clock goes on. Between the beginning of a save and its
commit other calls come and go. A directory gives a record the time at which its save began, and so
the commits of different ids can be out of order; along the history of one id they are not, since a
save that replaces a record has begun after the commit of that record.
-/
namespace ServiceCatalog

variable {D : Type}

namespace Shelf

/-- The time of a commit. A directory reads the clock when the save begins, a store in memory when it
commits. -/
def stamp (s : Shelf D) (began now : Instant) : Instant :=
  match s with
  | .memory _ => now
  | .directory _ => began

theorem stamp_notAfter (s : Shelf D) {began now : Instant} (h : began.NotAfter now) :
    (s.stamp began now).NotAfter now := by
  cases s with
  | memory m => exact .refl now
  | directory d => exact h

theorem notAfter_stamp (s : Shelf D) {began now t : Instant} (h : began.NotAfter now)
    (ht : t.NotAfter began) : t.NotAfter (s.stamp began now) := by
  cases s with
  | memory m => exact ht.trans h
  | directory d => exact ht

variable [Document D] {files files' : FileTree} {s s' : Shelf D} {now : Instant} {fresh : Token}
  {lockFree : Bool} {id : String} {document : D} {expected : Option Token} {r q : Versioned D}

/-- The record that a read shows. -/
def found (files : FileTree) (s : Shelf D) : View D := fun id =>
  match s.fetch files id with
  | .ok found => found
  | .error _ => none

theorem found_of_fetch {found : Option (Versioned D)} (h : s.fetch files id = .ok found) :
    s.found files id = found := by
  rw [Shelf.found, h]

theorem Slot.fetch_of_save {c c' : Slot D} (h : c.save lockFree r expected = (.ok q, c')) :
    ∃ found, c.fetch r.id = .ok found ∧ found.map (·.version) = expected := by
  cases c with
  | invalid => cases h
  | memory found =>
    by_cases he : found.map (·.version) = expected
    · exact ⟨found, rfl, he⟩
    · simp [Slot.save, he] at h
  | directory c =>
    rcases hsave : c.save lockFree r expected with ⟨answer, c''⟩
    rw [Slot.save, hsave] at h
    cases h
    obtain ⟨⟨-, -, -, found, hfound, he⟩, -, -⟩ := Directory.Slot.save_eq_ok.mp hsave
    refine ⟨found.map (·.versioned r.id), by rw [Slot.fetch, hfound]; rfl, ?_⟩
    rw [Option.map_map]
    exact he

/-- A save that succeeds was told the token that a read shows. -/
theorem fetch_of_save
    (h : s.save files now fresh lockFree id document expected = (.ok r, files', s')) :
    ∃ found, s.fetch files id = .ok found ∧ found.map (·.version) = expected := by
  rw [fetch_eq_slot]
  exact Slot.fetch_of_save (r := ⟨id, document, fresh, now⟩) (save_eq_slot h)

/-- The token of a record is shown as it was given, whatever its document is shown as. -/
theorem version_of_reread (h : s.reread r = .ok q) : q.version = r.version := by
  unfold reread at h
  split at h
  · cases h
    rfl
  · unfold Directory.reread at h
    split at h
    · next kept hkept =>
      cases h
      exact Stored.version_of_ofText? (r := Directory.stored r) hkept
    · cases h

end Shelf

namespace Traffic

/-- A save that has begun. -/
structure Saving (D : Type) where
  id : String
  document : D
  expected : Option Token
  began : Instant

/-- What callers were told. -/
inductive Told (D : Type) where
  | read (answer : Except StoreError (Option (Versioned D)))
  | saved (answer : Except StoreError (Versioned D))

namespace Told

def token? : Told D → Option Token
  | .read (.ok (some r)) | .saved (.ok r) => some r.version
  | _ => none

def commit? (id : String) : Told D → Option (Versioned D)
  | .saved (.ok r) => if r.id = id then some r else none
  | _ => none

end Told

end Traffic

/-- Calls on one store. -/
structure Traffic (D : Type) where
  files : FileTree
  shelf : Shelf D
  clock : Instant
  /-- The time in the beginning. -/
  opened : Instant
  /-- What was stored in the beginning. -/
  origin : View D
  saving : Nat → Option (Traffic.Saving D) := fun _ => none
  /-- Oldest answers first. -/
  log : List (Traffic.Told D) := []

namespace Traffic

inductive Event (D : Type) where
  | setClock (now : Instant)
  | read (id : String)
  | start (call : Nat) (id : String) (document : D) (expected : Option Token)
  | finish (call : Nat) (fresh : Token) (lockFree : Bool)

/-- The tokens that callers know of. -/
def tokens (t : Traffic D) : List Token := t.log.filterMap Told.token?

def commits (t : Traffic D) (id : String) : List (Versioned D) := t.log.filterMap (Told.commit? id)

/-- The records of an id, one after the other. -/
def history (t : Traffic D) (id : String) : List (Versioned D) := (t.origin id).toList ++ t.commits id

section
variable [Document D]

/-- The save commits or fails. -/
def finish (t : Traffic D) (call : Nat) (fresh : Token) (lockFree : Bool) : Traffic D :=
  match t.saving call with
  | none => t
  | some p =>
    let (answer, files, shelf) := t.shelf.save t.files (t.shelf.stamp p.began t.clock) fresh lockFree
      p.id p.document p.expected
    { t with
      files, shelf,
      saving := Function.update t.saving call none,
      log := t.log ++ [.saved answer] }

def step (t : Traffic D) : Event D → Traffic D
  | .setClock now => { t with clock := now }
  | .read id => { t with log := t.log ++ [.read (t.shelf.fetch t.files id)] }
  | .start call id document expected =>
    { t with saving := Function.update t.saving call (some ⟨id, document, expected, t.clock⟩) }
  | .finish call fresh lockFree => t.finish call fresh lockFree

/-- The clock does not go back, a token that is expected was read or committed before, and a commit
does not get a token that is known. -/
def Allowed (t : Traffic D) : Event D → Prop
  | .setClock now => t.clock.NotAfter now
  | .read _ => True
  | .start call _ _ expected => t.saving call = none ∧ ∀ k ∈ expected, k ∈ t.tokens
  | .finish _ fresh _ => fresh ∉ t.tokens

instance (t : Traffic D) : (e : Event D) → Decidable (t.Allowed e)
  | .setClock _ => inferInstanceAs (Decidable (Instant.NotAfter _ _))
  | .read _ => inferInstanceAs (Decidable True)
  | .start _ _ _ _ => inferInstanceAs (Decidable (_ ∧ _))
  | .finish _ _ _ => inferInstanceAs (Decidable (_ ∉ _))

/-- Calls begin on a store of either kind, with whatever it holds. -/
inductive Reachable : Traffic D → Prop
  | start (files : FileTree) (shelf : Shelf D) (clock : Instant) :
    Reachable { files, shelf, clock, opened := clock, origin := shelf.found files }
  | step {t : Traffic D} {e : Event D} (h : Reachable t) (ha : t.Allowed e) : Reachable (t.step e)

end

/-- A save that is under way has begun after the commit of the record that it may replace. -/
structure Pending (t : Traffic D) (p : Saving D) : Prop where
  opened : t.opened.NotAfter p.began
  past : p.began.NotAfter t.clock
  known : ∀ k ∈ p.expected, k ∈ t.tokens
  after : ∀ r ∈ t.commits p.id, some r.version = p.expected → r.modifiedAt.NotAfter p.began

/-- Why the times of an id are in order. -/
structure Causal [Document D] (t : Traffic D) : Prop where
  opened : t.opened.NotAfter t.clock
  past : ∀ id, ∀ r ∈ t.commits id, t.opened.NotAfter r.modifiedAt ∧ r.modifiedAt.NotAfter t.clock
  ordered : ∀ id, (t.commits id).Pairwise fun a b => a.modifiedAt.NotAfter b.modifiedAt
  /-- A read shows the token of the last record. -/
  shown : ∀ id found, t.shelf.fetch t.files id = .ok found →
    found.map (·.version) = (t.history id).getLast?.map (·.version)
  pending : ∀ call p, t.saving call = some p → t.Pending p

variable {t u : Traffic D} {id : String} {p : Saving D}

theorem history_congr (horigin : u.origin = t.origin) (h : u.commits id = t.commits id) :
    u.history id = t.history id := by
  rw [history, history, horigin, h]

theorem Pending.congr (h : t.Pending p) (hopened : u.opened = t.opened)
    (hclock : t.clock.NotAfter u.clock) (htokens : t.tokens ⊆ u.tokens)
    (hcommits : ∀ r ∈ u.commits p.id, r ∈ t.commits p.id ∨ some r.version ≠ p.expected) :
    u.Pending p where
  opened := hopened ▸ h.opened
  past := h.past.trans hclock
  known k hk := htokens (h.known k hk)
  after r hr he := (hcommits r hr).elim (fun hr => h.after r hr he) fun hn => absurd he hn

variable [Document D]

/-- Without a commit only the clock goes on. -/
theorem Causal.congr (h : t.Causal) (hopened : u.opened = t.opened) (horigin : u.origin = t.origin)
    (hclock : t.clock.NotAfter u.clock) (htokens : t.tokens ⊆ u.tokens)
    (hcommits : ∀ id, u.commits id = t.commits id)
    (hfetch : ∀ id, u.shelf.fetch u.files id = t.shelf.fetch t.files id)
    (hpending : ∀ call p, u.saving call = some p → t.saving call = some p ∨ u.Pending p) :
    u.Causal where
  opened := hopened ▸ h.opened.trans hclock
  past id r hr := by
    rw [hcommits] at hr
    obtain ⟨hr, hr'⟩ := h.past id r hr
    exact ⟨hopened ▸ hr, hr'.trans hclock⟩
  ordered id := hcommits id ▸ h.ordered id
  shown id found hfound := by
    rw [history_congr horigin (hcommits id)]
    exact h.shown id found (hfetch id ▸ hfound)
  pending call p hp := by
    rcases hpending call p hp with hp | hp
    · exact (h.pending call p hp).congr hopened hclock htokens fun r hr => .inl (hcommits p.id ▸ hr)
    · exact hp

theorem causal_start (files : FileTree) (shelf : Shelf D) (clock : Instant) :
    Causal { files, shelf, clock, opened := clock, origin := shelf.found files } where
  opened := .refl clock
  past _ _ hr := nomatch hr
  ordered _ := .nil
  shown id found hfound := by
    have horigin : shelf.found files id = found := Shelf.found_of_fetch hfound
    show _ = ((shelf.found files id).toList ++ []).getLast?.map _
    rw [horigin]
    cases found <;> rfl
  pending _ _ hp := nomatch hp

omit [Document D] in
theorem tokens_append (told : Told D) :
    tokens { t with log := t.log ++ [told] } = t.tokens ++ told.token?.toList := by
  cases h : told.token? <;> simp [tokens, h]

omit [Document D] in
theorem commits_append (told : Told D) (id : String) :
    commits { t with log := t.log ++ [told] } id = t.commits id ++ (told.commit? id).toList := by
  cases h : told.commit? id <;> simp [commits, h]

theorem Causal.setClock (h : t.Causal) {now : Instant} (hnow : t.clock.NotAfter now) :
    (t.step (.setClock now)).Causal :=
  h.congr rfl rfl hnow (List.Subset.refl _) (fun _ => rfl) (fun _ => rfl) fun _ _ hp => .inl hp

theorem Causal.read (h : t.Causal) (id : String) : (t.step (.read id)).Causal :=
  h.congr rfl rfl (.refl _) (tokens_append _ ▸ List.subset_append_left ..)
    (fun i => (commits_append _ i).trans (List.append_nil _)) (fun _ => rfl) fun _ _ hp => .inl hp

theorem Causal.start (h : t.Causal) (call : Nat) (id : String) (document : D)
    {expected : Option Token} (hknown : ∀ k ∈ expected, k ∈ t.tokens) :
    (t.step (.start call id document expected)).Causal := by
  refine h.congr rfl rfl (.refl _) (List.Subset.refl _) (fun _ => rfl) (fun _ => rfl)
    fun i p hp => ?_
  by_cases hi : i = call
  · have hp' : some ⟨id, document, expected, t.clock⟩ = some p := by
      simpa [step, hi] using hp
    cases hp'
    exact .inr ⟨h.opened, .refl _, hknown, fun r hr _ => (h.past id r hr).2⟩
  · exact .inl (by simpa [step, hi] using hp)

/-- The records of an id were committed before a save began that may replace the last one. -/
theorem Causal.notAfter_began (h : t.Causal) {p : Saving D} (hp : t.Pending p)
    {found : Option (Versioned D)} (hfound : t.shelf.fetch t.files p.id = .ok found)
    (he : found.map (·.version) = p.expected) :
    ∀ r ∈ t.commits p.id, r.modifiedAt.NotAfter p.began := by
  intro r hr
  rcases List.eq_nil_or_concat (t.commits p.id) with hnil | ⟨before, last, hlast⟩
  · rw [hnil] at hr
    cases hr
  · have hmem : last ∈ t.commits p.id := by simp [hlast]
    have hexpected : some last.version = p.expected := by
      rw [← he, h.shown p.id found hfound, history, hlast]
      simp
    have hafter := hp.after last hmem hexpected
    have hordered := h.ordered p.id
    rw [hlast, List.concat_eq_append, List.pairwise_append] at hordered
    rw [hlast, List.concat_eq_append, List.mem_append, List.mem_singleton] at hr
    rcases hr with hr | rfl
    · exact (hordered.2.2 r hr last (List.mem_singleton.mpr rfl)).trans hafter
    · exact hafter

omit [Document D] in
/-- The record that is committed comes last, for its own id alone. -/
theorem commits_saved {r : Versioned D} (hid : r.id = p.id) (i : String) :
    commits { t with log := t.log ++ [.saved (.ok r)] } i =
      t.commits i ++ if i = p.id then [r] else [] := by
  rw [commits_append, Told.commit?, hid]
  by_cases hi : i = p.id
  · rw [if_pos hi.symm, if_pos hi]
    rfl
  · rw [if_neg (Ne.symm hi), if_neg hi]
    rfl

theorem Causal.commit (h : t.Causal) (hp : t.Pending p) {fresh : Token}
    (hfresh : fresh ∉ t.tokens) {lockFree : Bool} {r : Versioned D} {files : FileTree}
    {shelf : Shelf D} {saving : Nat → Option (Saving D)}
    (hsave : t.shelf.save t.files (t.shelf.stamp p.began t.clock) fresh lockFree p.id p.document
      p.expected = (.ok r, files, shelf))
    (hsaving : ∀ call q, saving call = some q → t.saving call = some q) :
    Causal { t with files, shelf, saving, log := t.log ++ [.saved (.ok r)] } := by
  obtain ⟨-, hr, hfetch, hothers⟩ := Shelf.save_eq_ok hsave
  obtain ⟨found, hfound, he⟩ := Shelf.fetch_of_save hsave
  have hbefore := h.notAfter_began hp hfound he
  have hversion : r.version = fresh := by rw [hr]
  have htime : r.modifiedAt = t.shelf.stamp p.began t.clock := by rw [hr]
  have hcommits : ∀ i, commits { t with files, shelf, saving, log := t.log ++ [.saved (.ok r)] } i =
      t.commits i ++ if i = p.id then [r] else [] := commits_saved (t := t) (by rw [hr])
  refine ⟨h.opened, fun i q hq => ?past, fun i => ?ordered, fun i shown hshown => ?shown,
    fun call q hq => ?pending⟩
  case past =>
    rw [hcommits, List.mem_append] at hq
    rcases hq with hq | hq
    · exact h.past i q hq
    · obtain rfl : q = r := by
        split at hq
        · exact List.mem_singleton.mp hq
        · cases hq
      rw [htime]
      exact ⟨t.shelf.notAfter_stamp hp.past hp.opened, t.shelf.stamp_notAfter hp.past⟩
  case ordered =>
    rw [hcommits, List.pairwise_append]
    refine ⟨h.ordered i, by split <;> simp, fun a ha b hb => ?_⟩
    split at hb
    · next hi =>
      rw [List.mem_singleton.mp hb, htime]
      exact t.shelf.notAfter_stamp hp.past (hbefore a (hi ▸ ha))
    · cases hb
  case shown =>
    rw [history, hcommits]
    by_cases hi : i = p.id
    · rw [hi, hfetch] at hshown
      obtain ⟨q, hq, rfl⟩ := map_eq_ok.mp hshown
      simp [hi, Shelf.version_of_reread hq]
    · rw [hothers i hi] at hshown
      simpa [hi, history] using h.shown i shown hshown
  case pending =>
    refine (h.pending call q (hsaving call q hq)).congr rfl (.refl _)
      (tokens_append (t := t) (.saved (.ok r)) ▸ List.subset_append_left ..) fun a ha => ?_
    rw [hcommits, List.mem_append] at ha
    refine ha.imp_right fun ha hexpected => hfresh ?_
    -- A token that is expected is known, and the one of this commit is not yet.
    split at ha
    · rw [List.mem_singleton.mp ha, hversion] at hexpected
      exact (h.pending call q (hsaving call q hq)).known fresh (hexpected ▸ rfl)
    · cases ha

theorem Causal.finish (h : t.Causal) (call : Nat) {fresh : Token} (lockFree : Bool)
    (hfresh : fresh ∉ t.tokens) : (t.step (.finish call fresh lockFree)).Causal := by
  show (t.finish call fresh lockFree).Causal
  unfold Traffic.finish
  split
  · exact h
  · next p hp =>
    have hsaving : ∀ i q, Function.update t.saving call none i = some q → t.saving i = some q := by
      intro i q hq
      by_cases hi : i = call
      · simp [hi] at hq
      · simpa [hi] using hq
    rcases hsave : t.shelf.save t.files (t.shelf.stamp p.began t.clock) fresh lockFree p.id p.document
      p.expected with ⟨_ | r, files, shelf⟩
    · exact h.congr rfl rfl (.refl _) (tokens_append _ ▸ List.subset_append_left ..)
        (fun i => (commits_append _ i).trans (List.append_nil _))
        (Shelf.save_unchanged hsave).fetch fun i q hq => .inl (hsaving i q hq)
    · exact h.commit (h.pending call p hp) hfresh hsave hsaving

theorem Reachable.causal (h : Reachable t) : t.Causal := by
  induction h with
  | start files shelf clock => exact causal_start files shelf clock
  | @step t e _ ha ih =>
    cases e with
    | setClock now => exact ih.setClock ha
    | read id => exact ih.read id
    | start call id document expected => exact ih.start call id document ha.2
    | finish call fresh lockFree => exact ih.finish call lockFree ha

/-- The commits of one id are in the order of time, and so is what was stored in the beginning, unless
it is from the future. -/
theorem Reachable.commits_ordered (h : Reachable t) (id : String) :
    ((t.commits id).Pairwise fun a b => a.modifiedAt.NotAfter b.modifiedAt) ∧
      ((∀ r ∈ t.origin id, r.modifiedAt.NotAfter t.opened) →
        (t.history id).Pairwise fun a b => a.modifiedAt.NotAfter b.modifiedAt) := by
  have hcausal := h.causal
  refine ⟨hcausal.ordered id, fun horigin => ?_⟩
  rw [history, List.pairwise_append]
  refine ⟨?_, hcausal.ordered id, fun a ha b hb => ?_⟩
  · cases t.origin id <;> simp
  · exact (horigin a (Option.mem_toList.mp ha)).trans (hcausal.past id b hb).1

def AllowedAll (t : Traffic D) : List (Event D) → Prop
  | [] => True
  | e :: es => t.Allowed e ∧ (t.step e).AllowedAll es

instance decidableAllowedAll (t : Traffic D) : (es : List (Event D)) → Decidable (t.AllowedAll es)
  | [] => inferInstanceAs (Decidable True)
  | e :: es =>
    have := decidableAllowedAll (t.step e) es
    inferInstanceAs (Decidable (_ ∧ _))

theorem Reachable.run (h : Reachable t) (es : List (Event D)) (ha : t.AllowedAll es) :
    Reachable (es.foldl Traffic.step t) := by
  induction es generalizing t with
  | nil => exact h
  | cons e es ih => exact ih (h.step ha.1) ha.2

/-- Three saves in a directory begin at once. One of the first two meets a conflict and is tried again
later with the token that a read shows; the third commits last. -/
def crossing : List (Event Json) :=
  [.start 0 "a" .null none, .start 1 "a" .null none, .start 2 "b" .null none, .setClock ⟨5, 0⟩,
    .finish 1 ⟨"v1"⟩ true, .finish 0 ⟨"v2"⟩ true, .read "a", .start 0 "a" .null (some ⟨"v1"⟩),
    .setClock ⟨9, 0⟩, .finish 0 ⟨"v3"⟩ true, .finish 2 ⟨"v4"⟩ true]

theorem commits_ordered_crossing :
    let files : FileTree := ⟨[(["records"], .directory)]⟩
    let shelf : Shelf Json := .directory ⟨"records", {}⟩
    let t : Traffic Json := crossing.foldl step
      { files, shelf, clock := ⟨0, 0⟩, opened := ⟨0, 0⟩, origin := shelf.found files }
    Reachable t ∧
      t.log.filterMap (fun
        | .saved (.ok r) => some (r.id, r.modifiedAt.seconds)
        | _ => none) = [("a", 0), ("a", 5), ("b", 0)] ∧
      (t.commits "a").Pairwise fun a b => a.modifiedAt.NotAfter b.modifiedAt := by
  intro files shelf t
  have ht : Reachable t := (Reachable.start files shelf ⟨0, 0⟩).run crossing (by decide +kernel)
  exact ⟨ht, by decide +kernel, (ht.commits_ordered "a").1⟩

end Traffic
end ServiceCatalog
