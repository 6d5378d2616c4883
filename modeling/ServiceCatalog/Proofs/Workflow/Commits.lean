import Mathlib.Data.List.Induction
import ServiceCatalog.Proofs.Workflow.History

/-!
Commits of a sound history: tokens never recur, so a token that is still stored shows that nothing
was committed since it was read. From this, the commits on an id form a chain and conflicts are
exact.
-/
namespace ServiceCatalog.History

variable {S K A : Type} [DecidableEq S] [DecidableEq K] [Named S] [Named K]
  {m : Machine S K A} {g h before after : History S A} {id : String}

theorem tokens_nodup (hs : Sound m h) : (tokens h).Nodup := by
  induction h using List.reverseRecOn with
  | nil => simp [tokens]
  | append_singleton h e ih =>
    obtain ⟨hs, he⟩ := sound_concat.mp hs
    have hnodup := ih hs
    rw [tokens_append]
    cases e with
    | read call i found =>
      have hnone : tokens [Entry.read (A := A) call i found] = [] := rfl
      rwa [hnone, List.append_nil]
    | saved call i action found locked result =>
      cases result with
      | error e =>
        have hnone : tokens [Entry.saved call i action found locked (.error e)] = [] := rfl
        rwa [hnone, List.append_nil]
      | ok r =>
        obtain ⟨-, next, fresh, now, -, hfresh, hanswer⟩ := he
        obtain ⟨rfl, -, -⟩ := View.answer_eq_ok hanswer.symm
        have hsingle : tokens [Entry.saved call i action found locked
            (.ok ⟨i, next, fresh, now⟩)] = [fresh] := rfl
        rw [hsingle, List.nodup_append]
        refine ⟨hnodup, List.nodup_singleton _, ?_⟩
        rintro t ht _ hmem rfl
        rw [List.mem_singleton] at hmem
        exact hfresh (hmem ▸ ht)

/-- The stored token is the same only if nothing was committed in between. -/
theorem version?_append_eq_iff (hs : Sound m (g ++ h)) :
    View.version? (last? (g ++ h)) id = View.version? (last? g) id ↔ commits id h = [] := by
  unfold View.version?
  rw [last?_append]
  constructor
  · intro heq
    by_contra hne
    obtain ⟨r, hr⟩ := Option.ne_none_iff_exists'.mp (mt last?_eq_none_iff.mp hne)
    rw [hr, Option.some_or, Option.map_some] at heq
    obtain ⟨q, hq, hqr⟩ := Option.map_eq_some_iff.mp heq.symm
    obtain ⟨c, hc, rfl⟩ := exists_of_last? hr
    obtain ⟨d, hd, rfl⟩ := exists_of_last? hq
    have hnodup := tokens_nodup hs
    rw [tokens_append, List.nodup_append] at hnodup
    exact hnodup.2.2 _ (version_mem_tokens hd) _ (version_mem_tokens hc) hqr
  · intro hnil
    rw [last?_eq_none_iff.mpr hnil, Option.none_or]

theorem read_of_saved {call : Nat} {action : A} {found : Option (Versioned (Item S))}
    {locked : Bool} {result : Except ApplyError (Versioned (Item S))}
    (hs : Sound m (before ++ .saved call id action found locked result :: after)) :
    ∃ pre mid, before = pre ++ .read call id found :: mid ∧
      (∀ e ∈ pre ++ mid, e.call ≠ call) ∧ isValidId id = true ∧ found = last? pre id := by
  obtain ⟨⟨pre, mid, hsplit, hmid⟩, -⟩ := hs before _ after rfl
  obtain ⟨hid, hfound, hpre⟩ := hs pre (.read call id found)
    (mid ++ .saved call id action found locked result :: after) (by simp [hsplit])
  refine ⟨pre, mid, hsplit, ?_, hid, hfound⟩
  intro e he
  rcases List.mem_append.mp he with he | he
  · exact hpre e he
  · exact hmid e he

/-- At a save the stored token is the one that was read only if nothing was committed since. -/
theorem version?_eq_found_iff {call : Nat} {found : Option (Versioned (Item S))}
    {pre mid : History S A} (hs : Sound m (pre ++ .read call id found :: mid)) :
    View.version? (last? (pre ++ .read call id found :: mid)) id = found.map (·.version) ↔
      commits id mid = [] := by
  obtain ⟨-, hfound, -⟩ := hs pre (.read call id found) mid rfl
  have hversion : found.map (·.version) = View.version? (last? pre) id := by
    rw [hfound, View.version?]
  rw [hversion, version?_append_eq_iff hs, commits_read]

/-- A commit follows the last one before it, which its call had read. -/
theorem commit_follows {call : Nat} {action : A} {found : Option (Versioned (Item S))}
    {locked : Bool} {r : Versioned (Item S)}
    (hs : Sound m (before ++ .saved call id action found locked (.ok r) :: after)) :
    r.id = id ∧ isValidId id = true ∧ locked = false ∧ found = last? before id ∧
      m.Follows id (found.map (·.document)) action r.document := by
  obtain ⟨pre, mid, hsplit, -, hid, hfound⟩ := read_of_saved hs
  obtain ⟨-, next, fresh, now, hresolve, -, hanswer⟩ := hs before _ after rfl
  obtain ⟨rfl, hlocked, hversion⟩ := View.answer_eq_ok hanswer.symm
  have hbefore : Sound m (pre ++ .read call id found :: mid) := hsplit ▸ sound_of_append hs
  rw [hsplit] at hversion
  have hnil := (version?_eq_found_iff hbefore).mp hversion
  refine ⟨rfl, hid, hlocked, ?_, (Machine.resolve_eq_ok hresolve).1⟩
  rw [hsplit, last?_append, last?_eq_none_iff.mpr (by rw [commits_read, hnil]), Option.none_or]
  exact hfound

theorem isChain_commits (hs : Sound m h) (id : String) : IsChain m id none (commits id h) := by
  induction h using List.reverseRecOn with
  | nil => trivial
  | append_singleton h e ih =>
    have hchain := ih (sound_concat.mp hs).1
    rw [commits_append, isChain_append]
    refine ⟨hchain, ?_⟩
    cases he : e.commit? id with
    | none => simp [commits, he, IsChain]
    | some c =>
      obtain ⟨locked, rfl⟩ := Entry.eq_saved_of_commit? he
      obtain ⟨hid, -, -, hfound, hfollows⟩ := commit_follows hs
      have hsingle : commits id [Entry.saved c.call id c.action c.found locked (.ok c.record)] =
          [c] := by
        simp [commits, he]
      have hlast : ((commits id h).getLast?.map (·.record)).or none = c.found := by
        rw [hfound, Option.or_none, last?]
      rw [hsingle, hlast]
      exact ⟨rfl, hid, hfollows, trivial⟩

section Outcome

variable {call : Nat} {action : A} {found : Option (Versioned (Item S))}
  {result : Except ApplyError (Versioned (Item S))}

theorem commits_of_saved (hs : Sound m (before ++ .saved call id action found false result :: after))
    (hv : View.version? (last? before) id = found.map (·.version)) :
    ∃ r, result = .ok r ∧
      commits id [Entry.saved call id action found false result] = [⟨call, action, found, r⟩] := by
  obtain ⟨-, -, -, -, hid, -⟩ := read_of_saved hs
  obtain ⟨-, next, fresh, now, -, -, hanswer⟩ := hs before _ after rfl
  obtain rfl : result = .ok ⟨id, next, fresh, now⟩ := hanswer.trans (View.answer_of_eq hid hv)
  exact ⟨_, rfl, by simp [commits, Entry.commit?]⟩

theorem conflict_of_saved
    (hs : Sound m (before ++ .saved call id action found false result :: after))
    (hv : View.version? (last? before) id ≠ found.map (·.version)) :
    result = .error (.conflict id (found.map (·.version)) (View.version? (last? before) id)) := by
  obtain ⟨-, -, -, -, hid, -⟩ := read_of_saved hs
  obtain ⟨-, next, fresh, now, -, -, hanswer⟩ := hs before _ after rfl
  exact hanswer.trans (View.answer_of_ne hid hv)

/-- Of the saves after reads of one version the first commits, and no other does. -/
theorem commits_iff_first (hs : Sound m (h ++ [.saved call id action found false result])) :
    (∃ r, result = .ok r) ↔ ∀ call' action' found' result',
      .saved call' id action' found' false result' ∈ h →
        found'.map (·.version) ≠ found.map (·.version) := by
  obtain ⟨pre, mid, hsplit, -, -, hfound⟩ := read_of_saved hs
  have hprefix : Sound m (pre ++ .read call id found :: mid) := hsplit ▸ sound_of_append hs
  constructor
  · rintro ⟨r, rfl⟩ call' action' found' result' hmem heq
    obtain ⟨-, -, -, hlast, -⟩ := commit_follows hs
    obtain ⟨b, d, hbd⟩ := List.append_of_mem hmem
    have hs' : Sound m (b ++ .saved call' id action' found' false result' :: d) :=
      hbd ▸ sound_of_append hs
    obtain ⟨pre', mid', hsplit', -, -, hfound'⟩ := read_of_saved hs'
    -- the version both have read is still stored, so nothing was committed after the other's read
    have hnil : commits id (.read call' id found' :: mid' ++
        .saved call' id action' found' false result' :: d) = [] := by
      refine (version?_append_eq_iff (g := pre') (m := m) ?_).mp ?_
      · rw [← List.append_assoc, ← hsplit']
        exact hs'
      · rw [← List.append_assoc, ← hsplit', ← hbd]
        unfold View.version?
        rw [← hlast, ← hfound', heq]
    rw [commits_append, List.append_eq_nil_iff, commits_read] at hnil
    have hversion : View.version? (last? b) id = found'.map (·.version) := by
      rw [hsplit']
      exact (version?_eq_found_iff (hsplit' ▸ sound_of_append hs')).mpr hnil.1
    obtain ⟨r', -, hcommit⟩ := commits_of_saved hs' hversion
    have hcons := hnil.2
    rw [← List.singleton_append, commits_append, hcommit] at hcons
    cases hcons
  · intro hfirst
    have hnil : commits id mid = [] := by
      by_contra hne
      obtain ⟨c, cs, hcs⟩ := List.exists_cons_of_ne_nil hne
      obtain ⟨m₁, e, m₂, hmid, hnone, he, -⟩ := List.filterMap_eq_cons_iff.mp hcs
      obtain ⟨locked, rfl⟩ := Entry.eq_saved_of_commit? he
      have hs' : Sound m ((pre ++ .read call id found :: m₁) ++
          .saved c.call id c.action c.found locked (.ok c.record) :: m₂) := by
        simpa [hmid] using hprefix
      obtain ⟨-, -, rfl, hlast, -⟩ := commit_follows hs'
      have hread : c.found = found := by
        have hm₁ : commits id m₁ = [] := List.filterMap_eq_nil_iff.mpr hnone
        rw [hlast, last?_append, last?_eq_none_iff.mpr (by rw [commits_read, hm₁]), Option.none_or,
          hfound]
      exact hfirst c.call c.action c.found (.ok c.record) (by simp [hsplit, hmid]) (by rw [hread])
    have hversion : View.version? (last? h) id = found.map (·.version) := by
      rw [hsplit]
      exact (version?_eq_found_iff hprefix).mpr hnil
    obtain ⟨r, hr, -⟩ := commits_of_saved hs hversion
    exact ⟨r, hr⟩

end Outcome

end ServiceCatalog.History
