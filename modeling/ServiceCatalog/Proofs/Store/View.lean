import Mathlib.Logic.Function.Basic
import ServiceCatalog.Proofs.Except
import ServiceCatalog.Store.Directory
import ServiceCatalog.Store.Memory

/-! A store seen as the record of each id. The store in memory answers as its view does. -/
namespace ServiceCatalog

variable {D : Type}

abbrev View (D : Type) := String → Option (Versioned D)

namespace View

def version? (v : View D) (id : String) : Option Token := (v id).map (·.version)

def fetch (v : View D) (id : String) : Except StoreError (Option (Versioned D)) :=
  if isValidId id then .ok (v id) else .error (.invalidId id)

def throttled (id : String) : StoreError := .throttled id (some Directory.retryAfter)

/-- The answer to a save of the record `r`, and the view after it. -/
def save (v : View D) (locked : Bool) (r : Versioned D) (expected : Option Token) :
    Except StoreError (Versioned D) × View D :=
  if !isValidId r.id then (.error (.invalidId r.id), v)
  else if locked then (.error (throttled r.id), v)
  else if v.version? r.id = expected then (.ok r, Function.update v r.id (some r))
  else (.error (.conflict r.id expected (v.version? r.id)), v)

variable {v : View D} {locked : Bool} {r : Versioned D} {expected : Option Token}

theorem save_of_invalid (h : isValidId r.id = false) :
    v.save locked r expected = (.error (.invalidId r.id), v) := by
  simp [save, h]

theorem save_of_locked (h : isValidId r.id = true) :
    v.save true r expected = (.error (throttled r.id), v) := by
  simp [save, h]

theorem save_of_eq (h : isValidId r.id = true) (he : v.version? r.id = expected) :
    v.save false r expected = (.ok r, Function.update v r.id (some r)) := by
  simp [save, h, he]

theorem save_of_ne (h : isValidId r.id = true) (he : v.version? r.id ≠ expected) :
    v.save false r expected = (.error (.conflict r.id expected (v.version? r.id)), v) := by
  simp [save, h, he]

end View

/-- A commit is published, a failure is not. -/
def Feed.after (f : Feed D) : Except StoreError (Versioned D) → Feed D
  | .ok r => f.publish r
  | .error _ => f

theorem validateId_of_isValidId {id : String} (h : isValidId id = true) : validateId id = .ok () := by
  simp [validateId, h]

theorem validateId_of_invalid {id : String} (h : isValidId id = false) :
    validateId id = .error (.invalidId id) := by
  simp [validateId, h]

namespace Memory

theorem find?_put (records : List (Versioned D)) (r : Versioned D) (id : String) :
    (put records r).find? (·.id == id) =
      if id = r.id then some r else records.find? (·.id == id) := by
  induction records with
  | nil =>
    by_cases h : id = r.id
    · simp [put, h]
    · simp [put, h, Ne.symm h]
  | cons q records ih =>
    rw [put]
    by_cases hq : q.id = r.id
    · by_cases h : id = r.id
      · simp [hq, h]
      · simp [hq, h, Ne.symm h]
    · by_cases h : q.id = id
      · have hid : id ≠ r.id := h ▸ hq
        simp [h, hid]
      · simpa [hq, h] using ih

theorem mem_put {records : List (Versioned D)} {r q : Versioned D} (h : q ∈ put records r) :
    q = r ∨ q ∈ records := by
  induction records with
  | nil => exact .inl (List.mem_singleton.mp h)
  | cons p records ih =>
    rw [put] at h
    split at h
    · exact (List.mem_cons.mp h).imp_right (List.mem_cons_of_mem p)
    · rcases List.mem_cons.mp h with rfl | h
      · exact .inr (List.mem_cons_self ..)
      · exact (ih h).imp_right (List.mem_cons_of_mem p)

theorem get?_put (s : Memory D) (r : Versioned D) (f : Feed D) :
    get? { records := put s.records r, feed := f } = Function.update s.get? r.id (some r) := by
  funext id
  rw [Function.update_apply]
  exact find?_put s.records r id

theorem fetch_eq (s : Memory D) (id : String) : s.fetch id = View.fetch s.get? id := by
  unfold fetch View.fetch
  cases h : isValidId id with
  | false => simp [validateId_of_invalid h]
  | true => simp [validateId_of_isValidId h]

variable {s : Memory D} {r : Versioned D} {expected : Option Token}

theorem save_of_invalid (h : isValidId r.id = false) :
    s.save r.modifiedAt r.version r.id r.document expected = .error (.invalidId r.id) := by
  simp [save, validateId_of_invalid h]

theorem save_of_eq (h : isValidId r.id = true) (he : View.version? s.get? r.id = expected) :
    s.save r.modifiedAt r.version r.id r.document expected =
      .ok (r, { records := put s.records r, feed := s.feed.publish r }) := by
  unfold View.version? at he
  simp [save, validateId_of_isValidId h, he]

theorem save_of_ne (h : isValidId r.id = true) (he : View.version? s.get? r.id ≠ expected) :
    s.save r.modifiedAt r.version r.id r.document expected =
      .error (.conflict r.id expected (View.version? s.get? r.id)) := by
  unfold View.version? at he ⊢
  simp [save, validateId_of_isValidId h, he]

end Memory
end ServiceCatalog
