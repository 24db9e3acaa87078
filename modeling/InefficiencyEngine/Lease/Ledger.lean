import InefficiencyEngine.Lib.Dict
import InefficiencyEngine.Lib.IsoText
import InefficiencyEngine.Lib.Machine
import Mathlib.Data.Rat.Floor

namespace InefficiencyEngine.Lease

open Calendar

/-!
# The lease of heavy work

A lease is a row of `heavy_work_runtime_leases`: who owns it and until when, the times as ISO
texts.  `try_acquire` inserts the row, or replaces it if it has expired or is the caller's own;
`release` deletes it if it is the caller's own.  Each of them is one transaction.
-/

/-- A row of `heavy_work_runtime_leases`, without its name. -/
structure LeaseRow where
  owner : String
  acquiredAt : String
  expiresAt : String
  deriving DecidableEq

/-- The table, by `lease_name`. -/
abbrev LeaseTable := Dict String LeaseRow

/-- The database. -/
inductive Backend
  | postgresql
  | sqlite
  | other
  deriving DecidableEq

/-! ### Expiry -/

/-- Round to an integer, and to the even one of two that are as near. -/
def roundHalfEven (q : ℚ) : ℤ :=
  if q - ⌊q⌋ < 1 / 2 then ⌊q⌋
  else if 1 / 2 < q - ⌊q⌋ then ⌊q⌋ + 1
  else if ⌊q⌋ % 2 = 0 then ⌊q⌋
  else ⌊q⌋ + 1

/-- `observed_at + timedelta(seconds=max(60.0, ttl_seconds))`, unless it overflows. -/
def expiresAt (ttlSeconds : ℚ) (observedAt : UtcTime) : Option UtcTime :=
  observedAt.add? (roundHalfEven (max 60 ttlSeconds * 1000000))

/-! ### The calls -/

/-- `INSERT … ON CONFLICT DO UPDATE … WHERE`: the table and the number of rows written. -/
def upsert (leases : LeaseTable) (leaseName : String) (row : LeaseRow)
    (replaceable : LeaseRow → Bool) : LeaseTable × ℕ :=
  match leases.get? leaseName with
  | none => (leases.set leaseName row, 1)
  | some current => if replaceable current then (leases.set leaseName row, 1) else (leases, 0)

/-- `try_acquire`: the table and whether the lease was acquired; nothing if the expiry is out of
    range. The two databases decide in one statement, and the times are compared as texts. -/
def tryAcquire (backend : Backend) (leases : LeaseTable) (owner leaseName : String)
    (ttlSeconds : ℚ) (now : UtcTime) : Option (LeaseTable × Bool) := do
  let expiry ← expiresAt ttlSeconds now
  let row : LeaseRow := ⟨owner, now.isoformat, expiry.isoformat⟩
  match backend with
  | .postgresql | .sqlite =>
    -- insert, or update where the row has expired or is the caller's
    let (written, rowcount) := upsert leases leaseName row (fun current =>
      current.expiresAt ≤ now.isoformat ∨ current.owner = owner)
    pure (written, rowcount ≠ 0)
  | .other =>
    match leases.get? leaseName with
    | none => pure (leases.set leaseName row, true)
    | some current =>
      if now.isoformat < current.expiresAt ∧ current.owner ≠ owner then
        pure (leases, false)
      else
        pure (leases.set leaseName row, true)

/-- `release`. -/
def release (leases : LeaseTable) (owner leaseName : String) : LeaseTable :=
  match leases.get? leaseName with
  | none => leases
  | some current => if current.owner = owner then leases.erase leaseName else leases

/-- `current_owner`. -/
def currentOwner (leases : LeaseTable) (leaseName : String) (now : UtcTime) : Option String :=
  match leases.get? leaseName with
  | none => none
  | some row => if row.expiresAt ≤ now.isoformat then none else some row.owner

/-! ### Runs -/

/-- A call of some owner. -/
inductive LeaseCall
  | tryAcquire (owner leaseName : String) (ttlSeconds : ℚ) (now : UtcTime)
  | release (owner leaseName : String)

/-- The clock a call reads. -/
def LeaseCall.time? : LeaseCall → Option UtcTime
  | .tryAcquire _ _ _ now => some now
  | .release _ _ => none

/-- What a call leaves. -/
def leaseStep (backend : Backend) (leases : LeaseTable) : LeaseCall → LeaseTable
  | .tryAcquire owner leaseName ttlSeconds now =>
    match tryAcquire backend leases owner leaseName ttlSeconds now with
    | none => leases
    | some (written, _) => written
  | .release owner leaseName => release leases owner leaseName

/-- The call acquires the lease. -/
def Acquires (backend : Backend) (leases : LeaseTable) (owner leaseName : String)
    (ttlSeconds : ℚ) (now : UtcTime) : Prop :=
  (tryAcquire backend leases owner leaseName ttlSeconds now).map Prod.snd = some true

/-- The clock does not go back. -/
def NonDecreasing (calls : List LeaseCall) : Prop :=
  (calls.filterMap LeaseCall.time?).Pairwise (· ≤ ·)

instance (backend : Backend) (leases : LeaseTable) (owner leaseName : String) (ttlSeconds : ℚ)
    (now : UtcTime) : Decidable (Acquires backend leases owner leaseName ttlSeconds now) :=
  inferInstanceAs (Decidable (_ = _))

instance (calls : List LeaseCall) : Decidable (NonDecreasing calls) :=
  inferInstanceAs (Decidable (List.Pairwise _ _))

/-! ### What the calls do -/

section Calls

variable {backend : Backend} {leases : LeaseTable} {owner leaseName : String} {ttlSeconds : ℚ}
variable {now expiry : UtcTime}

/-- The lease is free for an owner: there is none, or it has expired, or it is its own. -/
def Free (leases : LeaseTable) (owner leaseName : String) (now : UtcTime) : Prop :=
  ∀ row ∈ leases.get? leaseName, row.expiresAt ≤ now.isoformat ∨ row.owner = owner

instance (leases : LeaseTable) (owner leaseName : String) (now : UtcTime) :
    Decidable (Free leases owner leaseName now) :=
  inferInstanceAs (Decidable (∀ row ∈ leases.get? leaseName, _))

/-- **Acquiring.** Whatever the database, a free lease is taken and another one is left. -/
theorem tryAcquire_eq (hexpiry : expiresAt ttlSeconds now = some expiry) :
    tryAcquire backend leases owner leaseName ttlSeconds now
      = if Free leases owner leaseName now then
          some (leases.set leaseName ⟨owner, now.isoformat, expiry.isoformat⟩, true)
        else some (leases, false) := by
  have hbind : ∀ rest : UtcTime → Option (LeaseTable × Bool),
      (expiresAt ttlSeconds now >>= rest) = rest expiry := fun rest => by rw [hexpiry]; rfl
  rw [tryAcquire, hbind]
  cases hget : leases.get? leaseName with
  -- no row: the lease is free, and the insert takes it
  | none =>
    have hfree : Free leases owner leaseName now := fun row hrow => by
      rw [hget] at hrow
      cases hrow
    rw [if_pos hfree]
    cases backend <;> simp [upsert, hget]
  | some current =>
    -- a row: the lease is free once expired, or for its owner
    have hfree : Free leases owner leaseName now
        ↔ current.expiresAt ≤ now.isoformat ∨ current.owner = owner := by
      unfold Free
      rw [hget]
      simp
    have hlive : now.isoformat < current.expiresAt ↔ ¬ current.expiresAt ≤ now.isoformat :=
      not_le.symm
    simp only [hfree]
    -- the upsert and the read before a write decide in the same cases
    by_cases hexpired : current.expiresAt ≤ now.isoformat <;>
      by_cases howner : current.owner = owner <;>
      cases backend <;> simp only [upsert, hget, hlive] <;> simp [hexpired, howner]

/-- A call that overflows writes nothing. -/
theorem tryAcquire_eq_none (hexpiry : expiresAt ttlSeconds now = none) :
    tryAcquire backend leases owner leaseName ttlSeconds now = none := by
  rw [tryAcquire, hexpiry]
  rfl

theorem acquires_iff :
    Acquires backend leases owner leaseName ttlSeconds now
      ↔ (expiresAt ttlSeconds now).isSome ∧ Free leases owner leaseName now := by
  unfold Acquires
  cases hexpiry : expiresAt ttlSeconds now with
  | none => simp [tryAcquire_eq_none hexpiry]
  | some expiry =>
    rw [tryAcquire_eq hexpiry]
    by_cases hfree : Free leases owner leaseName now
    · simp [hfree]
    · simp [hfree]

/-- What a call leaves of a lease. -/
theorem get?_leaseStep_tryAcquire (other : String) :
    (leaseStep backend leases (.tryAcquire owner leaseName ttlSeconds now)).get? other
      = match expiresAt ttlSeconds now with
        | none => leases.get? other
        | some expiry =>
          if leaseName = other ∧ Free leases owner leaseName now then
            some ⟨owner, now.isoformat, expiry.isoformat⟩
          else leases.get? other := by
  cases hexpiry : expiresAt ttlSeconds now with
  | none => simp only [leaseStep, tryAcquire_eq_none hexpiry]
  | some expiry =>
    simp only [leaseStep, tryAcquire_eq hexpiry]
    by_cases hfree : Free leases owner leaseName now
    · rw [if_pos hfree]
      simp only [Dict.get?_set, hfree, and_true]
    · rw [if_neg hfree]
      simp only [hfree, and_false, if_false]

theorem get?_release (other : String) :
    (release leases owner leaseName).get? other
      = if leaseName = other ∧ ∃ row ∈ leases.get? leaseName, row.owner = owner then none
        else leases.get? other := by
  unfold release
  cases hget : leases.get? leaseName with
  | none => simp
  | some current =>
    by_cases howner : current.owner = owner
    · simp only [howner, if_true, Dict.get?_erase]
      simp [howner]
    · simp [howner]

end Calls

end InefficiencyEngine.Lease
