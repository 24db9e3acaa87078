import InefficiencyEngine.Lease.Ledger

namespace InefficiencyEngine.Lease

open Calendar

/-!
# One owner at a time

Once an owner has acquired a lease, its row stays until it is released, renewed or expired, for
every other call finds it live.  Whether it is live is decided by comparing texts, which is
comparing the moments.  A renewal replaces the expiry, also by an earlier one, so what is excluded
until the first expiry is excluded only if no renewal is shorter.
-/

/-! ### What is said of the runs -/

/-- The call releases the lease of an owner. -/
def LeaseCall.Releases (owner leaseName : String) (call : LeaseCall) : Prop :=
  call = .release owner leaseName

/-- The call renews the lease of an owner with an expiry before the given one. -/
def LeaseCall.Shortens (owner leaseName : String) (expiry : UtcTime) (call : LeaseCall) : Prop :=
  ∃ ttlSeconds now earlier, call = .tryAcquire owner leaseName ttlSeconds now
    ∧ expiresAt ttlSeconds now = some earlier ∧ earlier < expiry

/-- No other owner acquires a lease before its expiry, in any run from any table whose clock does
    not go back, while the owner makes only certain calls. -/
def ExcludesWhile (backend : Backend) (kept : String → String → UtcTime → LeaseCall → Prop) : Prop :=
  ∀ (leases : LeaseTable) (before between : List LeaseCall) (owner leaseName : String)
    (ttlSeconds : ℚ) (now expiry : UtcTime) (other : String) (otherTtl : ℚ) (later : UtcTime),
    NonDecreasing (before ++ .tryAcquire owner leaseName ttlSeconds now :: between
      ++ [.tryAcquire other leaseName otherTtl later]) →
    Acquires backend (run (leaseStep backend) leases before) owner leaseName ttlSeconds now →
    expiresAt ttlSeconds now = some expiry →
    (∀ call ∈ between, kept owner leaseName expiry call) →
    other ≠ owner → later < expiry →
    ¬ Acquires backend
      (run (leaseStep backend) leases (before ++ .tryAcquire owner leaseName ttlSeconds now :: between))
      other leaseName otherTtl later

/-- The owner has not released the lease. -/
def NotReleased (owner leaseName : String) (_ : UtcTime) (call : LeaseCall) : Prop :=
  ¬ call.Releases owner leaseName

/-- The owner has neither released the lease nor renewed it with an earlier expiry. -/
def NotReleasedNorShortened (owner leaseName : String) (expiry : UtcTime) (call : LeaseCall) :
    Prop :=
  ¬ call.Releases owner leaseName ∧ ¬ call.Shortens owner leaseName expiry

/-- A release by anyone but the owner of the row leaves the table, and one by anyone but the
    current owner is not seen from then on. -/
structure ForeignReleaseHarmless : Prop where
  table : ∀ (leases : LeaseTable) (owner leaseName : String),
    (∀ row ∈ leases.get? leaseName, row.owner ≠ owner) → release leases owner leaseName = leases
  seen : ∀ (leases : LeaseTable) (owner leaseName : String) (now : UtcTime),
    currentOwner leases leaseName now ≠ some owner → ∀ (other : String) (later : UtcTime),
      now ≤ later → currentOwner (release leases owner leaseName) other later
        = currentOwner leases other later

/-! ### The row of an owner -/

section Held

variable {backend : Backend} {leases : LeaseTable} {owner leaseName : String} {ttlSeconds : ℚ}
variable {now expiry : UtcTime}

/-- An owner holds the lease at least until an expiry. -/
def Holds (leases : LeaseTable) (owner leaseName : String) (expiry : UtcTime) : Prop :=
  ∃ row ∈ leases.get? leaseName, row.owner = owner
    ∧ ∃ till : UtcTime, row.expiresAt = till.isoformat ∧ expiry ≤ till

/-- Who acquires the lease holds it. -/
theorem Acquires.holds (h : Acquires backend leases owner leaseName ttlSeconds now)
    (hexpiry : expiresAt ttlSeconds now = some expiry) :
    Holds (leaseStep backend leases (.tryAcquire owner leaseName ttlSeconds now)) owner leaseName
      expiry := by
  have hfree := (acquires_iff.mp h).2
  refine ⟨⟨owner, now.isoformat, expiry.isoformat⟩, ?_, rfl, expiry, rfl, le_refl _⟩
  rw [get?_leaseStep_tryAcquire, hexpiry]
  exact if_pos ⟨rfl, hfree⟩

/-- Before the expiry the lease is free for its owner only. -/
theorem Holds.eq_of_free (h : Holds leases owner leaseName expiry) {other : String}
    (hfree : Free leases other leaseName now) (hnow : now < expiry) : other = owner := by
  obtain ⟨row, hrow, rfl, till, htill, hle⟩ := h
  rcases hfree row hrow with hexpired | howner
  · rw [htill, UtcTime.isoformat_le_iff] at hexpired
    exact absurd (lt_of_lt_of_le hnow hle) (not_lt.mpr hexpired)
  · exact howner.symm

/-- **Step.** A call before the expiry that is neither a release nor a shorter renewal by the
    owner leaves it the lease. Before the expiry nobody else finds the lease free, so only the
    owner could move its end or give it back. -/
theorem Holds.step (h : Holds leases owner leaseName expiry) {call : LeaseCall}
    (hkept : NotReleasedNorShortened owner leaseName expiry call)
    (htime : ∀ time ∈ call.time?, time < expiry) :
    Holds (leaseStep backend leases call) owner leaseName expiry := by
  obtain ⟨hrelease, hshorten⟩ := hkept
  cases call with
  | tryAcquire caller name ttl time =>
    have hlater : time < expiry := htime time rfl
    unfold Holds
    rw [get?_leaseStep_tryAcquire]
    cases hexpiry : expiresAt ttl time with
    | none => exact h
    -- the call takes this lease only if it is free for the caller, who is then the owner
    | some new =>
      by_cases htaken : name = leaseName ∧ Free leases caller name time
      · obtain ⟨rfl, hfree⟩ := htaken
        have hcaller : caller = owner := h.eq_of_free hfree hlater
        subst hcaller
        have hnew : expiry ≤ new := by
          by_contra hlt
          exact hshorten ⟨ttl, time, new, rfl, hexpiry, not_le.mp hlt⟩
        refine ⟨⟨caller, time.isoformat, new.isoformat⟩, ?_, rfl, new, rfl, hnew⟩
        exact if_pos ⟨rfl, hfree⟩
      · obtain ⟨row, hrow, hrest⟩ := h
        exact ⟨row, (if_neg htaken).trans hrow, hrest⟩
  -- a release by somebody else leaves the row
  | release caller name =>
    have hforeign : ¬ (name = leaseName ∧ ∃ row ∈ leases.get? name, row.owner = caller) := by
      rintro ⟨rfl, row, hrow, hcaller⟩
      obtain ⟨own, hown, howner, -⟩ := h
      have hsame : row = own := Option.some.inj (hrow.symm.trans hown)
      refine hrelease ?_
      rw [LeaseCall.Releases, ← hcaller, hsame, howner]
    obtain ⟨row, hrow, hrest⟩ := h
    refine ⟨row, ?_, hrest⟩
    show (release leases caller name).get? leaseName = some row
    rw [get?_release, if_neg hforeign]
    exact hrow

/-- **Run.** Until the expiry the owner keeps the lease. -/
theorem Holds.run {calls : List LeaseCall} (h : Holds leases owner leaseName expiry)
    (hkept : ∀ call ∈ calls, NotReleasedNorShortened owner leaseName expiry call)
    (htimes : ∀ call ∈ calls, ∀ time ∈ call.time?, time < expiry) :
    Holds (InefficiencyEngine.run (leaseStep backend) leases calls) owner leaseName expiry := by
  induction calls generalizing leases with
  | nil => exact h
  | cons call rest ih =>
    refine ih (h.step (hkept call List.mem_cons_self) (htimes call List.mem_cons_self))
      (fun next hnext => hkept next (List.mem_cons_of_mem _ hnext))
      (fun next hnext => htimes next (List.mem_cons_of_mem _ hnext))

end Held

/-! ### The main result -/

/-- The clock of a call is not after that of a call made after it. -/
theorem NonDecreasing.le_last {calls : List LeaseCall} {owner leaseName : String} {ttlSeconds : ℚ}
    {later : UtcTime} (h : NonDecreasing (calls ++ [.tryAcquire owner leaseName ttlSeconds later]))
    {call : LeaseCall} (hcall : call ∈ calls) {time : UtcTime} (htime : time ∈ call.time?) :
    time ≤ later := by
  rw [NonDecreasing, List.filterMap_append] at h
  exact (List.pairwise_append.mp h).2.2 time (List.mem_filterMap.mpr ⟨call, hcall, htime⟩) later
    (List.mem_singleton.mpr rfl)

/-- **Mutual exclusion**, unless the owner releases the lease or renews it with an earlier
    expiry. -/
theorem excludesWhile_notShortened (backend : Backend) :
    ExcludesWhile backend NotReleasedNorShortened := by
  intro leases before between owner leaseName ttlSeconds now expiry other otherTtl later hclock
    hacquired hexpiry hkept hother hlater hagain
  have hheld : Holds (run (leaseStep backend) leases
      (before ++ .tryAcquire owner leaseName ttlSeconds now :: between)) owner leaseName expiry := by
    rw [run_append]
    show Holds (run (leaseStep backend) (leaseStep backend _ (.tryAcquire ..)) between) _ _ _
    refine Holds.run (hacquired.holds hexpiry) hkept (fun call hcall time htime => ?_)
    have hmem : call ∈ before ++ .tryAcquire owner leaseName ttlSeconds now :: between :=
      List.mem_append_right _ (List.mem_cons_of_mem _ hcall)
    exact lt_of_le_of_lt (hclock.le_last hmem htime) hlater
  exact hother (hheld.eq_of_free (acquires_iff.mp hagain).2 hlater)

/-- A release by anyone but the owner changes nothing. -/
theorem foreignReleaseHarmless : ForeignReleaseHarmless where
  table leases owner leaseName hforeign := by
    unfold release
    cases hget : leases.get? leaseName with
    | none => rfl
    | some row => exact if_neg (hforeign row hget)
  seen leases owner leaseName now hforeign other later hle := by
    have hget : (release leases owner leaseName).get? other = _ := get?_release other
    unfold currentOwner at hforeign ⊢
    by_cases hrow : leaseName = other ∧ ∃ row ∈ leases.get? leaseName, row.owner = owner
    · obtain ⟨rfl, row, hrow', howner⟩ := hrow
      have hrow' : leases.get? leaseName = some row := hrow'
      -- the released row had expired
      have hexpired : row.expiresAt ≤ now.isoformat := by
        by_contra hlive
        refine hforeign ?_
        simp only [hrow', hlive, if_false, howner]
      have hstill : row.expiresAt ≤ later.isoformat :=
        hexpired.trans ((UtcTime.isoformat_le_iff now later).mpr hle)
      rw [if_pos ⟨rfl, row, hrow', howner⟩] at hget
      simp only [hget, hrow', hstill, if_true]
    · rw [if_neg hrow] at hget
      rw [hget]

/-- **The lease is safe.** In every run whose clock does not go back, no other owner acquires the
    lease before the expiry of an owner that has neither released it nor renewed it with an
    earlier expiry; a release by anyone but the owner changes nothing; and the comparison of the
    texts is that of the moments. -/
theorem heavyWorkLease_safe (backend : Backend) :
    ExcludesWhile backend NotReleasedNorShortened ∧ ForeignReleaseHarmless
      ∧ ∀ a b : UtcTime, a.isoformat ≤ b.isoformat ↔ a ≤ b :=
  ⟨excludesWhile_notShortened backend, foreignReleaseHarmless, UtcTime.isoformat_le_iff⟩

/-! ### A shorter renewal -/

/-- A moment some seconds after the beginning of the calendar. -/
def atSecond (seconds : Fin 86400) : UtcTime :=
  ⟨seconds * 1000000, by unfold microsPerDay; omega⟩

/-- An owner that acquires the lease for an hour and renews it for a minute after ten seconds
    loses it to another one after 100 seconds. -/
theorem not_excludesWhile_notReleased : ¬ ExcludesWhile .sqlite NotReleased := by
  intro hexcludes
  have hlost := hexcludes .empty [] [.tryAcquire "research" "render-heavy-work" 60 (atSecond 10)]
    "research" "render-heavy-work" 3600 (atSecond 0) (atSecond 3600) "history" 60 (atSecond 100)
    (by decide +kernel) (by decide +kernel) (by decide +kernel)
    (fun call hcall => by
      rw [List.mem_singleton.mp hcall, NotReleased, LeaseCall.Releases]
      simp) (by decide) (by decide)
  exact hlost (by decide +kernel)

end InefficiencyEngine.Lease
