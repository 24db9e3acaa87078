import InefficiencyEngine.Portfolio.Identifiers

namespace InefficiencyEngine.Portfolio

open Prog

/-!
# Valuation evidence in the log

The log records when a position was valued: its opening carries the time of the entry
evidence and every mark the time of its quotes.  `_latest_position_evidence_times` reads
the last of them; since a mark is only recorded when it is newer than that, the last one is
the newest (`EvidenceLog`).
-/

/-! ### Recorded evidence -/

/-- The time of the valuation evidence an event records. -/
def CanonicalPortfolioEvent.evidence? (e : CanonicalPortfolioEvent) : Option Instant :=
  match e.eventType, e.details with
  | .open, .opened _ _ _ _ valuationEvidenceObservedAt _ _ => some valuationEvidenceObservedAt
  | .open, _ => some e.observedAt
  | .mark, _ => some e.observedAt
  | _, _ => none

/-- The times of the evidence a log records for a position. -/
def recordedEvidence (events : List CanonicalPortfolioEvent) (p : Uuid) : List Instant :=
  events.filterMap (fun e => if e.positionId = some p then e.evidence? else none)

theorem recordedEvidence_append (events : List CanonicalPortfolioEvent)
    (e : CanonicalPortfolioEvent) (p : Uuid) :
    recordedEvidence (events ++ [e]) p
      = recordedEvidence events p ++ (if e.positionId = some p then e.evidence? else none).toList := by
  rw [recordedEvidence, List.filterMap_append]
  rfl

/-- What one event does to the latest evidence times. -/
theorem latest_append (events : List CanonicalPortfolioEvent) (e : CanonicalPortfolioEvent) :
    latestPositionEvidenceTimes (events ++ [e]) = (match e.positionId, e.evidence? with
      | some p, some observedAt => (latestPositionEvidenceTimes events).set p observedAt
      | some p, none => if e.eventType = .close then (latestPositionEvidenceTimes events).erase p
          else latestPositionEvidenceTimes events
      | none, _ => latestPositionEvidenceTimes events) := by
  rw [latestPositionEvidenceTimes, List.foldl_append, List.foldl_cons, List.foldl_nil,
    ← latestPositionEvidenceTimes, CanonicalPortfolioEvent.evidence?]
  cases e.eventType <;> cases e.positionId <;> cases e.details <;> rfl

/-- The last evidence time of a position is the newest recorded for it, every open position
    has one, and nothing is recorded before a position is opened. -/
structure EvidenceLog (events : List CanonicalPortfolioEvent) : Prop where
  newest : ∀ p latest, (latestPositionEvidenceTimes events).get? p = some latest →
    ∀ x ∈ recordedEvidence events p, x ≤ latest
  known : ∀ p f, (replay events).IsOpen p f →
    ∃ latest, (latestPositionEvidenceTimes events).get? p = some latest
  unopened : ∀ p, (replay events).opened.get? p = none → recordedEvidence events p = []

/-- What an event may be for the log to keep that. -/
inductive EvidenceStep (events : List CanonicalPortfolioEvent) (e : CanonicalPortfolioEvent) : Prop
  | opening (p : Uuid) (hid : e.positionId = some p) (htype : e.eventType = .open)
      (hfresh : (replay events).opened.get? p = none)
  | marking (p : Uuid) (f : CanonicalPortfolioEvent) (hid : e.positionId = some p)
      (htype : e.eventType = .mark) (hopen : (replay events).IsOpen p f)
      (hnewer : ∀ latest, (latestPositionEvidenceTimes events).get? p = some latest →
        latest ≤ e.observedAt)
  | closing (p : Uuid) (hid : e.positionId = some p) (htype : e.eventType = .close)
  | other (htype : e.eventType = .genesis ∨ e.eventType = .skip)

section Append

variable {events : List CanonicalPortfolioEvent} {e : CanonicalPortfolioEvent} {p : Uuid}
  {observedAt : Instant}

variable (events) in
/-- An event that records evidence makes it the latest of its position. -/
theorem latest_append_evidence (hid : e.positionId = some p) (he : e.evidence? = some observedAt) :
    latestPositionEvidenceTimes (events ++ [e])
      = (latestPositionEvidenceTimes events).set p observedAt := by
  rw [latest_append, hid, he]

variable (events) in
/-- A close forgets the evidence of its position. -/
theorem latest_append_close (hid : e.positionId = some p) (htype : e.eventType = .close) :
    latestPositionEvidenceTimes (events ++ [e])
      = (latestPositionEvidenceTimes events).erase p := by
  have he : e.evidence? = none := by
    rw [CanonicalPortfolioEvent.evidence?, htype]
  rw [latest_append, hid, he]
  exact if_pos htype

variable (events) in
/-- Other events record no evidence. -/
theorem latest_append_other (htype : e.eventType = .genesis ∨ e.eventType = .skip) :
    latestPositionEvidenceTimes (events ++ [e]) = latestPositionEvidenceTimes events
      ∧ e.evidence? = none := by
  have he : e.evidence? = none := by
    rcases htype with htype | htype <;> rw [CanonicalPortfolioEvent.evidence?, htype]
  refine ⟨?_, he⟩
  rw [latest_append, he]
  cases e.positionId with
  | none => rfl
  | some p => rcases htype with htype | htype <;> rw [htype] <;> rfl

theorem evidence?_mark (htype : e.eventType = .mark) : e.evidence? = some e.observedAt := by
  rw [CanonicalPortfolioEvent.evidence?, htype]

theorem evidence?_open (htype : e.eventType = .open) : ∃ observedAt, e.evidence? = some observedAt := by
  rw [CanonicalPortfolioEvent.evidence?, htype]
  cases e.details <;> exact ⟨_, rfl⟩

/-- An event that closes nothing opens or closes nothing else either. -/
theorem isOpen_of_append {q : Uuid} {f : CanonicalPortfolioEvent}
    (h : (replay (events ++ [e])).IsOpen q f) :
    (replay events).IsOpen q f ∨ e.eventType = .open ∧ e.positionId = some q := by
  obtain ⟨hopened, hclosed⟩ := h
  rw [replay_append, ((replay events).step_opened_closed e).1] at hopened
  rw [replay_append, ((replay events).step_opened_closed e).2] at hclosed
  have hclosed' : (replay events).closed.get? q = none := by
    split at hclosed
    · rename_i p _ _
      by_cases hp : p = q
      · rw [hp, Dict.get?_set_self] at hclosed
        cases hclosed
      · rwa [Dict.get?_set_of_ne _ _ hp] at hclosed
    · exact hclosed
  split at hopened
  · rename_i p htype hid
    by_cases hp : p = q
    · exact Or.inr ⟨htype, by rw [hid, hp]⟩
    · rw [Dict.get?_set_of_ne _ _ hp] at hopened
      exact Or.inl ⟨hopened, hclosed'⟩
  · exact Or.inl ⟨hopened, hclosed'⟩

/-- A closed position is not open. -/
theorem not_isOpen_append_close (hid : e.positionId = some p) (htype : e.eventType = .close)
    (f : CanonicalPortfolioEvent) : ¬ (replay (events ++ [e])).IsOpen p f := by
  rintro ⟨-, hclosed⟩
  rw [replay_append, ((replay events).step_opened_closed e).2, htype, hid] at hclosed
  replace hclosed : ((replay events).closed.set p e).get? p = none := hclosed
  rw [Dict.get?_set_self] at hclosed
  cases hclosed

/-- A position not opened after an event was not opened before it. -/
theorem opened_none_of_append {q : Uuid}
    (h : (replay (events ++ [e])).opened.get? q = none) :
    (replay events).opened.get? q = none
      ∧ ¬ (e.eventType = .open ∧ e.positionId = some q) := by
  rw [replay_append, ((replay events).step_opened_closed e).1] at h
  split at h
  · rename_i p htype hid
    by_cases hp : p = q
    · rw [hp, Dict.get?_set_self] at h
      cases h
    · rw [Dict.get?_set_of_ne _ _ hp] at h
      refine ⟨h, fun hopen => hp ?_⟩
      exact Option.some.inj (hid.symm.trans hopen.2)
  · rename_i hnot
    exact ⟨h, fun hopen => hnot q hopen.1 hopen.2⟩

/-- Evidence no older than what was recorded becomes the newest of its position. -/
theorem EvidenceLog.newest_append_evidence (h : EvidenceLog events) (hid : e.positionId = some p)
    (hevidence : e.evidence? = some observedAt)
    (hle : ∀ x ∈ recordedEvidence events p, x ≤ observedAt) (q : Uuid) (latest : Instant)
    (hq : (latestPositionEvidenceTimes (events ++ [e])).get? q = some latest) :
    ∀ x ∈ recordedEvidence (events ++ [e]) q, x ≤ latest := by
  intro x hx
  rw [latest_append_evidence events hid hevidence] at hq
  rw [recordedEvidence_append, hid, hevidence] at hx
  by_cases hpq : p = q
  · subst hpq
    rw [Dict.get?_set_self, Option.some.injEq] at hq
    subst hq
    rw [if_pos rfl, List.mem_append] at hx
    rcases hx with hx | hx
    · exact hle x hx
    · exact (List.mem_singleton.mp hx).le
  · rw [Dict.get?_set_of_ne _ _ hpq] at hq
    rw [if_neg (fun heq => hpq (Option.some.inj heq))] at hx
    exact h.newest q latest hq x (by simpa using hx)

/-- Every open position has evidence if none of those still open lost it and the one that an event
    opens got some. -/
theorem EvidenceLog.known_append (h : EvidenceLog events)
    (hkeep : ∀ q latest, (latestPositionEvidenceTimes events).get? q = some latest →
      (∃ f, (replay (events ++ [e])).IsOpen q f) →
      ∃ latest, (latestPositionEvidenceTimes (events ++ [e])).get? q = some latest)
    (hnew : ∀ q, e.eventType = .open → e.positionId = some q →
      ∃ latest, (latestPositionEvidenceTimes (events ++ [e])).get? q = some latest)
    (q : Uuid) (f : CanonicalPortfolioEvent) (hopen : (replay (events ++ [e])).IsOpen q f) :
    ∃ latest, (latestPositionEvidenceTimes (events ++ [e])).get? q = some latest := by
  rcases isOpen_of_append hopen with hold | ⟨htype, hid⟩
  · obtain ⟨latest, hlatest⟩ := h.known q f hold
    exact hkeep q latest hlatest ⟨f, hopen⟩
  · exact hnew q htype hid

/-- Recording evidence takes none away. -/
theorem exists_latest_append_evidence (hid : e.positionId = some p)
    (hevidence : e.evidence? = some observedAt) {q : Uuid} {latest : Instant}
    (hq : (latestPositionEvidenceTimes events).get? q = some latest) :
    ∃ latest, (latestPositionEvidenceTimes (events ++ [e])).get? q = some latest := by
  rw [latest_append_evidence events hid hevidence, Dict.get?_set]
  split
  · exact ⟨_, rfl⟩
  · exact ⟨latest, hq⟩

/-- An event without evidence records none. -/
theorem recordedEvidence_append_none (he : e.evidence? = none) (q : Uuid) :
    recordedEvidence (events ++ [e]) q = recordedEvidence events q := by
  rw [recordedEvidence_append, he]
  simp

/-- An opening brings the first evidence of its position. -/
theorem EvidenceLog.append_opening (h : EvidenceLog events) (hid : e.positionId = some p)
    (htype : e.eventType = .open) (hfresh : (replay events).opened.get? p = none) :
    EvidenceLog (events ++ [e]) := by
  obtain ⟨observedAt, hevidence⟩ := evidence?_open htype
  refine ⟨h.newest_append_evidence hid hevidence ?_, h.known_append ?_ ?_, ?_⟩
  · intro x hx
    rw [h.unopened p hfresh] at hx
    cases hx
  · exact fun q latest hq _ => exists_latest_append_evidence hid hevidence hq
  · intro q _ hq
    obtain rfl := Option.some.inj (hid.symm.trans hq)
    rw [latest_append_evidence events hid hevidence]
    exact ⟨_, Dict.get?_set_self _ _ _⟩
  · intro q hq
    obtain ⟨hq, hne⟩ := opened_none_of_append hq
    rw [recordedEvidence_append, h.unopened q hq, if_neg (fun heq => hne ⟨htype, heq⟩)]
    rfl

/-- A mark of an open position brings newer evidence. -/
theorem EvidenceLog.append_marking (h : EvidenceLog events) {f : CanonicalPortfolioEvent}
    (hid : e.positionId = some p) (htype : e.eventType = .mark)
    (hopen : (replay events).IsOpen p f)
    (hnewer : ∀ latest, (latestPositionEvidenceTimes events).get? p = some latest →
      latest ≤ e.observedAt) :
    EvidenceLog (events ++ [e]) := by
  have hevidence := evidence?_mark htype
  refine ⟨h.newest_append_evidence hid hevidence ?_, h.known_append ?_ ?_, ?_⟩
  · intro x hx
    obtain ⟨latest, hp⟩ := h.known p f hopen
    exact (h.newest p latest hp x hx).trans (hnewer latest hp)
  · exact fun q latest hq _ => exists_latest_append_evidence hid hevidence hq
  · intro q hq
    rw [htype] at hq
    cases hq
  · intro q hq
    obtain ⟨hq, -⟩ := opened_none_of_append hq
    -- the position marked was opened, so it is another one
    have hne : ¬ e.positionId = some q := by
      intro heq
      obtain rfl := Option.some.inj (hid.symm.trans heq)
      rw [hopen.1] at hq
      cases hq
    rw [recordedEvidence_append, h.unopened q hq, if_neg hne]
    rfl

/-- A close takes the evidence of a position that is open no more. -/
theorem EvidenceLog.append_closing (h : EvidenceLog events) (hid : e.positionId = some p)
    (htype : e.eventType = .close) : EvidenceLog (events ++ [e]) := by
  have hlatest := latest_append_close events hid htype
  have hrecorded := @recordedEvidence_append_none events e
    (by rw [CanonicalPortfolioEvent.evidence?, htype])
  refine ⟨?_, h.known_append ?_ ?_, ?_⟩
  · intro q latest hq x hx
    rw [hrecorded] at hx
    rw [hlatest, Dict.get?_erase] at hq
    split at hq
    · cases hq
    · exact h.newest q latest hq x hx
  · rintro q latest hq ⟨f, hopen⟩
    rw [hlatest, Dict.get?_erase]
    split
    · rename_i hpq
      exact absurd hopen (hpq ▸ not_isOpen_append_close hid htype f)
    · exact ⟨latest, hq⟩
  · intro q hq
    rw [htype] at hq
    cases hq
  · intro q hq
    rw [hrecorded]
    exact h.unopened q (opened_none_of_append hq).1

/-- Other events change no evidence and no position. -/
theorem EvidenceLog.append_other (h : EvidenceLog events)
    (htype : e.eventType = .genesis ∨ e.eventType = .skip) : EvidenceLog (events ++ [e]) := by
  obtain ⟨hlatest, hnone⟩ := latest_append_other events htype
  have hrecorded := @recordedEvidence_append_none events e hnone
  refine ⟨?_, h.known_append ?_ ?_, ?_⟩
  · intro q latest hq x hx
    rw [hrecorded] at hx
    rw [hlatest] at hq
    exact h.newest q latest hq x hx
  · intro q latest hq _
    rw [hlatest]
    exact ⟨latest, hq⟩
  · intro q hq
    rcases htype with htype | htype <;> rw [htype] at hq <;> cases hq
  · intro q hq
    rw [hrecorded]
    exact h.unopened q (opened_none_of_append hq).1

/-- **Append.** Each event that the service records keeps the evidence of the log in order. -/
theorem EvidenceLog.append (h : EvidenceLog events) (he : EvidenceStep events e) :
    EvidenceLog (events ++ [e]) := by
  cases he with
  | opening p hid htype hfresh => exact h.append_opening hid htype hfresh
  | marking p f hid htype hopen hnewer => exact h.append_marking hid htype hopen hnewer
  | closing p hid htype => exact h.append_closing hid htype
  | other htype => exact h.append_other htype

end Append

end InefficiencyEngine.Portfolio
