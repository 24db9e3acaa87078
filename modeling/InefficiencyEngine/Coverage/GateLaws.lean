import InefficiencyEngine.Coverage.StandingEvidence

namespace InefficiencyEngine.Coverage

open Portfolio
open Mechanism (MechanismRuntime CandidateSourceSufficiency)

/-!
# What the source gates promise

`SourceGateLaws` says of one further row that it revokes no eligibility, and of the gates that
they are ordered, that they agree and that a source is admitted by any row that could admit it.
`KeepsEvidence` is what has to hold of the row for that: no group of the lane is left without a
row that could admit it, and no required class is lost where the row takes over.
-/

/-! ### The promise -/

/-- An entry of `LANES`. -/
abbrev Lane := {definition : LaneDefinition // definition ∈ lanes}

section Laws

variable (T : SourceText) (plane : SourceCoveragePlane) (lane : Lane) (now : Instant)
  (rows : SourceRows) (row : SourceRow)

/-- What the gates promise of the rows on record and one further row. -/
structure SourceGateLaws : Prop where
  admission : ∀ spec ∈ laneSources lane.1.laneId,
    (sourceStatus plane spec lane.1.laneId now rows.read).admitted = true
      ↔ plane.available spec = true
        ∧ ∃ candidate ∈ candidates spec lane.1.laneId rows.read,
            candidate.admits plane spec now = true
  laneKeeps : (laneCoverage plane now rows.read lane.1).eligibility.Keeps
    (laneCoverage plane now (rows.add row).read lane.1).eligibility
  candidateKeeps : ∀ primary, ∃ before after,
    candidateSufficiency T.toMechanismRuntime plane now rows.read lane.1.laneId none primary
      = some before
    ∧ candidateSufficiency T.toMechanismRuntime plane now (rows.add row).read lane.1.laneId none
        primary = some after
    ∧ (eligibilityOf before).Keeps (eligibilityOf after)
  laneOrdered : (laneCoverage plane now rows.read lane.1).eligibility.Ordered
  candidateOrdered : ∀ required? primary gate,
    candidateSufficiency T.toMechanismRuntime plane now rows.read lane.1.laneId required? primary
      = some gate → (eligibilityOf gate).Ordered
  agreement : ∀ required primary, ∃ coverage gate,
    (snapshot plane now rows.read T.toMechanismRuntime).lanes.find?
        (fun other => other.laneId = lane.1.laneId) = some coverage
    ∧ candidateSufficiency T.toMechanismRuntime plane now rows.read lane.1.laneId (some required)
        primary = some gate
    ∧ SameGate (alphaGateFromLane T.toMechanismRuntime coverage required primary) gate
    ∧ SameGate (Mechanism.gateFromLane T.toMechanismRuntime
        (governedLane plane now rows.read lane.1) required primary) gate

/-- What the row has to leave in place. -/
structure KeepsEvidence : Prop where
  /-- a group that had a row that could admit it still has one -/
  groups : ∀ spec ∈ laneSources lane.1.laneId, plane.available spec = true →
    (∃ candidate ∈ candidates spec lane.1.laneId rows.read,
      candidate.admits plane spec now = true) →
    ∃ other ∈ laneSources lane.1.laneId, plane.available other = true
      ∧ other.group = spec.group
      ∧ ∃ candidate, (candidate ∈ candidates other lane.1.laneId (rows.kept row)
            ∨ row.candidate? other lane.1.laneId = some candidate)
          ∧ candidate.admits plane other now = true
  /-- if nothing was missing, each required class is listed by the row for a source it takes
      over, or by the candidate that stands for a source it does not take over -/
  classes :
    (∀ name ∈ lane.1.required, ∃ spec candidate,
      StandingIn plane lane.1.laneId now rows.read spec candidate
        ∧ name ∈ candidate.evidenceClasses spec) →
    ∀ name ∈ lane.1.required, ∃ spec ∈ laneSources lane.1.laneId, ∃ candidate,
      name ∈ candidate.evidenceClasses spec
        ∧ (plane.available spec = true
            ∧ TakesOverSource plane spec lane.1.laneId now rows row candidate
          ∨ Standing plane spec lane.1.laneId now (rows.kept row) candidate
            ∧ ∀ other, ¬ TakesOverSource plane spec lane.1.laneId now rows row other)

variable {plane lane now rows row}

/-- With room in the window only classes can be lost, where the row takes over. -/
theorem KeepsEvidence.of_room (hroom : rows.HasRoom row)
    (h : ∀ spec candidate other,
      StandingIn plane lane.1.laneId now rows.read spec candidate →
      TakesOverSource plane spec lane.1.laneId now rows row other →
      ∀ name ∈ candidate.evidenceClasses spec, name ∈ lane.1.required →
        name ∈ other.evidenceClasses spec) :
    KeepsEvidence plane lane now rows row := by
  refine ⟨fun spec hspec havailable ⟨candidate, hmem, hadmits⟩ => ?_, fun hcovers name hname => ?_⟩
  · refine ⟨spec, hspec, havailable, rfl, candidate, Or.inl ?_, hadmits⟩
    rw [hroom.kept_eq_read]
    exact hmem
  · obtain ⟨spec, candidate, hstanding, hlists⟩ := hcovers name hname
    by_cases hover : ∃ other, TakesOverSource plane spec lane.1.laneId now rows row other
    · obtain ⟨other, hother⟩ := hover
      exact ⟨spec, hstanding.mem_lane, other, h spec candidate other hstanding hother name hlists hname,
        Or.inl ⟨hstanding.standing.available, hother⟩⟩
    · refine ⟨spec, hstanding.mem_lane, candidate, hlists, Or.inr ⟨?_, not_exists.mp hover⟩⟩
      rw [hroom.kept_eq_read]
      exact hstanding.standing

end Laws

/-! ### More evidence -/

section Evidence

variable {R : MechanismRuntime} {evidence more : Evidence} {primaryBlocker : String}
  {coverage coverage' : LaneSourceCoverage} {required primary : List String}

/-- Evidence that keeps the groups still meets any primary group. -/
theorem Evidence.MeetsPrimary.mono (h : evidence.MeetsPrimary R primary)
    (hgroups : ∀ e ∈ evidence, ∃ e' ∈ more, e'.1 = e.1) : more.MeetsPrimary R primary := by
  rcases h with hblank | ⟨e, he, item, hitem, hstrip, heq⟩
  · exact Or.inl hblank
  · obtain ⟨e', he', hgroup⟩ := hgroups e he
    exact Or.inr ⟨e', he', item, hitem, hstrip, hgroup ▸ heq⟩

theorem Evidence.Diverse.mono (h : evidence.Diverse)
    (hgroups : ∀ e ∈ evidence, ∃ e' ∈ more, e'.1 = e.1) : more.Diverse := by
  obtain ⟨a, ha, b, hb, hab⟩ := h
  obtain ⟨a', ha', hgroup⟩ := hgroups a ha
  obtain ⟨b', hb', hgroup'⟩ := hgroups b hb
  refine ⟨a', ha', b', hb', ?_⟩
  rw [hgroup, hgroup']
  exact hab

/-- Evidence that keeps the groups and the required classes keeps the gate. -/
theorem keeps_sufficiency (hlane : coverage.Attributed) (hlane' : coverage'.Attributed)
    (hgroups : ∀ e ∈ coverage.evidence, ∃ e' ∈ coverage'.evidence, e'.1 = e.1)
    (hclasses : coverage.evidence.Covers required → coverage'.evidence.Covers required) :
    (eligibilityOf (sufficiency R primaryBlocker coverage required primary)).Keeps
      (eligibilityOf (sufficiency R primaryBlocker coverage' required primary)) := by
  have hresearch : coverage.evidence.Nonempty ∧ coverage.evidence.MeetsPrimary R primary →
      coverage'.evidence.Nonempty ∧ coverage'.evidence.MeetsPrimary R primary := by
    rintro ⟨⟨e, he⟩, hprimary⟩
    obtain ⟨e', he', -⟩ := hgroups e he
    exact ⟨⟨e', he'⟩, hprimary.mono hgroups⟩
  refine ⟨fun h => ?_, fun h => ?_, fun h => ?_⟩
  · exact sufficiency_research.mpr (hresearch (sufficiency_research.mp h))
  · obtain ⟨hbefore, hcovers⟩ := sufficiency_forwardTest.mp h
    exact sufficiency_forwardTest.mpr ⟨hresearch hbefore, hclasses hcovers⟩
  · obtain ⟨⟨hbefore, hcovers⟩, hdiverse⟩ := (sufficiency_allocation hlane).mp h
    exact (sufficiency_allocation hlane').mpr
      ⟨⟨hresearch hbefore, hclasses hcovers⟩, hdiverse.mono hgroups⟩

end Evidence

section Iff

variable {T : SourceText} {plane : SourceCoveragePlane} {lane : Lane} {now : Instant}
  {rows : SourceRows} {row : SourceRow}

/-- Evidence that keeps the groups and the required classes keeps the lane. -/
theorem keeps_laneCoverage {read more : ReadRows} {definition : LaneDefinition}
    (hgroups : ∀ e ∈ (laneCoverage plane now read definition).evidence,
      ∃ e' ∈ (laneCoverage plane now more definition).evidence, e'.1 = e.1)
    (hclasses : (laneCoverage plane now read definition).evidence.Covers definition.required →
      (laneCoverage plane now more definition).evidence.Covers definition.required) :
    (laneCoverage plane now read definition).eligibility.Keeps
      (laneCoverage plane now more definition).eligibility := by
  have hresearch : (laneCoverage plane now read definition).evidence.Nonempty →
      (laneCoverage plane now more definition).evidence.Nonempty := by
    rintro ⟨e, he⟩
    obtain ⟨e', he', -⟩ := hgroups e he
    exact ⟨e', he'⟩
  refine ⟨fun h => ?_, fun h => ?_, fun h => ?_⟩
  · exact laneCoverage_research.mpr (hresearch (laneCoverage_research.mp h))
  · obtain ⟨hbefore, hcovers⟩ := laneCoverage_forwardTest.mp h
    exact laneCoverage_forwardTest.mpr ⟨hresearch hbefore, hclasses hcovers⟩
  · obtain ⟨⟨hbefore, hcovers⟩, hdiverse⟩ := laneCoverage_allocation.mp h
    exact laneCoverage_allocation.mpr
      ⟨⟨hresearch hbefore, hclasses hcovers⟩, hdiverse.mono hgroups⟩

theorem ordered_sufficiency {R : MechanismRuntime} {primaryBlocker : String}
    {coverage : LaneSourceCoverage} {required primary : List String} :
    (eligibilityOf (sufficiency R primaryBlocker coverage required primary)).Ordered := by
  refine ⟨fun h => ?_, fun h => ?_⟩
  · exact (Bool.and_eq_true _ _ ▸ h : _ ∧ _).1
  · exact (Bool.and_eq_true _ _ ▸ h : _ ∧ _).1

theorem ordered_laneCoverage {read : ReadRows} {definition : LaneDefinition} :
    (laneCoverage plane now read definition).eligibility.Ordered := by
  refine ⟨fun h => ?_, fun h => ?_⟩
  · exact laneCoverage_forwardTest.mpr (laneCoverage_allocation.mp h).1
  · exact laneCoverage_research.mpr (laneCoverage_forwardTest.mp h).1

/-- The groups of a lane are plain text, so a primary group is met by its own group alone. -/
theorem meetsPrimary_group {read : ReadRows} {definition : LaneDefinition} {spec : SourceSpec}
    (hspec : spec ∈ sources) :
    (laneCoverage plane now read definition).evidence.MeetsPrimary T.toMechanismRuntime
        [spec.group]
      ↔ ∃ e ∈ (laneCoverage plane now read definition).evidence, e.1 = spec.group := by
  have hgroup := group_of_mem_sources spec hspec
  have hstrip : T.strip spec.group = spec.group := T.strip_plain _ hgroup.2
  have hplain : ∀ e ∈ (laneCoverage plane now read definition).evidence, Plain e.1 := by
    intro e he
    obtain ⟨other, candidate, hstanding, rfl⟩ := mem_evidence_laneCoverage.mp he
    exact (group_of_mem_sources other (List.mem_filter.mp hstanding.mem_lane).1).2
  constructor
  · rintro (hblank | ⟨e, he, item, hitem, -, heq⟩)
    · exact absurd ((hstrip.symm.trans (hblank _ (by simp)))) hgroup.1
    · obtain rfl := List.mem_singleton.mp hitem
      rw [hstrip, T.lower_plain _ hgroup.2, T.strip_plain _ (hplain e he),
        T.lower_plain _ (hplain e he)] at heq
      exact ⟨e, he, heq.symm⟩
  · rintro ⟨e, he, heq⟩
    refine Or.inr ⟨e, he, spec.group, by simp, ?_, by rw [heq]⟩
    rw [hstrip]
    exact hgroup.1

/-- **The source gates.** They keep what they promise of a further row exactly when it leaves
    the evidence in place. The gates are functions of the coverage of the lane alone, so it is
    enough to compare the evidence groups and the classes before and after the row. -/
theorem sourceGateLaws_iff (T : SourceText) (plane : SourceCoveragePlane) (lane : Lane)
    (now : Instant) (rows : SourceRows) (row : SourceRow) :
    SourceGateLaws T plane lane now rows row ↔ KeepsEvidence plane lane now rows row := by
  constructor
  · intro h
    refine ⟨fun spec hspec havailable hcandidate => ?_, fun hcovers name hname => ?_⟩
    · -- a candidate anchored at the group may be researched before, and so after
      obtain ⟨candidate, hmem, hadmits⟩ := hcandidate
      obtain ⟨chosen, hstanding⟩ := exists_standing havailable hmem hadmits
      have hsource := (List.mem_filter.mp hspec).1
      have he : (spec.group, chosen.evidenceClasses spec)
          ∈ (laneCoverage plane now rows.read lane.1).evidence :=
        mem_evidence_laneCoverage.mpr ⟨spec, chosen, ⟨hspec, hstanding⟩, rfl⟩
      obtain ⟨before, after, hbefore, hafter, hkeeps⟩ := h.candidateKeeps [spec.group]
      rw [candidateSufficiency_eq _ lane.2] at hbefore hafter
      obtain rfl := Option.some.inj hbefore
      obtain rfl := Option.some.inj hafter
      have hresearch := sufficiency_research.mp (hkeeps.research (sufficiency_research.mpr
        ⟨⟨_, he⟩, (meetsPrimary_group hsource).mpr ⟨_, he, rfl⟩⟩))
      obtain ⟨e, he', hgroup⟩ := (meetsPrimary_group hsource).mp hresearch.2
      obtain ⟨other, candidate', hother, rfl⟩ := mem_evidence_laneCoverage.mp he'
      obtain ⟨hmem', hadmits'⟩ := hother.standing.admits
      exact ⟨other, hother.mem_lane, hother.standing.available, hgroup, candidate',
        (mem_candidates_add rows row).mp hmem', hadmits'⟩
    · -- the lane may be tried forward before, and so after
      have hcovers' : (laneCoverage plane now rows.read lane.1).evidence.Covers
          lane.1.required := by
        intro name hname
        obtain ⟨spec, candidate, hstanding, hlists⟩ := hcovers name hname
        exact ⟨_, mem_evidence_laneCoverage.mpr ⟨spec, candidate, hstanding, rfl⟩, hlists⟩
      obtain ⟨e, he, -⟩ := hcovers' name hname
      have hforward := laneCoverage_forwardTest.mp
        (h.laneKeeps.forwardTest (laneCoverage_forwardTest.mpr ⟨⟨e, he⟩, hcovers'⟩))
      obtain ⟨e', he', hlists⟩ := hforward.2 name hname
      obtain ⟨spec, candidate, hstanding, rfl⟩ := mem_evidence_laneCoverage.mp he'
      exact ⟨spec, hstanding.mem_lane, candidate, hlists, standing_add.mp hstanding.standing⟩
  -- the groups and the classes that stand carry every gate
  · intro h
    have hgroups : ∀ e ∈ (laneCoverage plane now rows.read lane.1).evidence,
        ∃ e' ∈ (laneCoverage plane now (rows.add row).read lane.1).evidence, e'.1 = e.1 := by
      intro e he
      obtain ⟨spec, candidate, hstanding, rfl⟩ := mem_evidence_laneCoverage.mp he
      obtain ⟨hmem, hadmits⟩ := hstanding.standing.admits
      obtain ⟨other, hother, havailable, hgroup, candidate', hmem', hadmits'⟩ :=
        h.groups spec hstanding.mem_lane hstanding.standing.available ⟨candidate, hmem, hadmits⟩
      obtain ⟨chosen, hchosen⟩ :=
        exists_standing havailable ((mem_candidates_add rows row).mpr hmem') hadmits'
      exact ⟨(other.group, chosen.evidenceClasses other),
        mem_evidence_laneCoverage.mpr ⟨other, chosen, ⟨hother, hchosen⟩, rfl⟩, hgroup⟩
    have hclasses : (laneCoverage plane now rows.read lane.1).evidence.Covers lane.1.required →
        (laneCoverage plane now (rows.add row).read lane.1).evidence.Covers lane.1.required := by
      intro hcovers name hname
      have hbefore : ∀ name ∈ lane.1.required, ∃ spec candidate,
          StandingIn plane lane.1.laneId now rows.read spec candidate
            ∧ name ∈ candidate.evidenceClasses spec := by
        intro name hname
        obtain ⟨e, he, hlists⟩ := hcovers name hname
        obtain ⟨spec, candidate, hstanding, rfl⟩ := mem_evidence_laneCoverage.mp he
        exact ⟨spec, candidate, hstanding, hlists⟩
      obtain ⟨spec, hspec, candidate, hlists, hstep⟩ := h.classes hbefore name hname
      exact ⟨_, mem_evidence_laneCoverage.mpr
        ⟨spec, candidate, ⟨hspec, standing_add.mpr hstep⟩, rfl⟩, hlists⟩
    refine ⟨fun spec _ => ?_, keeps_laneCoverage hgroups hclasses, fun primary => ?_,
      ordered_laneCoverage, fun required? primary gate hgate => ?_, fun required primary => ?_⟩
    · exact sourceStatus_admitted_iff.trans exists_standing_iff
    · exact ⟨_, _, candidateSufficiency_eq _ lane.2 none primary,
        candidateSufficiency_eq _ lane.2 none primary,
        keeps_sufficiency attributed_laneCoverage attributed_laneCoverage hgroups hclasses⟩
    · rw [candidateSufficiency_eq _ lane.2] at hgate
      obtain rfl := Option.some.inj hgate
      exact ordered_sufficiency
    · refine ⟨_, _, find?_snapshot _ lane.2, candidateSufficiency_eq _ lane.2 _ primary,
        sameGate_sufficiency _ _ _ _ _ _, ?_⟩
      rw [gateFromLane_governedLane]
      exact sameGate_sufficiency _ _ _ _ _ _

end Iff

/-! ### A row with fewer classes -/

/-- A runtime in which texts are left as they are. -/
def SourceText.sample : SourceText where
  toMechanismRuntime := MechanismRuntime.sample
  lower_plain _ _ := rfl
  strip_plain _ _ := rfl

/-- A plane with the default age of a day, on which everything is switched on. -/
def SourceCoveragePlane.sample : SourceCoveragePlane where
  maxAgeHours := 24
  classSpecificFreshness := true
  envFlag _ := true
  credentialSet _ := true

/-- An observation of the Morpho markets for the yield lane. -/
def morphoObservation (observedAt : Instant) (evidenceClasses : List String) :
    SourceCoverageObservation where
  sourceId := "morpho-markets"
  laneId := "yield"
  observedAt := observedAt
  healthy := true
  evidenceClasses := evidenceClasses

/-- The Morpho markets list all that the yield lane requires. -/
def morphoRows : SourceRows where
  direct := [morphoObservation 0 ["yield_rate", "capacity", "exit_liquidity"]]
  admissions := []
  providers := []
  newestTableRow _ := none

/-- The yield lane. -/
def yieldLane : Lane :=
  ⟨{ laneId := "yield", required := ["yield_rate", "capacity", "exit_liquidity"] }, by
    decide +kernel⟩

/-- A minute later the Morpho markets list rates only, and the yield lane may no longer be tried
    forward although the full observation is still fresh. -/
theorem not_sourceGateLaws_ratesOnly : ¬ SourceGateLaws SourceText.sample
    SourceCoveragePlane.sample yieldLane 60000000 morphoRows
    (.direct (morphoObservation 60000000 ["yield_rate"])) := by
  intro h
  have hbefore : (laneCoverage SourceCoveragePlane.sample 60000000 morphoRows.read
      yieldLane.1).forwardTestEligible = true := by decide +kernel
  have hafter : (laneCoverage SourceCoveragePlane.sample 60000000
      (morphoRows.add (.direct (morphoObservation 60000000 ["yield_rate"]))).read
      yieldLane.1).forwardTestEligible = false := by decide +kernel
  exact Bool.false_ne_true (hafter.symm.trans (h.laneKeeps.forwardTest hbefore))

end InefficiencyEngine.Coverage
