import InefficiencyEngine.Portfolio.Deployment

namespace InefficiencyEngine.Portfolio

open Prog

/-!
# Identifiers of recorded events

Every event of the log has an identifier that some cycle drew for it.  An event whose call
site the cycle has not used yet is therefore new to the log, and recording it appends it
(`IdsDrawn.record`).
-/

/-! ### Identifiers of the log -/

/-- Every event of the log has an id drawn by one of the first `n` cycles, or by cycle `n`
    at a call site with `P`. -/
def IdsDrawn (R : Runtime) (n : ℕ) (P : Draw → Prop) (s : PortfolioStore) : Prop :=
  ∀ e ∈ s.events, (∃ run < n, ∃ draw, e.eventId = R.uuid4 run draw)
    ∨ ∃ draw, P draw ∧ e.eventId = R.uuid4 n draw

section Ids

variable {R : Runtime} {n : ℕ} {P P' : Draw → Prop} {s : PortfolioStore}

theorem IdsDrawn.mono (h : IdsDrawn R n P s) (hP : ∀ draw, P draw → P' draw) :
    IdsDrawn R n P' s := fun e he =>
  (h e he).imp id (fun ⟨draw, hdraw, hid⟩ => ⟨draw, hP draw hdraw, hid⟩)

/-- The next cycle has drawn nothing yet. -/
theorem IdsDrawn.next (h : IdsDrawn R n P s) : IdsDrawn R (n + 1) (fun _ => False) s := by
  intro e he
  rcases h e he with ⟨run, hrun, draw, hid⟩ | ⟨draw, -, hid⟩
  · exact Or.inl ⟨run, Nat.lt_succ_of_lt hrun, draw, hid⟩
  · exact Or.inl ⟨n, Nat.lt_succ_self n, draw, hid⟩

/-- **Fresh event.** An event with an id not drawn yet is appended to the log. -/
theorem IdsDrawn.record (h : IdsDrawn R n P s) {e : CanonicalPortfolioEvent} {draw : Draw}
    (hid : e.eventId = R.uuid4 n draw) (hnew : ¬ P draw) (hP : ∀ d, P d → P' d) (hdraw : P' draw) :
    (Durable.commit s (eventWrite R s e)).events = s.events ++ [e]
      ∧ IdsDrawn R n P' (Durable.commit s (eventWrite R s e)) := by
  have hfresh : ∀ row ∈ s.rows, row.event.eventId ≠ e.eventId := by
    intro row hrow heq
    rcases h row.event (List.mem_map_of_mem hrow) with ⟨run, hrun, d, hd⟩ | ⟨d, hPd, hd⟩
    · rw [heq, hid] at hd
      have hruns := (R.uuid4_injective hd).1
      omega
    · rw [heq, hid] at hd
      rw [← (R.uuid4_injective hd).2] at hPd
      exact hnew hPd
  have hevents : (Durable.commit s (eventWrite R s e)).events = s.events ++ [e] := by
    show (insertEventRow s.rows (EventRow.link R (lastEventHash s.rows) e)).map EventRow.event = _
    rw [insertEventRow, if_neg, List.map_append]
    · rfl
    · rw [List.any_eq_true]
      rintro ⟨row, hrow, heq⟩
      exact hfresh row hrow (of_decide_eq_true heq)
  refine ⟨hevents, fun f hf => ?_⟩
  rw [hevents, List.mem_append, List.mem_singleton] at hf
  rcases hf with hf | rfl
  · exact (h f hf).imp id (fun ⟨d, hd, hdid⟩ => ⟨d, hP d hd, hdid⟩)
  · exact Or.inr ⟨draw, hdraw, hid⟩

end Ids

/-! ### Identifiers of the parts of a cycle -/

namespace CycleContext

variable {ctx : CycleContext} {i : ℕ} {position : CanonicalPaperPosition} {v : Verdict}
  {e : CanonicalPortfolioEvent}

/-- A recorded mark is the one given, and newer than what the ledger has. -/
theorem newerMark_eq_some {mark : CanonicalPortfolioEvent}
    (h : ctx.newerMark position mark = some e) :
    e = mark ∧ ctx.priorEvidenceAt position < e.observedAt := by
  unfold newerMark at h
  split at h
  · rename_i hlt
    injection h with h
    subst h
    exact ⟨rfl, hlt⟩
  · cases h

/-- The event of a verdict is about its position, and has the id drawn for its place. -/
theorem event_of_verdict (hv : ctx.verdict i position = .ok v) (he : v.event? = some e) :
    e.eventId = ctx.runtime.uuid4 ctx.run (.accountingEvent i)
      ∧ e.positionId = some position.positionId := by
  have hmark : ∀ mark, ctx.newerMark position mark = some e →
      mark.eventId = ctx.runtime.uuid4 ctx.run (.accountingEvent i) →
      mark.positionId = some position.positionId →
      e.eventId = ctx.runtime.uuid4 ctx.run (.accountingEvent i)
        ∧ e.positionId = some position.positionId := by
    intro mark hnewer hid hposition
    obtain ⟨rfl, -⟩ := newerMark_eq_some hnewer
    exact ⟨hid, hposition⟩
  cases verdict_decides hv with
  | settled outcome =>
    obtain rfl := Option.some.inj he
    exact ⟨rfl, rfl⟩
  | marked trial _ _ _ mark hm =>
    obtain ⟨hid, -, hposition, -⟩ := markUniversal_eq_some hm
    exact hmark mark he hid hposition
  | closed quote =>
    obtain rfl := Option.some.inj he
    exact ⟨rfl, rfl⟩
  | quoted quote => exact hmark _ he rfl rfl
  | awaiting quote => exact hmark _ he rfl rfl
  | stale => cases he

end CycleContext

/-- An id drawn in the cycle. -/
def DrawnIn (R : Runtime) (n : ℕ) (e : CanonicalPortfolioEvent) : Prop :=
  ∃ draw, e.eventId = R.uuid4 n draw

section Cycle

variable {R : Runtime} {n : ℕ} {input : CycleInput} {s : PortfolioStore}

theorem emits_deployAllocation_drawnIn (observedAt : Instant) (d : Deployment)
    (allocation : UnifiedPaperAllocation) :
    Emits (Records (DrawnIn R n)) (deployAllocation R n observedAt d allocation) := by
  intro s w hw e he
  have hstep : Deploys R n observedAt d allocation s _ := deployAllocation_deploys
  generalize deployAllocation R n observedAt d allocation s = res at hstep hw
  cases hstep with
  | raises => cases hw
  | skips f hid =>
    rw [List.mem_singleton.mp hw] at he
    obtain rfl : f = e := Option.some.inj he
    exact ⟨_, hid⟩
  | opens trial =>
    rcases List.mem_cons.mp hw with rfl | hw
    · obtain rfl := Option.some.inj he
      exact ⟨_, rfl⟩
    · rw [List.mem_singleton.mp hw] at he
      cases he

/-- **Cycle.** A cycle records events under ids it draws. -/
theorem emits_runCycle_drawnIn : Emits (Records (DrawnIn R n)) (runCycle R n input) := by
  have hgenesis : ∀ observedAt, DrawnIn R n (genesisEvent (R.uuid4 n .genesis) observedAt) :=
    fun _ => ⟨.genesis, rfl⟩
  refine emits_bind (emits_settlementHalf hgenesis ?_) (fun half => emits_bind ?_
    (fun allocation => emits_concludeCycle R hgenesis half allocation))
  · rintro ctx rfl rfl i position v e hv he
    exact ⟨_, (ctx.event_of_verdict hv he).1⟩
  · unfold allocationHalf
    dsimp only
    split
    · split
      · exact emits_pure _
      · exact emits_bind (emits_foldlM (emits_deployAllocation_drawnIn _) _ _)
          (fun _ => emits_pure _)
    · exact emits_pure _

/-- The events after some writes are those before and those the writes record. -/
theorem mem_events_commitAll {ψ : CanonicalPortfolioEvent → Prop} {ws : List Write}
    (hws : ∀ w ∈ ws, Records ψ w) {e : CanonicalPortfolioEvent}
    (he : e ∈ (commitAll s ws).events) : e ∈ s.events ∨ ψ e := by
  induction ws generalizing s with
  | nil => exact Or.inl he
  | cons w ws ih =>
    rcases ih (fun v hv => hws v (List.mem_cons_of_mem w hv)) he with he | he
    · cases w with
      | event row =>
        rcases commit_row s row with heq | heq
        · exact Or.inl (heq ▸ he)
        · rw [heq, List.mem_append, List.mem_singleton] at he
          rcases he with he | rfl
          · exact Or.inl he
          · exact Or.inr (hws _ List.mem_cons_self row.event rfl)
      | integrity snapshot => exact Or.inl ((commit_integrity s snapshot).1 ▸ he)
      | snapshot => exact Or.inl he
      | trial => exact Or.inl he
      | outcome => exact Or.inl he
    · exact Or.inr he

/-- **Run.** The log of a reachable ledger has ids drawn by the cycles that ran. -/
theorem Reachable.idsDrawn {Allowed : ℕ → PortfolioStore → CycleInput → Prop}
    (h : Reachable R Allowed n s) : IdsDrawn R n (fun _ => False) s := by
  induction h with
  | start => exact fun e he => (by cases he)
  | @cycle m t ht input _ k ih =>
    refine IdsDrawn.next (P := fun _ => True) (fun e he => ?_)
    have hws : ∀ w ∈ (runCycle R m input t).1.take k, Records (DrawnIn R m) w :=
      fun w hw => emits_runCycle_drawnIn t w (List.mem_of_mem_take hw)
    rcases mem_events_commitAll hws he with he | ⟨draw, hid⟩
    · exact (ih e he).imp id (fun ⟨_, hfalse, _⟩ => hfalse.elim)
    · exact Or.inr ⟨draw, trivial, hid⟩

end Cycle

end InefficiencyEngine.Portfolio
