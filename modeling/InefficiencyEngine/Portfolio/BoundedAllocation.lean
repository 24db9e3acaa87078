import InefficiencyEngine.Lib.Machine
import InefficiencyEngine.Portfolio.Market

namespace InefficiencyEngine.Portfolio

/-!
# The bounded allocation stage

`_bounded_allocation_plan` hands the synchronous allocator to one worker thread and waits at most
thirty seconds for its plan.  The thread goes on when the call gives up, so the service keeps the
future of the job and submits no other while that one runs.  Here the service, its calls and its
jobs are a machine: the clock, the worker thread and the event loop take turns in any order.

A plan that comes after the deadline is meant to be discarded.  But `asyncio.wait_for` of
Python 3.11, whether its timer or a cancellation ends the wait, returns the result of a future that
is done by the time the event loop gets to the call: where the loop is busy over the deadline and
the job ends meanwhile, the late plan is returned (`not_neverLate_busyLoop`).  While the loop is
free at every deadline, none is (`bounded_allocation_plan`).
-/

variable {Plan : Type} {syncCore : Bool}

/-- `CANONICAL_ALLOCATION_TIMEOUT_SECONDS`, in microseconds. -/
def canonicalAllocationTimeout : Int := 30 * 1000000

/-- How the allocator ends: with a plan, with an exception of some class (which may be a
    `TimeoutError`), or with one that `except Exception` does not catch. -/
inductive JobEnd (Plan : Type)
  | plan (plan : Plan)
  | exception (name : String) (isTimeout : Bool)
  | baseException
  deriving DecidableEq

/-- A job of the executor: the call that submitted it, when, and its end with the time of it. -/
structure AllocationJob (Plan : Type) where
  call : ℕ
  submittedAt : Instant
  ended : Option (JobEnd Plan × Instant)
  deriving DecidableEq

/-- What a call comes to: the pair it returns, or the exception that leaves it. -/
inductive AllocationReply (Plan : Type)
  | returned (plan : Option Plan) (error : Option String)
  | raised
  | cancelled
  deriving DecidableEq

/-- A call: its local `future`, and its reply once it has one. -/
structure AllocationCall (Plan : Type) where
  future : Option ℕ
  reply : Option (AllocationReply Plan)
  deriving DecidableEq

/-- The service: `_allocation_future` and, in the order they were made, its calls and its jobs. -/
structure AllocationStage (Plan : Type) where
  clock : Instant
  allocationFuture : Option ℕ
  jobs : List (AllocationJob Plan)
  calls : List (AllocationCall Plan)
  deriving DecidableEq

/-- A service that has not been called yet. -/
def AllocationStage.initial (clock : Instant) : AllocationStage Plan :=
  { clock := clock, allocationFuture := none, jobs := [], calls := [] }

/-! ### The call -/

/-- When the timer of `asyncio.wait_for` is due. -/
def AllocationJob.deadline (job : AllocationJob Plan) : Instant :=
  job.submittedAt + canonicalAllocationTimeout

namespace AllocationStage

/-- A new call that has its reply at once. -/
def answer (s : AllocationStage Plan) (reply : AllocationReply Plan) : AllocationStage Plan :=
  { s with calls := s.calls ++ [⟨none, some reply⟩] }

/-- A new call that submits a job and waits for it. -/
def submit (s : AllocationStage Plan) : AllocationStage Plan :=
  { s with
    allocationFuture := some s.jobs.length
    jobs := s.jobs ++ [⟨s.calls.length, s.clock, none⟩]
    calls := s.calls ++ [⟨some s.jobs.length, none⟩] }

/-- `_bounded_allocation_plan` up to its first `await`. -/
def begin (syncCore : Bool) (s : AllocationStage Plan) : AllocationStage Plan :=
  if syncCore = false then
    { s with calls := s.calls ++ [⟨none, none⟩] }
  else
    match s.allocationFuture with
    | none => s.submit
    | some previous =>
      match s.jobs[previous]?.bind AllocationJob.ended with
      | none => s.answer (.returned none (some "AllocationStageStillRunning"))
      -- `previous.result()` raises it again, before the future is cleared
      | some (.baseException, _) => s.answer .raised
      | some _ => { s with allocationFuture := none }.submit

/-- The call gets its reply. -/
def reply (s : AllocationStage Plan) (i : ℕ) (reply : AllocationReply Plan) :
    AllocationStage Plan :=
  { s with calls := s.calls.modify i fun call => { call with reply := some reply } }

/-- `_bounded_allocation_plan` from its `await` on, when the wait ends with the end of the job. -/
def resume (s : AllocationStage Plan) (i : ℕ) : JobEnd Plan → AllocationStage Plan
  | .plan plan => { s with allocationFuture := none }.reply i (.returned (some plan) none)
  | .exception _ true => s.reply i (.returned none (some "AllocationStageTimeout"))
  | .exception name false =>
    { s with allocationFuture := none }.reply i (.returned none (some name))
  | .baseException => s.reply i .raised

/-- The reply to the end of the job. -/
def outcome : JobEnd Plan → AllocationReply Plan
  | .plan plan => .returned (some plan) none
  | .exception _ true => .returned none (some "AllocationStageTimeout")
  | .exception name false => .returned none (some name)
  | .baseException => .raised

/-- The reply of a call that awaited `allocator.allocate` itself. -/
def direct : JobEnd Plan → AllocationReply Plan
  | .plan plan => .returned (some plan) none
  | .exception name _ => .returned none (some name)
  | .baseException => .raised

/-- The job a call is waiting for. -/
def awaited (s : AllocationStage Plan) (i : ℕ) : Option (AllocationJob Plan) :=
  match s.calls[i]? with
  | some ⟨some k, none⟩ => s.jobs[k]?
  | _ => none

end AllocationStage

/-! ### The machine -/

/-- What can happen next. -/
inductive AllocationAction (Plan : Type)
  /-- time passes -/
  | tick (elapsed : ℕ)
  /-- `_bounded_allocation_plan` is called -/
  | begin
  /-- the worker thread ends a job -/
  | finish (job : ℕ) (ending : JobEnd Plan)
  /-- the event loop resumes a call and `asyncio.wait_for` finds its future done, at whatever time
      it was released by the job, by its timer or by a cancellation -/
  | wake (call : ℕ)
  /-- the event loop resumes a call that its timer released, with its future not yet done -/
  | expire (call : ℕ)
  /-- a call is cancelled while it waits and its future is not yet done -/
  | cancel (call : ℕ)
  /-- `allocator.allocate` ends in a call that awaits it -/
  | allocated (call : ℕ) (ending : JobEnd Plan)

/-- One action of the machine; one that is not possible changes nothing. -/
def allocationStep (syncCore : Bool) (s : AllocationStage Plan) :
    AllocationAction Plan → AllocationStage Plan
  | .tick elapsed => { s with clock := s.clock + elapsed }
  | .begin => s.begin syncCore
  | .finish k ending =>
    { s with jobs := s.jobs.modify k fun job =>
        { job with ended := job.ended.or (some (ending, s.clock)) } }
  | .wake i =>
    match (s.awaited i).bind AllocationJob.ended with
    | some (ending, _) => s.resume i ending
    | none => s
  | .expire i =>
    match s.awaited i with
    | some job =>
      -- the future may lag behind the job: its end travels to it through the event loop
      if job.deadline ≤ s.clock then s.reply i (.returned none (some "AllocationStageTimeout"))
      else s
    | none => s
  | .cancel i =>
    match s.calls[i]? with
    | some ⟨_, none⟩ => s.reply i .cancelled
    | _ => s
  | .allocated i ending =>
    match s.calls[i]? with
    | some ⟨none, none⟩ => s.reply i (AllocationStage.direct ending)
    | _ => s

/-- The calls are made one after another: none begins while another one waits. -/
def OneAtATime (s : AllocationStage Plan) : AllocationAction Plan → Prop
  | .begin => ∀ call ∈ s.calls, call.reply ≠ none
  | _ => True

instance [DecidableEq Plan] (s : AllocationStage Plan) :
    ∀ action, Decidable (OneAtATime s action)
  | .begin => inferInstanceAs (Decidable (∀ call ∈ s.calls, call.reply ≠ none))
  | .tick _ | .finish _ _ | .wake _ | .expire _ | .cancel _ | .allocated _ _ => isTrue trivial

/-- The event loop is free at the deadlines: when a job ends at or after its own, the timer has
    fired already and no call waits for the job any more. -/
def LoopFree (s : AllocationStage Plan) : AllocationAction Plan → Prop
  | .finish k _ => ∀ job ∈ s.jobs[k]?, job.deadline ≤ s.clock → ⟨some k, none⟩ ∉ s.calls
  | _ => True

instance [DecidableEq Plan] (s : AllocationStage Plan) :
    ∀ action, Decidable (LoopFree s action)
  | .finish k _ =>
    inferInstanceAs (Decidable (∀ job ∈ s.jobs[k]?, _ → _))
  | .begin | .tick _ | .wake _ | .expire _ | .cancel _ | .allocated _ _ => isTrue trivial

/-! ### Jobs once submitted -/

/-- The jobs of the first list are those of the second one, where more may have been submitted and
    more may have ended. -/
def Extends (jobs later : List (AllocationJob Plan)) : Prop :=
  ∀ (k : ℕ) (job : AllocationJob Plan), jobs[k]? = some job →
    ∃ job' : AllocationJob Plan, later[k]? = some job' ∧ job'.call = job.call
      ∧ (job.ended ≠ none → job' = job)

theorem Extends.refl (jobs : List (AllocationJob Plan)) : Extends jobs jobs :=
  fun _ job h => ⟨job, h, rfl, fun _ => rfl⟩

theorem extends_append (jobs : List (AllocationJob Plan)) (job : AllocationJob Plan) :
    Extends jobs (jobs ++ [job]) := by
  intro k found h
  have hk : k < jobs.length := (List.getElem?_eq_some_iff.mp h).1
  refine ⟨found, ?_, rfl, fun _ => rfl⟩
  rw [List.getElem?_append_left hk, h]

/-- The worker thread ends a job that runs and leaves the others. -/
theorem extends_finish (jobs : List (AllocationJob Plan)) (k : ℕ)
    (ending : JobEnd Plan × Instant) :
    Extends jobs (jobs.modify k fun job => { job with ended := job.ended.or (some ending) }) := by
  intro j job h
  rw [List.getElem?_modify, h, Option.map_eq_map, Option.map_some]
  by_cases hjk : k = j
  · rw [if_pos hjk]
    refine ⟨_, rfl, rfl, fun hended => ?_⟩
    obtain ⟨e, he⟩ := Option.ne_none_iff_exists'.mp hended
    simp only [he, Option.some_or]
    rw [← he]
  · rw [if_neg hjk]
    exact ⟨job, rfl, rfl, fun _ => rfl⟩

/-! ### Every plan is its own job's -/

/-- The reply does not come from a job: the call was cancelled or gave up. -/
def AllocationReply.WithoutJob (reply : AllocationReply Plan) : Prop :=
  reply = .cancelled ∨ reply = .returned none (some "AllocationStageTimeout")

/-- The reply is the end of the job `k`. -/
def AllocationReply.FromJob (jobs : List (AllocationJob Plan)) (k : ℕ)
    (reply : AllocationReply Plan) : Prop :=
  ∃ job ending finishedAt, jobs[k]? = some job ∧ job.ended = some (ending, finishedAt)
    ∧ reply = AllocationStage.outcome ending

/-- A call's local future is the job it submitted, and its reply comes from that job and no other;
    with a synchronous core a call that submits no job returns no plan. -/
structure Own (syncCore : Bool) (jobs : List (AllocationJob Plan)) (i : ℕ)
    (call : AllocationCall Plan) : Prop where
  submitted : ∀ k, call.future = some k → ∃ job, jobs[k]? = some job ∧ job.call = i
  reply : ∀ k, call.future = some k → ∀ reply, call.reply = some reply →
    reply.WithoutJob ∨ reply.FromJob jobs k
  noPlan : syncCore = true → call.future = none →
    ∃ reply, call.reply = some reply ∧ ∀ plan error, reply ≠ .returned (some plan) error

/-- Every call of the service returned its own plan, if any. -/
def AllOwn (syncCore : Bool) (s : AllocationStage Plan) : Prop :=
  ∀ i call, s.calls[i]? = some call → Own syncCore s.jobs i call

theorem Own.mono {jobs later : List (AllocationJob Plan)} {i : ℕ} {call : AllocationCall Plan}
    (hlater : Extends jobs later) (h : Own syncCore jobs i call) : Own syncCore later i call where
  submitted k hk := by
    obtain ⟨job, hjob, hcall⟩ := h.submitted k hk
    obtain ⟨job', hjob', hcall', -⟩ := hlater k job hjob
    exact ⟨job', hjob', hcall'.trans hcall⟩
  reply k hk reply hreply := by
    rcases h.reply k hk reply hreply with hwithout | ⟨job, ending, time, hjob, hend, rfl⟩
    · exact .inl hwithout
    · obtain ⟨job', hjob', -, hsame⟩ := hlater k job hjob
      rw [hsame (hend ▸ Option.some_ne_none _)] at hjob'
      exact .inr ⟨job, ending, time, hjob', hend, rfl⟩
  noPlan := h.noPlan

variable {s : AllocationStage Plan}

/-- A new call is added to those there are. -/
theorem AllOwn.snoc (h : AllOwn syncCore s) {later : AllocationStage Plan}
    {call : AllocationCall Plan} (hcalls : later.calls = s.calls ++ [call])
    (hjobs : Extends s.jobs later.jobs) (hcall : Own syncCore later.jobs s.calls.length call) :
    AllOwn syncCore later := by
  intro i found hfound
  rw [hcalls] at hfound
  rcases Nat.lt_or_ge i s.calls.length with hi | hi
  · rw [List.getElem?_append_left hi] at hfound
    exact (h i found hfound).mono hjobs
  · rw [List.getElem?_append_right hi] at hfound
    obtain ⟨hzero, rfl⟩ : i - s.calls.length = 0 ∧ call = found := by
      rcases hn : i - s.calls.length with _ | n
      · rw [hn] at hfound
        exact ⟨rfl, Option.some.inj hfound⟩
      · rw [hn] at hfound
        exact absurd hfound.symm (Option.some_ne_none _)
    have hi' : i = s.calls.length := by omega
    rw [hi']
    exact hcall

/-- A waiting call gets its reply. -/
theorem AllOwn.reply (h : AllOwn syncCore s) {later : AllocationStage Plan} {i : ℕ}
    {reply : AllocationReply Plan}
    (hcalls : later.calls = s.calls.modify i fun call => { call with reply := some reply })
    (hjobs : later.jobs = s.jobs)
    (hreply : ∀ call, s.calls[i]? = some call →
      (∀ k, call.future = some k → reply.WithoutJob ∨ reply.FromJob s.jobs k)
      ∧ (syncCore = true → call.future = none →
          ∀ plan error, reply ≠ .returned (some plan) error)) :
    AllOwn syncCore later := by
  intro j found hfound
  rw [hcalls, List.getElem?_modify] at hfound
  obtain ⟨call, hcall, rfl⟩ := Option.map_eq_some_iff.mp hfound
  have hown := h j call hcall
  rw [hjobs]
  by_cases hij : i = j
  · obtain ⟨hjob, hnoPlan⟩ := hreply call (hij ▸ hcall)
    rw [if_pos hij]
    refine ⟨hown.submitted, fun k hk given heq => ?_, fun hsync hnone => ?_⟩
    · obtain rfl := Option.some.inj heq
      exact hjob k hk
    · exact ⟨reply, rfl, hnoPlan hsync hnone⟩
  · rw [if_neg hij]
    exact hown

/-- A call that waits for a job gives up. -/
theorem AllOwn.withoutJob (h : AllOwn syncCore s) (i : ℕ) {reply : AllocationReply Plan}
    (hreply : reply.WithoutJob) : AllOwn syncCore (s.reply i reply) := by
  refine h.reply rfl rfl fun call _ => ⟨fun _ _ => .inl hreply, fun _ _ plan error heq => ?_⟩
  rcases hreply with rfl | rfl
  · cases heq
  · cases heq

/-- What `awaited` finds. A call without a reply, and the job that it submitted. -/
theorem awaited_eq_some {i : ℕ} {job : AllocationJob Plan} (h : s.awaited i = some job) :
    ∃ k, s.calls[i]? = some ⟨some k, none⟩ ∧ s.jobs[k]? = some job := by
  rw [AllocationStage.awaited] at h
  split at h
  · next k hk => exact ⟨k, hk, h⟩
  · exact absurd h.symm (Option.some_ne_none _)

/-- A call begins. Its reply is no plan, or it waits for the job that it submits. -/
theorem AllOwn.begin (h : AllOwn syncCore s) : AllOwn syncCore (s.begin syncCore) := by
  -- a call that is answered at once takes no job
  have hanswer : ∀ reply : AllocationReply Plan,
      (∀ plan error, reply ≠ .returned (some plan) error) → AllOwn syncCore (s.answer reply) := by
    intro reply hreply
    refine h.snoc rfl (Extends.refl _) ⟨fun k hk => ?_, fun k hk => ?_, fun _ _ => ?_⟩
    · exact absurd hk.symm (Option.some_ne_none k)
    · exact absurd hk.symm (Option.some_ne_none k)
    · exact ⟨reply, rfl, hreply⟩
  -- a call that submits a job owns the one it appends
  have hsubmit : ∀ future : Option ℕ,
      AllOwn syncCore { s with allocationFuture := future }.submit := by
    intro future
    refine h.snoc rfl (extends_append _ _) ⟨fun k hk => ?_, fun k hk reply heq => ?_, ?_⟩
    · obtain rfl : s.jobs.length = k := Option.some.inj hk
      exact ⟨_, List.getElem?_concat_length, rfl⟩
    · exact absurd heq.symm (Option.some_ne_none _)
    · exact fun _ hnone => absurd hnone (Option.some_ne_none _)
  rw [AllocationStage.begin]
  by_cases hsync : syncCore = false
  -- without the synchronous core the call takes no job
  · rw [if_pos hsync]
    refine h.snoc rfl (Extends.refl _) ⟨fun k hk => ?_, fun k hk => ?_, fun htrue => ?_⟩
    · exact absurd hk.symm (Option.some_ne_none k)
    · exact absurd hk.symm (Option.some_ne_none k)
    · rw [hsync] at htrue
      exact absurd htrue Bool.false_ne_true
  · rw [if_neg hsync]
    -- no job is held, so one is submitted
    split
    · exact hsubmit _
    -- the job held runs still, raised to the call, or is replaced
    · split
      · exact hanswer _ fun plan error heq => by cases heq
      · exact hanswer _ fun plan error heq => by cases heq
      · exact hsubmit none

/-- **Own step.** Whatever happens next, every reply of a call is the one to its own job. -/
theorem AllOwn.step (h : AllOwn syncCore s) (action : AllocationAction Plan) :
    AllOwn syncCore (allocationStep syncCore s action) := by
  cases action with
  | tick elapsed => exact h
  | begin => exact h.begin
  | finish k ending => exact fun i call hcall => (h i call hcall).mono (extends_finish _ _ _)
  | wake i =>
    rw [allocationStep]
    split
    · next ending time hending =>
      obtain ⟨job, hjob, hended⟩ := Option.bind_eq_some_iff.mp hending
      obtain ⟨k, hcall, hget⟩ := awaited_eq_some hjob
      have hreply : ∀ call, s.calls[i]? = some call →
          (∀ k, call.future = some k → (AllocationStage.outcome ending).WithoutJob
            ∨ (AllocationStage.outcome ending).FromJob s.jobs k)
          ∧ (syncCore = true → call.future = none →
              ∀ plan error, AllocationStage.outcome ending ≠ .returned (some plan) error) := by
        intro call hcall'
        obtain rfl := Option.some.inj (hcall.symm.trans hcall')
        refine ⟨fun m hm => ?_, fun _ hnone => absurd hnone (Option.some_ne_none k)⟩
        obtain rfl := Option.some.inj hm
        exact .inr ⟨job, ending, time, hget, hended, rfl⟩
      rcases ending with plan | ⟨name, _ | _⟩ | _
      · exact h.reply rfl rfl hreply
      · exact h.reply rfl rfl hreply
      · exact h.reply rfl rfl hreply
      · exact h.reply rfl rfl hreply
    · exact h
  | expire i =>
    rw [allocationStep]
    split
    · split
      · exact h.withoutJob i (.inr rfl)
      · exact h
    · exact h
  | cancel i =>
    rw [allocationStep]
    split
    · exact h.withoutJob i (.inl rfl)
    · exact h
  | allocated i ending =>
    rw [allocationStep]
    split
    · next hcall =>
      refine h.reply rfl rfl fun call hcall' => ⟨fun k hk => ?_, fun hsync _ => ?_⟩
      · obtain rfl := Option.some.inj (hcall.symm.trans hcall')
        exact absurd hk.symm (Option.some_ne_none k)
      · -- with a synchronous core no call awaits the allocator itself
        obtain ⟨_, hsome, -⟩ := (h i _ hcall).noPlan hsync rfl
        exact absurd hsome.symm (Option.some_ne_none _)
    · exact h

/-! ### One job at a time -/

/-- The job `k` was submitted and has not ended. -/
def AllocationStage.Running (s : AllocationStage Plan) (k : ℕ) : Prop :=
  ∃ job, s.jobs[k]? = some job ∧ job.ended = none

/-- The call `i` waits for the job `k`. -/
def AllocationStage.Waiting (s : AllocationStage Plan) (i k : ℕ) : Prop :=
  s.calls[i]? = some ⟨some k, none⟩

/-- The future the service keeps is that of every job that runs and of every call that waits. -/
structure SingleFlight (s : AllocationStage Plan) : Prop where
  running : ∀ k, s.Running k → s.allocationFuture = some k
  waiting : ∀ i k, s.Waiting i k → s.allocationFuture = some k

/-- A finished job makes room for the next one. -/
theorem SingleFlight.not_running (h : SingleFlight s) {k : ℕ}
    (hfuture : s.allocationFuture = none ∨ s.allocationFuture = some k ∧ ¬ s.Running k) (j : ℕ) :
    ¬ s.Running j := by
  intro hj
  have hkept := h.running j hj
  rcases hfuture with hnone | ⟨hsome, hended⟩
  · rw [hnone] at hkept
    exact absurd hkept.symm (Option.some_ne_none j)
  · obtain rfl := Option.some.inj (hsome.symm.trans hkept)
    exact hended hj

/-- A reply ends a wait and begins none. -/
theorem waiting_of_reply {i j k : ℕ} {reply : AllocationReply Plan}
    (h : (s.reply i reply).Waiting j k) : i ≠ j ∧ s.Waiting j k := by
  rw [AllocationStage.Waiting, AllocationStage.reply, List.getElem?_modify] at h
  obtain ⟨call, hcall, heq⟩ := Option.map_eq_some_iff.mp h
  by_cases hij : i = j
  · rw [if_pos hij] at heq
    exact absurd (congrArg AllocationCall.reply heq) (Option.some_ne_none _)
  · rw [if_neg hij] at heq
    refine ⟨hij, ?_⟩
    rw [AllocationStage.Waiting, hcall, heq]

/-- A reply that keeps the future. -/
theorem SingleFlight.reply (h : SingleFlight s) (i : ℕ) (reply : AllocationReply Plan) :
    SingleFlight (s.reply i reply) where
  running := h.running
  waiting j k hwait := h.waiting j k (waiting_of_reply hwait).2

/-- A reply that clears the future: the job of the call has ended, and no other call waits for
    it. -/
theorem SingleFlight.reply_clear (h : SingleFlight s) (hown : AllOwn syncCore s) {i k : ℕ}
    (hwait : s.Waiting i k) (hended : ¬ s.Running k) (reply : AllocationReply Plan) :
    SingleFlight ({ s with allocationFuture := none }.reply i reply) where
  running j hj := absurd hj (h.not_running (.inr ⟨h.waiting i k hwait, hended⟩) j)
  waiting j m hj := by
    obtain ⟨hij, hother⟩ := waiting_of_reply hj
    have hm : m = k :=
      Option.some.inj ((h.waiting j m hother).symm.trans (h.waiting i k hwait))
    obtain ⟨job, hjob, hi⟩ := (hown i _ hwait).submitted k rfl
    obtain ⟨job', hjob', hj'⟩ := (hown j _ hother).submitted m rfl
    rw [hm, hjob] at hjob'
    obtain rfl := Option.some.inj hjob'
    exact absurd (hi.symm.trans hj') hij

/-- A call begins when no other one waits. -/
theorem SingleFlight.begin (h : SingleFlight s) (hone : ∀ call ∈ s.calls, call.reply ≠ none) :
    SingleFlight (s.begin syncCore) := by
  have hnone : ∀ i k, ¬ s.Waiting i k := fun i k hwait =>
    hone _ (List.mem_of_getElem? hwait) rfl
  -- a call that submits nothing does not wait for a job
  have hadd : ∀ call : AllocationCall Plan, (∀ k, call ≠ ⟨some k, none⟩) →
      SingleFlight { s with calls := s.calls ++ [call] } := by
    intro call hcall
    refine ⟨h.running, fun i k hwait => ?_⟩
    rcases List.mem_append.mp (List.mem_of_getElem? hwait) with hold | hnew
    · exact absurd rfl (hone _ hold)
    · exact absurd (List.mem_singleton.mp hnew).symm (hcall k)
  -- a call that submits a job waits for it, and that job is the only one that runs
  have hsubmit : (∀ k, ¬ s.Running k) → ∀ future : Option ℕ,
      SingleFlight { s with allocationFuture := future }.submit := by
    intro hidle future
    refine ⟨fun k hk => ?_, fun i k hwait => ?_⟩
    · obtain ⟨job, hjob, hended⟩ := hk
      show some s.jobs.length = some k
      rcases Nat.lt_trichotomy k s.jobs.length with hlt | heq | hgt
      · have hold : s.jobs[k]? = some job := by
          rw [← hjob]
          exact (List.getElem?_append_left hlt).symm
        exact absurd ⟨job, hold, hended⟩ (hidle k)
      · rw [heq]
      · have hlen : k < (s.jobs ++ [_]).length := (List.getElem?_eq_some_iff.mp hjob).1
        rw [List.length_append, List.length_singleton] at hlen
        omega
    · rcases List.mem_append.mp (List.mem_of_getElem? hwait) with hold | hnew
      · exact absurd rfl (hone _ hold)
      · exact ((AllocationCall.mk.injEq ..).mp (List.mem_singleton.mp hnew)).1.symm
  rw [AllocationStage.begin]
  split
  · exact hadd _ fun k heq => by cases heq
  · split
    · next hfuture => exact hsubmit (h.not_running (k := 0) (.inl hfuture)) _
    · next previous hfuture =>
      split
      · exact hadd _ fun k heq => by cases heq
      · exact hadd _ fun k heq => by cases heq
      · next found hfound =>
        refine hsubmit (h.not_running (.inr ⟨hfuture, ?_⟩)) none
        rintro ⟨job, hjob, hended⟩
        rw [hjob, Option.bind_some, hended] at hfound
        exact Option.some_ne_none _ hfound.symm

/-- A job that has ended does not run. -/
theorem not_running_of_ended {k : ℕ} {job : AllocationJob Plan} {ending : JobEnd Plan × Instant}
    (hget : s.jobs[k]? = some job) (hend : job.ended = some ending) : ¬ s.Running k := by
  rintro ⟨found, hfound, hnone⟩
  obtain rfl := Option.some.inj (hget.symm.trans hfound)
  exact Option.some_ne_none _ (hend.symm.trans hnone)

/-- **Single-flight step.** Whatever happens next, if no call begins while another one waits.
    Only the beginning of a call starts a job, and only a call that waits is answered, so what
    the other actions do is to end jobs and calls. -/
theorem SingleFlight.step (h : SingleFlight s) (hown : AllOwn syncCore s)
    (action : AllocationAction Plan) (hone : OneAtATime s action) :
    SingleFlight (allocationStep syncCore s action) := by
  cases action with
  | tick elapsed => exact ⟨h.running, h.waiting⟩
  | begin => exact h.begin hone
  -- the job that ends was running before
  | finish k ending =>
    refine ⟨fun j hj => h.running j ?_, h.waiting⟩
    obtain ⟨job, hjob, hended⟩ := hj
    rw [allocationStep, List.getElem?_modify] at hjob
    obtain ⟨before, hbefore, rfl⟩ := Option.map_eq_some_iff.mp hjob
    refine ⟨before, hbefore, ?_⟩
    by_cases hkj : k = j
    · rw [if_pos hkj] at hended
      exact (Option.or_eq_none_iff.mp hended).1
    · rwa [if_neg hkj] at hended
  -- a wake-up answers with the ending of the job, and clears the slot if that job is in it
  | wake i =>
    rw [allocationStep]
    split
    · next ending time hending =>
      obtain ⟨job, hjob, hfound⟩ := Option.bind_eq_some_iff.mp hending
      obtain ⟨k, hcall, hget⟩ := awaited_eq_some hjob
      have hended : ¬ s.Running k := not_running_of_ended hget hfound
      rcases ending with plan | ⟨name, _ | _⟩ | _
      · exact h.reply_clear hown hcall hended _
      · exact h.reply_clear hown hcall hended _
      · exact h.reply i _
      · exact h.reply i _
    · exact h
  -- the deadline, a cancellation and the inner allocator answer a call and start nothing
  | expire i =>
    rw [allocationStep]
    split
    · split
      · exact h.reply i _
      · exact h
    · exact h
  | cancel i =>
    rw [allocationStep]
    split
    · exact h.reply i _
    · exact h
  | allocated i ending =>
    rw [allocationStep]
    split
    · exact h.reply i _
    · exact h

theorem allOwn_initial (clock : Instant) :
    AllOwn syncCore (AllocationStage.initial clock : AllocationStage Plan) :=
  fun _ _ hcall => absurd hcall.symm (Option.some_ne_none _)

theorem singleFlight_initial (clock : Instant) :
    SingleFlight (AllocationStage.initial clock : AllocationStage Plan) where
  running := fun _ ⟨_, hjob, _⟩ => absurd hjob.symm (Option.some_ne_none _)
  waiting _ _ hwait := absurd hwait.symm (Option.some_ne_none _)

/-- Without a synchronous core nothing is ever submitted. -/
theorem jobs_step_of_no_syncCore (hjobs : s.jobs = []) (action : AllocationAction Plan) :
    (allocationStep false s action).jobs = [] := by
  cases action with
  | finish k ending => rw [allocationStep, hjobs, List.modify_nil]
  | wake i =>
    rw [allocationStep]
    split
    · next ending _ _ => rcases ending with plan | ⟨name, _ | _⟩ | _ <;> exact hjobs
    · exact hjobs
  | expire i =>
    rw [allocationStep]
    split
    · split <;> exact hjobs
    · exact hjobs
  | cancel i | allocated i ending =>
    rw [allocationStep]
    split <;> exact hjobs
  | tick elapsed | begin => exact hjobs

/-! ### Late ends -/

/-- No reply comes from a job that ended at or after its deadline. -/
def LateUnused (s : AllocationStage Plan) : Prop :=
  ∀ (i k : ℕ) (call : AllocationCall Plan) (job : AllocationJob Plan), s.calls[i]? = some call →
    call.future = some k → s.jobs[k]? = some job →
    (∃ ending finishedAt, job.ended = some (ending, finishedAt) ∧ job.deadline ≤ finishedAt) →
    ∃ reply, call.reply = some reply ∧ reply.WithoutJob

/-- New calls wait for jobs of their own, which have not ended. -/
theorem LateUnused.snoc (h : LateUnused s) {later : AllocationStage Plan}
    {call : AllocationCall Plan} (hcalls : later.calls = s.calls ++ [call])
    (hold : ∀ (i : ℕ) (found : AllocationCall Plan) (k : ℕ), s.calls[i]? = some found →
      found.future = some k → later.jobs[k]? = s.jobs[k]?)
    (hnew : ∀ (k : ℕ) (job : AllocationJob Plan), call.future = some k →
      later.jobs[k]? = some job → job.ended = none) :
    LateUnused later := by
  intro i k found job hfound hfuture hjob hlate
  rw [hcalls] at hfound
  rcases Nat.lt_or_ge i s.calls.length with hi | hi
  · rw [List.getElem?_append_left hi] at hfound
    rw [hold i found k hfound hfuture] at hjob
    exact h i k found job hfound hfuture hjob hlate
  · rw [List.getElem?_append_right hi] at hfound
    obtain rfl := List.mem_singleton.mp (List.mem_of_getElem? hfound)
    obtain ⟨ending, time, hended, -⟩ := hlate
    exact absurd (hended.symm.trans (hnew k job hfuture hjob)) (Option.some_ne_none _)

/-- A call begins. A call that begins has no late plan, as its job has not ended. -/
theorem LateUnused.begin (h : LateUnused s) (hown : AllOwn syncCore s) :
    LateUnused (s.begin syncCore) := by
  have hanswer : ∀ call : AllocationCall Plan, call.future = none →
      LateUnused { s with calls := s.calls ++ [call] } := by
    intro call hcall
    refine h.snoc rfl (fun _ _ _ _ _ => rfl) fun k job hk => ?_
    exact absurd (hk.symm.trans hcall) (Option.some_ne_none k)
  have hsubmit : ∀ future : Option ℕ,
      LateUnused { s with allocationFuture := future }.submit := by
    intro future
    refine h.snoc rfl (fun i found k hfound hfuture => ?_) fun k job hk hjob => ?_
    · obtain ⟨job, hjob, -⟩ := (hown i found hfound).submitted k hfuture
      exact List.getElem?_append_left (List.getElem?_eq_some_iff.mp hjob).1
    · obtain rfl : s.jobs.length = k := Option.some.inj hk
      have hlast : some ⟨s.calls.length, s.clock, none⟩ = some job :=
        List.getElem?_concat_length.symm.trans hjob
      rw [← Option.some.inj hlast]
  rw [AllocationStage.begin]
  split
  · exact hanswer _ rfl
  · split
    · exact hsubmit _
    · split
      · exact hanswer _ rfl
      · exact hanswer _ rfl
      · exact hsubmit none

/-- A waiting call gets a reply that no late job decides. -/
theorem LateUnused.reply (h : LateUnused s) {later : AllocationStage Plan} {i : ℕ}
    {reply : AllocationReply Plan}
    (hcalls : later.calls = s.calls.modify i fun call => { call with reply := some reply })
    (hjobs : later.jobs = s.jobs)
    (hreply : reply.WithoutJob
      ∨ ∃ call, s.calls[i]? = some call ∧ call.reply = none) : LateUnused later := by
  intro j k found job hfound hfuture hjob hlate
  rw [hcalls, List.getElem?_modify] at hfound
  obtain ⟨call, hcall, rfl⟩ := Option.map_eq_some_iff.mp hfound
  rw [hjobs] at hjob
  by_cases hij : i = j
  · rw [if_pos hij] at hfuture ⊢
    refine ⟨reply, rfl, ?_⟩
    rcases hreply with hwithout | ⟨waiting, hwaiting, hnone⟩
    · exact hwithout
    · -- a call still waits for this job, so that it did not end late
      rw [hij, hcall] at hwaiting
      obtain ⟨given, hgiven, -⟩ := h j k call job hcall hfuture hjob hlate
      rw [Option.some.inj hwaiting, hnone] at hgiven
      exact absurd hgiven.symm (Option.some_ne_none given)
  · rw [if_neg hij] at hfuture ⊢
    exact h j k call job hcall hfuture hjob hlate

/-- The worker thread ends a job, late only if no call waits for it any more. -/
theorem LateUnused.finish (h : LateUnused s) (hown : AllOwn syncCore s) {k : ℕ}
    {ending : JobEnd Plan} (hfree : LoopFree s (.finish k ending)) :
    LateUnused (allocationStep syncCore s (.finish k ending)) := by
  intro i m call job hcall hfuture hjob hlate
  have hcall' : s.calls[i]? = some call := hcall
  rw [allocationStep, List.getElem?_modify] at hjob
  obtain ⟨before, hbefore, rfl⟩ := Option.map_eq_some_iff.mp hjob
  by_cases hkm : k = m
  · rw [if_pos hkm] at hlate
    cases hended : before.ended with
    | some found =>
      refine h i m call before hcall' hfuture hbefore ?_
      simpa [hended, AllocationJob.deadline] using hlate
    | none =>
      obtain ⟨e, time, hnow, hdue⟩ := hlate
      have htime : s.clock = time := by
        simp only [hended, Option.none_or] at hnow
        exact (Prod.mk.inj (Option.some.inj hnow)).2
      cases hreply : call.reply with
      | none =>
        refine absurd (List.mem_of_getElem? hcall') ?_
        have hmine : call = ⟨some k, none⟩ := by
          rw [hkm, ← hfuture, ← hreply]
        rw [hmine]
        exact hfree before (hkm ▸ hbefore) (htime ▸ hdue)
      | some reply =>
        -- the job ran until now, so that the reply there is did not come from it
        rcases (hown i call hcall').reply m hfuture reply hreply with
          hwithout | ⟨job, _, _, hget, hgot, -⟩
        · exact ⟨reply, rfl, hwithout⟩
        · obtain rfl := Option.some.inj (hget.symm.trans hbefore)
          exact absurd (hgot.symm.trans hended) (Option.some_ne_none _)
  · rw [if_neg hkm] at hlate
    exact h i m call before hcall' hfuture hbefore hlate

/-- **Late step.** While the event loop is free at the deadlines, no late end decides a reply. A
    call is answered by the ending of its job, by its deadline or by a cancellation, and a late
    ending answers none while the loop is free at the deadline. -/
theorem LateUnused.step (h : LateUnused s) (hown : AllOwn syncCore s)
    (action : AllocationAction Plan) (hfree : LoopFree s action) :
    LateUnused (allocationStep syncCore s action) := by
  cases action with
  | tick elapsed => exact h
  | begin => exact h.begin hown
  | finish k ending => exact h.finish hown hfree
  -- the waiting call takes the ending of its own job
  | wake i =>
    rw [allocationStep]
    split
    · next ending time hending =>
      obtain ⟨job, hjob, -⟩ := Option.bind_eq_some_iff.mp hending
      obtain ⟨k, hcall, -⟩ := awaited_eq_some hjob
      rcases ending with plan | ⟨name, _ | _⟩ | _
      · exact h.reply rfl rfl (.inr ⟨_, hcall, rfl⟩)
      · exact h.reply rfl rfl (.inr ⟨_, hcall, rfl⟩)
      · exact h.reply rfl rfl (.inr ⟨_, hcall, rfl⟩)
      · exact h.reply rfl rfl (.inr ⟨_, hcall, rfl⟩)
    · exact h
  -- the deadline answers a call whose job has not ended
  | expire i =>
    rw [allocationStep]
    split
    · split
      · exact h.reply rfl rfl (.inl (.inr rfl))
      · exact h
    · exact h
  | cancel i =>
    rw [allocationStep]
    split
    · exact h.reply rfl rfl (.inl (.inl rfl))
    · exact h
  | allocated i ending =>
    rw [allocationStep]
    split
    · next hcall => exact h.reply rfl rfl (.inr ⟨_, hcall, rfl⟩)
    · exact h

/-! ### Runs -/

/-- At most one submitted job runs at any time. -/
def OneRunning (s : AllocationStage Plan) : Prop :=
  ∀ j k, s.Running j → s.Running k → j = k

/-- With a synchronous core, every plan that was returned is what the job submitted in that call
    ended with. -/
def PlansOwn (syncCore : Bool) (s : AllocationStage Plan) : Prop :=
  syncCore = true → ∀ (i : ℕ) call, s.calls[i]? = some call →
    ∀ plan error, call.reply = some (.returned (some plan) error) →
      ∃ (k : ℕ) (job : AllocationJob Plan) (finishedAt : Instant), call.future = some k
        ∧ s.jobs[k]? = some job ∧ job.call = i ∧ job.ended = some (.plan plan, finishedAt)

theorem AllOwn.plansOwn (h : AllOwn syncCore s) : PlansOwn syncCore s := by
  intro hsync i call hcall plan error hreply
  cases hfuture : call.future with
  | none =>
    obtain ⟨reply, hsome, hnoPlan⟩ := (h i call hcall).noPlan hsync hfuture
    exact absurd (Option.some.inj (hsome.symm.trans hreply)) (hnoPlan plan error)
  | some k =>
    rcases (h i call hcall).reply k hfuture _ hreply with
      (hcancel | htimeout) | ⟨job, ending, time, hjob, hend, hout⟩
    · cases hcancel
    · cases htimeout
    · obtain ⟨job', hjob', hi⟩ := (h i call hcall).submitted k hfuture
      obtain rfl := Option.some.inj (hjob.symm.trans hjob')
      -- the only end that is answered with a plan is that plan
      have hplan : ending = .plan plan := by
        rcases ending with found | ⟨name, _ | _⟩ | _ <;> cases hout
        rfl
      exact ⟨k, job, time, rfl, hjob, hi, hplan ▸ hend⟩

/-- **Bounded allocation.** Let calls be made one after another, each of them ended by its job, by
    an exception of the job, by the deadline or by a cancellation, while the jobs go on in the
    worker thread as they please.  At most one submitted job runs at any time, with a synchronous
    allocator every plan returned is what the job submitted in that call ended with, and without
    one no job is ever submitted.  While the event loop is free at the deadlines, a job that ended
    at or after its own decides no reply of the call that waited for it. -/
theorem bounded_allocation_plan (clock : Instant) (schedule : List (AllocationAction Plan))
    (hone : Meets (allocationStep syncCore) OneAtATime (.initial clock) schedule) :
    let s := run (allocationStep syncCore) (.initial clock) schedule
    OneRunning s ∧ PlansOwn syncCore s ∧ (syncCore = false → s.jobs = [])
    ∧ (Meets (allocationStep syncCore) LoopFree (.initial clock) schedule → LateUnused s) := by
  intro s
  obtain ⟨hown, hsingle⟩ : AllOwn syncCore s ∧ SingleFlight s :=
    run_invariant (I := fun s => AllOwn syncCore s ∧ SingleFlight s)
      (fun s action hs hc => ⟨hs.1.step action, hs.2.step hs.1 action hc⟩)
      ⟨allOwn_initial clock, singleFlight_initial clock⟩ hone
  refine ⟨fun j k hj hk => ?_, hown.plansOwn, ?_, fun hfree => ?_⟩
  · exact Option.some.inj ((hsingle.running j hj).symm.trans (hsingle.running k hk))
  · rintro rfl
    exact run_invariant (I := fun s => s.jobs = []) (C := OneAtATime)
      (fun s action hs _ => jobs_step_of_no_syncCore hs action) rfl hone
  · exact (run_invariant (I := fun s => AllOwn syncCore s ∧ LateUnused s)
      (fun s action hs hc => ⟨hs.1.step action, hs.2.step hs.1 action hc⟩)
      ⟨allOwn_initial clock, fun _ _ _ _ hcall => absurd hcall.symm (Option.some_ne_none _)⟩
      hfree).2

/-- The first job outlives its call, a second call finds it running, and it ends before a third
    call, which submits a job of its own. -/
def outlivedCall : List (AllocationAction ℕ) :=
  [.begin, .tick 31000000, .expire 0, .begin, .finish 0 (.plan 7), .begin, .tick 1000000,
    .finish 1 (.plan 8), .wake 2]

/-- The job of the first call ends after its deadline and is thrown away; the second call finds it
    still running, and the third gets a plan of its own. -/
theorem bounded_allocation_plan_outlivedCall :
    ((run (allocationStep true) (.initial 0) outlivedCall).calls.map AllocationCall.reply
      = [some (.returned none (some "AllocationStageTimeout")),
        some (.returned none (some "AllocationStageStillRunning")),
        some (.returned (some 8) none)])
    ∧ LateUnused (run (allocationStep true) (.initial 0) outlivedCall) :=
  ⟨by decide, (bounded_allocation_plan 0 outlivedCall (by decide)).2.2.2 (by decide)⟩

/-- The event loop is busy from before the deadline on, the job ends after 45 seconds, and then the
    loop resumes the call. -/
def busyLoop : List (AllocationAction ℕ) :=
  [.begin, .tick 45000000, .finish 0 (.plan 7), .wake 0]

/-- A late plan is returned where the event loop was busy over the deadline. -/
theorem not_neverLate_busyLoop :
    ¬ ∀ (clock : Instant) (schedule : List (AllocationAction ℕ)),
      Meets (allocationStep true) OneAtATime (.initial clock) schedule →
      let s := run (allocationStep true) (.initial clock) schedule
      OneRunning s ∧ PlansOwn true s ∧ LateUnused s := by
  intro h
  obtain ⟨reply, hreply, hwithout⟩ := (h 0 busyLoop (by decide)).2.2 0 0
    ⟨some 0, some (.returned (some 7) none)⟩ ⟨0, 0, some (.plan 7, 45000000)⟩ rfl rfl rfl
    ⟨.plan 7, 45000000, rfl, by decide⟩
  obtain rfl := Option.some.inj hreply
  rcases hwithout with hcancel | htimeout
  · cases hcancel
  · cases htimeout

end InefficiencyEngine.Portfolio
