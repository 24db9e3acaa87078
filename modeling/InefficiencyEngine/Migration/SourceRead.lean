import InefficiencyEngine.Migration.World

namespace InefficiencyEngine.Migration

open Durable

/-!
# Reads of the source

`_source_read_with_retry` repeats a read that failed transiently, three times at most, and
counts the retries in the report.  A read either raises or returns what the source showed at
the attempt that succeeded (`sourceRead_run`), and changes nothing but the retries counted.
-/

variable {K V : Type} [LinearOrder K]

/-! ### The source's function -/

/-- `APPEND_ONLY_SOURCE_READ_RETRY_DELAYS_SECONDS`. -/
def sourceReadRetryDelaysSeconds : List ℚ := [1, 3, 8]

/-- `_TRANSIENT_SOURCE_READ_MARKERS`, with the marker that `install_bounded_market_inventory` adds
    to it in the process of the stage-one migration. -/
def transientSourceReadMarkers : List String :=
  ["unexpected eof while reading", "consuming input failed",
    "server closed the connection unexpectedly", "connection reset by peer",
    "ssl connection has been closed unexpectedly",
    "terminating connection due to administrator command",
    "the database system is in recovery mode",
    "the database system is not yet accepting connections",
    "consistent recovery state has not been yet reached",
    "connection refused"]

/-- `_is_transient_source_read_error`; errors of another class are not retried. -/
def isTransientSourceReadError (R : Runtime K V) : SourceError → Bool
  | .operational message =>
    transientSourceReadMarkers.any (fun marker => marker.toList <:+: (R.lower message).toList)
  | .other _ => false

section Reads

variable {α : Type} (R : Runtime K V) (src : Source K V)

/-- One attempt of a read: what `reader` returns on what the source shows, or the error. -/
def attemptRead (phase : String) (reader : KeyedTable K V → α) :
    MigrationProg K V (Except SourceError α) := do
  let s ← Prog.get
  Prog.write (.read phase)
  return match src.failure s.reads.length with
    | none => .ok (reader (src.snapshot s.reads.length))
    | some error => .error error

/-- The end of a successful read. -/
def finishRead (retried : Bool) (value : α) : MigrationProg K V α :=
  if retried then do
    publish (fun r => r.withTransport
      { r.transport with lastSourceRetryRecovered := some true })
    return value
  else return value

/-- The loop of `_source_read_with_retry`, with the delays that are left. Only a transient error
    is retried, one delay for each, and the report counts the retry before the next attempt. -/
def sourceReadLoop (phase : String) (reader : KeyedTable K V → α) :
    List ℚ → Bool → MigrationProg K V α
  | [], retried => do
    match ← attemptRead src phase reader with
    | .ok value => finishRead retried value
    | .error error => Prog.lift (.error (.sourceError error))
  | delay :: delays, retried => do
    match ← attemptRead src phase reader with
    | .ok value => finishRead retried value
    | .error error =>
      if isTransientSourceReadError R error then do
        publish (fun r => r.withTransport
          { r.transport with
            sourceTransportRetries := r.transport.sourceTransportRetries + 1
            lastSourceRetryPhase := some phase
            lastSourceRetryDelaySeconds := some delay
            lastSourceRetryRecovered := some false })
        sourceReadLoop phase reader delays true
      else Prog.lift (.error (.sourceError error))

/-- `_source_read_with_retry`. -/
def sourceReadWithRetry (phase : String) (reader : KeyedTable K V → α) : MigrationProg K V α :=
  sourceReadLoop R src phase reader sourceReadRetryDelaysSeconds false

/-- The attempt at which a read begun at the `n`-th one succeeds, if it does. -/
def Source.nextReadWithin (src : Source K V) : List ℚ → ℕ → Option ℕ
  | [], n =>
    match src.failure n with
    | none => some n
    | some _ => none
  | _ :: delays, n =>
    match src.failure n with
    | none => some n
    | some error =>
      if isTransientSourceReadError R error then src.nextReadWithin delays (n + 1) else none

/-- The attempt at which `_source_read_with_retry` succeeds. -/
def Source.nextRead (src : Source K V) (n : ℕ) : Option ℕ :=
  src.nextReadWithin R sourceReadRetryDelaysSeconds n

variable {R src}

theorem Source.le_of_nextReadWithin {delays : List ℚ} {n i : ℕ}
    (h : src.nextReadWithin R delays n = some i) : n ≤ i := by
  induction delays generalizing n with
  | nil =>
    rw [nextReadWithin] at h
    split at h
    · exact Nat.le_of_eq (Option.some.inj h)
    · cases h
  | cons delay delays ih =>
    rw [nextReadWithin] at h
    split at h
    · exact Nat.le_of_eq (Option.some.inj h)
    · split at h
      · exact Nat.le_of_succ_le (ih h)
      · cases h

/-- A read succeeds at once if its first attempt does. -/
theorem Source.nextRead_of_none {n : ℕ} (h : src.failure n = none) :
    src.nextRead R n = some n := by
  rw [nextRead, sourceReadRetryDelaysSeconds, nextReadWithin, h]

end Reads

/-! ### What a read does -/

/-- The two kinds of writes a read makes. -/
inductive ReadStep (phase : String) (s : World K V) : List (Write K V) → Prop
  | read : ReadStep phase s [.read phase]
  | publish (transport : TransportReport) :
      ReadStep phase s [.publish (s.report.withTransport transport)]

/-- The world after a read that succeeded at attempt `i`. -/
structure AfterRead (phase : String) (i : ℕ) (s s' : World K V) : Prop where
  target : s'.target = s.target
  report : ∃ transport, s'.report = s.report.withTransport transport
  reads : ∃ k, s'.reads = s.reads ++ List.replicate k phase ++ [phase] ∧ s.reads.length + k = i

namespace AfterRead

variable {phase : String} {i : ℕ} {s s' s'' : World K V}

theorem start_le (h : AfterRead phase i s s') : s.reads.length ≤ i := by
  obtain ⟨k, -, hk⟩ := h.reads
  exact hk ▸ Nat.le_add_right _ _

theorem length_reads (h : AfterRead phase i s s') : s'.reads.length = i + 1 := by
  obtain ⟨k, hreads, hk⟩ := h.reads
  rw [hreads, List.length_append, List.length_append, List.length_replicate, hk]
  rfl

end AfterRead

section Runs

variable {α : Type} {R : Runtime K V} {src : Source K V} {phase : String}
  {reader : KeyedTable K V → α}

theorem attemptRead_of_none {s : World K V} (h : src.failure s.reads.length = none) :
    attemptRead src phase reader s
      = ([Write.read phase], .ok (.ok (reader (src.snapshot s.reads.length)))) := by
  show ([Write.read phase], Except.ok (match src.failure s.reads.length with
    | none => _
    | some error => _)) = _
  rw [h]

theorem attemptRead_of_some {s : World K V} {error : SourceError}
    (h : src.failure s.reads.length = some error) :
    attemptRead src phase reader s = ([Write.read phase], .ok (.error error)) := by
  show ([Write.read phase], Except.ok (match src.failure s.reads.length with
    | none => _
    | some error => _)) = _
  rw [h]

theorem finishRead_run (phase : String) (retried : Bool) (value : α) (s : World K V) :
    ∃ ws, finishRead retried value s = (ws, .ok value) ∧ Along (ReadStep phase) s ws
      ∧ ∃ transport, commitAll s ws
          = { s with report := s.report.withTransport transport } := by
  cases retried with
  | false => exact ⟨[], rfl, Along.nil s, s.report.transport, rfl⟩
  | true => exact ⟨_, rfl, Along.single (.publish _), _, rfl⟩

/-- An attempt that succeeds ends the read. -/
theorem attempt_finish {s : World K V} {f : Except SourceError α → MigrationProg K V α}
    (h : src.failure s.reads.length = none) (retried : Bool)
    (hf : ∀ value, f (.ok value) = finishRead retried value) :
    ∃ ws, Along (ReadStep phase) s ws
      ∧ (attemptRead src phase reader >>= f) s
          = (ws, .ok (reader (src.snapshot s.reads.length)))
      ∧ AfterRead phase s.reads.length s (commitAll s ws) := by
  obtain ⟨ws, hrun, halong, transport, hcommit⟩ := finishRead_run phase retried
    (reader (src.snapshot s.reads.length)) (commitAll s [(Write.read phase : Write K V)])
  refine ⟨[Write.read phase] ++ ws, Along.cons .read halong, ?_, ?_⟩
  · rw [Prog.run_bind_of_ok (attemptRead_of_none h), hf, hrun]
  · rw [commitAll_append, hcommit]
    refine ⟨rfl, ⟨transport, rfl⟩, 0, ?_, rfl⟩
    rw [List.replicate_zero, List.append_nil]
    rfl

/-- An attempt that fails for good raises. -/
theorem attempt_raise {s : World K V} {f : Except SourceError α → MigrationProg K V α}
    {error : SourceError} (h : src.failure s.reads.length = some error)
    (hf : f (.error error) = Prog.lift (.error (.sourceError error))) :
    ∃ ws, Along (ReadStep phase) s ws
      ∧ ∃ error, (attemptRead src phase reader >>= f) s = (ws, .error (.sourceError error)) := by
  refine ⟨[Write.read phase], Along.single .read, error, ?_⟩
  rw [Prog.run_bind_of_ok (attemptRead_of_some h), hf]
  rfl

/-- **Read.** The loop of `_source_read_with_retry` returns what the source shows at the attempt
    that succeeds, or raises. Each transient failure consumes one delay and writes one report,
    so the induction is on the delays that are left. -/
theorem sourceReadLoop_run (delays : List ℚ) (retried : Bool) (s : World K V) :
    ∃ ws, Along (ReadStep phase) s ws ∧ match src.nextReadWithin R delays s.reads.length with
      | some i => sourceReadLoop R src phase reader delays retried s
            = (ws, .ok (reader (src.snapshot i)))
          ∧ AfterRead phase i s (commitAll s ws)
      | none => ∃ error, sourceReadLoop R src phase reader delays retried s
            = (ws, .error (.sourceError error)) := by
  induction delays generalizing retried s with
  -- no delay is left: the last attempt returns or raises
  | nil =>
    rw [Source.nextReadWithin]
    cases hfailure : src.failure s.reads.length with
    | none => exact attempt_finish hfailure retried (fun _ => rfl)
    | some error => exact attempt_raise hfailure rfl
  | cons delay delays ih =>
    rw [Source.nextReadWithin]
    cases hfailure : src.failure s.reads.length with
    | none => exact attempt_finish hfailure retried (fun _ => rfl)
    | some error =>
      dsimp only
      cases htransient : isTransientSourceReadError R error with
      -- an error that is not transient is raised at once
      | false =>
        rw [if_neg (by decide)]
        refine attempt_raise hfailure ?_
        dsimp only
        rw [htransient, if_neg (by decide)]
      | true =>
        rw [if_pos rfl]
        -- The failed attempt and the report on it come before the reads of the loop.
        let s' : World K V := commitAll s [(Write.read phase : Write K V)]
        let transport : TransportReport :=
          { s.report.transport with
            sourceTransportRetries := s.report.transport.sourceTransportRetries + 1
            lastSourceRetryPhase := some phase
            lastSourceRetryDelaySeconds := some delay
            lastSourceRetryRecovered := some false }
        let w : Write K V := .publish (s'.report.withTransport transport)
        obtain ⟨ws, halong, hrun⟩ := ih true (commitAll s' [w])
        have hlength : (commitAll s' [w]).reads.length = s.reads.length + 1 :=
          List.length_append
        have hsequence : ∀ {result}, sourceReadLoop R src phase reader delays true
              (commitAll s' [w]) = (ws, result) →
            sourceReadLoop R src phase reader (delay :: delays) retried s
              = ([.read phase] ++ ([w] ++ ws), result) := by
          intro result hresult
          rw [sourceReadLoop, Prog.run_bind_of_ok (attemptRead_of_some hfailure)]
          dsimp only
          rw [htransient, if_pos rfl, Prog.run_bind_of_ok (publish_run _ _)]
          show ([Write.read phase] ++ ([w] ++ (sourceReadLoop R src phase reader delays true
            (commitAll s' [w])).1), _) = _
          rw [hresult]
          exact congrArg (Prod.mk _) (congrArg Prod.snd hresult)
        refine ⟨[.read phase] ++ ([w] ++ ws),
          Along.cons .read (Along.cons (.publish transport) halong), ?_⟩
        rw [hlength] at hrun
        cases hnext : src.nextReadWithin R delays (s.reads.length + 1) with
        | none =>
          rw [hnext] at hrun
          obtain ⟨error', hraise⟩ := hrun
          exact ⟨error', hsequence hraise⟩
        -- the attempt of the rest that succeeds is the one of the whole, one read later
        | some i =>
          rw [hnext] at hrun
          obtain ⟨hresult, htarget, ⟨transport', hreport⟩, k, hreads, hk⟩ := hrun
          rw [hlength] at hk
          refine ⟨hsequence hresult, htarget, ⟨transport', hreport⟩, k + 1, ?_, by omega⟩
          rw [commitAll_append, commitAll_append, hreads, List.replicate_succ]
          show (s.reads ++ [phase]) ++ List.replicate k phase ++ [phase] = _
          rw [List.append_assoc s.reads]
          rfl

/-- `_source_read_with_retry`. A read with its retries returns what the source shows at the
    first moment it answers, and raises if it never does; it writes its reports only. -/
theorem sourceRead_run (R : Runtime K V) (src : Source K V) (phase : String)
    (reader : KeyedTable K V → α) (s : World K V) :
    ∃ ws, Along (ReadStep phase) s ws ∧ match src.nextRead R s.reads.length with
      | some i => sourceReadWithRetry R src phase reader s = (ws, .ok (reader (src.snapshot i)))
          ∧ AfterRead phase i s (commitAll s ws)
      | none => ∃ error, sourceReadWithRetry R src phase reader s
            = (ws, .error (.sourceError error)) :=
  sourceReadLoop_run sourceReadRetryDelaysSeconds false s

end Runs

end InefficiencyEngine.Migration
