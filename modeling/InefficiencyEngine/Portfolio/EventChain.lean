import InefficiencyEngine.Lib.HashChain
import InefficiencyEngine.Lib.Lines
import InefficiencyEngine.Lib.Machine
import InefficiencyEngine.Portfolio.Sample

namespace InefficiencyEngine.Portfolio

/-!
# The event log under concurrent writers

`record_event` reads the last hash on one connection and inserts its row in a later
transaction of another, so that any other writer can insert between the two.  Every run
leaves a log of sealed rows with different hashes, and the log is one chain exactly if no
call inserts on a hash that another call's row has followed (`chain_iff_serialized`).
-/

/-! ### The machine -/

/-- A call of `record_event` that has read the last hash. -/
structure PendingEvent where
  event : CanonicalPortfolioEvent
  /-- The hash it read. -/
  previous : Option String
  /-- How many rows there were when it read. -/
  position : ℕ

/-- The event log and what each writer has read. -/
structure EventWriters where
  rows : List EventRow
  pending : ℕ → Option PendingEvent

namespace EventWriters

/-- An empty log. -/
def start : EventWriters := ⟨[], fun _ => none⟩

end EventWriters

/-- The actions of a writer. -/
inductive EventAction
  /-- Start `record_event` and read the last hash. -/
  | read (writer : ℕ) (event : CanonicalPortfolioEvent)
  /-- The transaction of the call. -/
  | commit (writer : ℕ)
  /-- The call ends before its transaction. -/
  | crash (writer : ℕ)

namespace EventWriters

/-- What an action does.  An event of another portfolio raises before anything is read. -/
def step (R : Runtime) (s : EventWriters) : EventAction → EventWriters
  | .read writer event =>
    if event.portfolioId ≠ canonicalPortfolioId then s
    else
      { s with
        pending := Function.update s.pending writer
          (some ⟨event, lastEventHash s.rows, s.rows.length⟩) }
  | .commit writer =>
    match s.pending writer with
    | none => s
    | some call =>
      { rows := insertEventRow s.rows (EventRow.link R call.previous call.event)
        pending := Function.update s.pending writer none }
  | .crash writer => { s with pending := Function.update s.pending writer none }

/-- A single writer's call is the recording function of the portfolio service. -/
theorem step_recordEvent (R : Runtime) (s : PortfolioStore) (pending : ℕ → Option PendingEvent)
    (writer : ℕ) (event : CanonicalPortfolioEvent)
    (h : event.portfolioId = canonicalPortfolioId) :
    (run (step R) ⟨s.rows, pending⟩ [.read writer event, .commit writer]).rows
      = (commitAll s (recordEvent R event s).1).rows := by
  rw [recordEvent, if_neg (not_not.mpr h), run_cons, run_cons, run_nil, step,
    if_neg (not_not.mpr h), step]
  dsimp only
  rw [Function.update_self]
  rfl

end EventWriters

/-! ### Chains of events -/

/-- How the rows of the event log are hashed. -/
def eventFormat (R : Runtime) : HashFormat EventRow String CanonicalPortfolioEvent where
  previous := EventRow.previousLineageHash
  payload := EventRow.event
  hash := EventRow.lineageHash
  digest previous event := R.sha256 (lineageText R previous event)

/-- A transaction that inserts a row finds the log as its call read it. -/
def Serialized (s : EventWriters) : EventAction → Prop
  | .commit writer => ∀ call ∈ s.pending writer,
    s.rows.any (fun r => r.event.eventId = call.event.eventId) = false →
      s.rows.length = call.position
  | _ => True

/-- A hash is written without the separator of `lineageText`. -/
def IsHex (hash : Option String) : Prop := ∀ text ∈ hash, '|' ∉ text.toList

/-- The hashed text determines the event. -/
theorem lineageText_injective {R : Runtime} {previous previous' : Option String}
    {event event' : CanonicalPortfolioEvent} (hprevious : IsHex previous)
    (hprevious' : IsHex previous')
    (h : lineageText R previous event = lineageText R previous' event') : event = event' := by
  have hfree : ∀ {p : Option String}, IsHex p → '|' ∉ (orText p "").toList := by
    intro p hp
    cases p with
    | none => exact List.not_mem_nil
    | some text =>
      rw [orText]
      split
      · exact List.not_mem_nil
      · exact hp text rfl
  have htext : ∀ (p : Option String) (e : CanonicalPortfolioEvent),
      (lineageText R p e).toList = (orText p "").toList ++ '|' :: (R.eventJson e).toList := by
    intro p e
    rw [lineageText, String.toList_append, String.toList_append, List.append_assoc]
    rfl
  have hlist := congrArg String.toList h
  rw [htext, htext] at hlist
  have hjson := (append_separator_inj (hfree hprevious) (hfree hprevious') hlist).2
  exact R.eventJson_injective (String.toList_injective hjson)

/-- What every row shows: an event of the canonical portfolio under the hash of its
    predecessor's hash and its payload. -/
structure Recorded (R : Runtime) (row : EventRow) : Prop where
  canonical : row.event.portfolioId = canonicalPortfolioId
  hex : IsHex row.previousLineageHash
  isSealed : (eventFormat R).Sealed row

/-- Between recorded rows the filter of `_last_event_hash` drops nothing. -/
theorem lastEventHash_of_recorded {R : Runtime} {rows : List EventRow}
    (h : ∀ row ∈ rows, Recorded R row) :
    lastEventHash rows = (eventFormat R).lastHash rows := by
  rw [lastEventHash, List.filter_eq_self.mpr]
  · rfl
  · exact fun row hrow => decide_eq_true (h row hrow).canonical

/-- The last hash of recorded rows is a digest. -/
theorem isHex_lastHash {R : Runtime} {rows : List EventRow} (h : ∀ row ∈ rows, Recorded R row) :
    IsHex ((eventFormat R).lastHash rows) := by
  intro text htext
  obtain ⟨row, hrow, rfl⟩ := Option.map_eq_some_iff.mp htext
  have hsealed := (h row (List.mem_of_getLast? hrow)).isSealed
  show '|' ∉ ((eventFormat R).hash row).toList
  rw [show (eventFormat R).hash row = _ from hsealed]
  exact R.sha256_hex _

/-- Recorded rows of different event ids have different hashes. -/
theorem nodup_hashes {R : Runtime} {rows : List EventRow} (h : ∀ row ∈ rows, Recorded R row)
    (hids : (rows.map (fun row => row.event.eventId)).Nodup) :
    (rows.map (eventFormat R).hash).Nodup := by
  rw [List.nodup_map_iff_inj_on (List.Nodup.of_map _ hids)]
  intro row hrow row' hrow' heq
  have hevent : row.event = row'.event := by
    refine lineageText_injective (R := R) (h row hrow).hex (h row' hrow').hex
      (R.sha256_injective ?_)
    exact (h row hrow).isSealed.symm.trans (heq.trans (h row' hrow').isSealed)
  exact List.inj_on_of_nodup_map hids hrow hrow' (congrArg CanonicalPortfolioEvent.eventId hevent)

/-! ### Runs -/

/-- What holds between any two actions. -/
structure EventWriters.Inv (R : Runtime) (s : EventWriters) : Prop where
  recorded : ∀ row ∈ s.rows, Recorded R row
  distinct : (s.rows.map (fun row => row.event.eventId)).Nodup
  pending : ∀ writer call, s.pending writer = some call →
    call.event.portfolioId = canonicalPortfolioId ∧ call.position ≤ s.rows.length
      ∧ call.previous = (eventFormat R).lastHash (s.rows.take call.position)

section Runs

variable {R : Runtime} {s : EventWriters}

/-- What a transaction does: nothing, or one row on top of the hash its call read. -/
theorem EventWriters.step_rows (R : Runtime) (s : EventWriters) (action : EventAction) :
    (s.step R action).rows = s.rows ∧ Serialized s action
      ∨ ∃ writer call, action = .commit writer ∧ s.pending writer = some call
        ∧ s.rows.any (fun r => r.event.eventId = call.event.eventId) = false
        ∧ (s.step R action).rows = s.rows ++ [EventRow.link R call.previous call.event] := by
  cases action with
  -- a read inserts nothing
  | read writer event =>
    refine Or.inl ⟨?_, trivial⟩
    unfold EventWriters.step
    dsimp only
    split <;> rfl
  | commit writer =>
    cases hcall : s.pending writer with
    | none =>
      -- a commit without a call under way does nothing
      refine Or.inl ⟨by rw [EventWriters.step, hcall], fun call h => ?_⟩
      rw [hcall] at h
      cases h
    | some call =>
      have hstep : (s.step R (.commit writer)).rows
          = insertEventRow s.rows (EventRow.link R call.previous call.event) := by
        rw [EventWriters.step, hcall]
      rw [hstep]
      unfold insertEventRow
      split
      -- the event is stored already, so the insert is ignored
      · rename_i hstored
        refine Or.inl ⟨rfl, fun call' h hfresh => ?_⟩
        rw [hcall, Option.mem_some_iff] at h
        subst h
        exact absurd hstored (Bool.eq_false_iff.mp hfresh)
      -- the row is linked to the hash read at the start of the call
      · rename_i hfresh
        exact Or.inr ⟨writer, call, rfl, hcall, Bool.eq_false_iff.mpr hfresh, rfl⟩
  | crash writer => exact Or.inl ⟨rfl, trivial⟩

/-- What a call has read stays what it read, however many rows follow. -/
theorem EventWriters.Inv.pending_append (h : s.Inv R) (rows : List EventRow) {writer : ℕ}
    {call : PendingEvent} (hcall : s.pending writer = some call) :
    call.event.portfolioId = canonicalPortfolioId ∧ call.position ≤ (s.rows ++ rows).length
      ∧ call.previous = (eventFormat R).lastHash ((s.rows ++ rows).take call.position) := by
  obtain ⟨hcanonical, hposition, hprevious⟩ := h.pending writer call hcall
  refine ⟨hcanonical, ?_, ?_⟩
  · rw [List.length_append]
    exact Nat.le_add_right_of_le hposition
  · rw [List.take_append_of_le_length hposition, hprevious]

/-- A row about to be inserted is a recorded one. -/
theorem EventWriters.Inv.link (h : s.Inv R) {writer : ℕ} {call : PendingEvent}
    (hcall : s.pending writer = some call) :
    Recorded R (EventRow.link R call.previous call.event) := by
  obtain ⟨hcanonical, -, hprevious⟩ := h.pending writer call hcall
  refine ⟨hcanonical, ?_, rfl⟩
  show IsHex call.previous
  rw [hprevious]
  exact isHex_lastHash (fun row hrow => h.recorded row (List.mem_of_mem_take hrow))

theorem EventWriters.Inv.step (h : s.Inv R) (action : EventAction) : (s.step R action).Inv R := by
  -- a writer that ends drops its own call and leaves the calls of the others
  have hend : ∀ writer (rows : List EventRow) writer' call,
      Function.update s.pending writer none writer' = some call →
        call.event.portfolioId = canonicalPortfolioId ∧ call.position ≤ (s.rows ++ rows).length
          ∧ call.previous = (eventFormat R).lastHash ((s.rows ++ rows).take call.position) := by
    intro writer rows writer' call hcall
    rcases eq_or_ne writer' writer with rfl | hne
    · rw [Function.update_self] at hcall
      cases hcall
    · rw [Function.update_of_ne hne] at hcall
      exact h.pending_append rows hcall
  cases action with
  | read writer event =>
    unfold EventWriters.step
    dsimp only
    split
    -- the event is of another portfolio, and nothing is read
    · exact h
    · rename_i hcanonical
      refine ⟨h.recorded, h.distinct, fun writer' call hcall => ?_⟩
      dsimp only at hcall ⊢
      rcases eq_or_ne writer' writer with rfl | hne
      · rw [Function.update_self, Option.some.injEq] at hcall
        subst hcall
        refine ⟨not_not.mp hcanonical, le_rfl, ?_⟩
        rw [List.take_length]
        exact lastEventHash_of_recorded h.recorded
      · rw [Function.update_of_ne hne] at hcall
        exact h.pending writer' call hcall
  | commit writer =>
    unfold EventWriters.step
    dsimp only
    split
    -- the writer has nothing pending
    · exact h
    · rename_i call hcall
      unfold insertEventRow
      split
      -- the event id is stored already, so the insertion adds no row
      · refine ⟨h.recorded, h.distinct, fun writer' call' h' => ?_⟩
        have hcall' := hend writer [] writer' call' h'
        rwa [List.append_nil] at hcall'
      -- the row is appended behind the rows that its writer had read
      · rename_i hfresh
        refine ⟨?_, ?_, hend writer _⟩
        · intro row hrow
          rcases List.mem_append.mp hrow with hrow | hrow
          · exact h.recorded row hrow
          · rw [List.mem_singleton.mp hrow]
            exact h.link hcall
        · rw [List.map_append, List.nodup_append]
          refine ⟨h.distinct, List.nodup_singleton _, ?_⟩
          rintro _ hid _ hnew rfl
          obtain ⟨row, hrow, heq⟩ := List.mem_map.mp hid
          rw [List.map_singleton, List.mem_singleton] at hnew
          exact hfresh (List.any_eq_true.mpr ⟨row, hrow, decide_eq_true (heq.trans hnew)⟩)
  | crash writer =>
    refine ⟨h.recorded, h.distinct, fun writer' call h' => ?_⟩
    have hcall' := hend writer [] writer' call h'
    rwa [List.append_nil] at hcall'

/-- **Step.** The log is a chain after an action exactly if it was one before and the
    action is serialized: no later row repairs a fork. -/
theorem EventWriters.Inv.chain_step (h : s.Inv R) (action : EventAction) :
    (eventFormat R).Chain (s.step R action).rows
      ↔ (eventFormat R).Chain s.rows ∧ Serialized s action := by
  rcases EventWriters.step_rows R s action with
    ⟨hrows, hserialized⟩ | ⟨writer, call, rfl, hcall, hfresh, hrows⟩
  · rw [hrows, and_iff_left hserialized]
  · obtain ⟨-, hposition, hprevious⟩ := h.pending writer call hcall
    have hserialized : Serialized s (.commit writer) ↔ call.position = s.rows.length := by
      constructor
      · exact fun hs => (hs call hcall hfresh).symm
      · intro heq call' hcall' _
        rw [hcall, Option.mem_some_iff] at hcall'
        rw [← hcall', heq]
    have hlast : call.previous = (eventFormat R).lastHash s.rows
        ↔ call.position = s.rows.length := by
      rw [hprevious]
      exact (eventFormat R).lastHash_take_eq_iff (nodup_hashes h.recorded h.distinct) hposition
    rw [hrows, (eventFormat R).chain_append_singleton, hserialized, ← hlast]
    exact ⟨fun ⟨hchain, heq, _⟩ => ⟨hchain, heq⟩, fun ⟨hchain, heq⟩ => ⟨hchain, heq, rfl⟩⟩

end Runs

theorem EventWriters.inv_start (R : Runtime) : EventWriters.start.Inv R where
  recorded row hrow := by cases hrow
  distinct := List.nodup_nil
  pending writer call h := by cases h

/-- **One chain.** After any run of any number of writers the event log is one hash chain
    exactly if every transaction that inserted a row found the log as its call had read
    it. -/
theorem chain_iff_serialized (R : Runtime) (schedule : List EventAction) :
    (eventFormat R).Chain (run (EventWriters.step R) EventWriters.start schedule).rows
      ↔ Meets (EventWriters.step R) Serialized EventWriters.start schedule := by
  suffices h : ∀ s : EventWriters, s.Inv R →
      ((eventFormat R).Chain (run (EventWriters.step R) s schedule).rows
        ↔ (eventFormat R).Chain s.rows ∧ Meets (EventWriters.step R) Serialized s schedule) by
    rw [h _ (EventWriters.inv_start R)]
    exact and_iff_right (eventFormat R).chain_nil
  induction schedule with
  | nil => exact fun s _ => (and_iff_left trivial).symm
  | cons action rest ih =>
    intro s hs
    rw [run_cons, ih _ (hs.step action), hs.chain_step action, and_assoc]
    rfl

/-- Two writers that both read the empty log store two first rows, neither of which is linked to
    the other. -/
theorem not_chain_of_two_reads :
    ¬ ∀ (R : Runtime) (schedule : List EventAction),
      (eventFormat R).Chain (run (EventWriters.step R) EventWriters.start schedule).rows := by
  intro h
  have hchain := h Runtime.sample [.read 0 (genesisEvent 0 0), .read 1 (genesisEvent 1 0),
    .commit 0, .commit 1]
  have hrows : (run (EventWriters.step Runtime.sample) EventWriters.start
      [.read 0 (genesisEvent 0 0), .read 1 (genesisEvent 1 0), .commit 0, .commit 1]).rows
      = [EventRow.link Runtime.sample none (genesisEvent 0 0),
          EventRow.link Runtime.sample none (genesisEvent 1 0)] := rfl
  rw [hrows] at hchain
  obtain ⟨hprevious, -⟩ := hchain 1 _ rfl
  cases hprevious

end InefficiencyEngine.Portfolio
