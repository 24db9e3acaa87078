import InefficiencyEngine.History.QuoteText
import InefficiencyEngine.History.Reading
import InefficiencyEngine.Lib.StoreView

namespace InefficiencyEngine.History

open Portfolio Durable Prog

/-!
# Market quotes in two stores

With the file backend, `record_scan` appends the quotes of a scan to the file history and then
inserts them into the relational table `market_quotes`; a migration appends rows of the table to
the same history.  Both rely on the lineage hash to recognize a quote they have stored before,
but the live append hashes `model_dump_json`, which writes the fields in the order of the class,
and the table hashes `_json`, which sorts them.

So every row of the table is in the history, whatever fails, and a quote is stored once by either
path alone; a quote that both paths deliver is stored twice.
-/

/-! ### The two stores -/

/-- The file history and the relational table, whose ids are positions. -/
structure DualWorld where
  history : HistoryWorld
  marketQuotes : List QuoteRecord

/-- A durable step on either store. -/
inductive DualWrite
  | history (write : HistoryWrite)
  /-- The relational transaction of a scan. -/
  | insertScan (quotes : List QuoteRecord)

/-- What a durable step does. -/
def DualWorld.commit (w : DualWorld) : DualWrite → DualWorld
  | .history write => { w with history := w.history.commit write }
  | .insertScan quotes => { w with marketQuotes := w.marketQuotes ++ quotes }

instance : Durable DualWorld DualWrite := ⟨DualWorld.commit⟩

/-- A step on the two stores. -/
abbrev DualProg := Prog DualWorld DualWrite Raised

/-- The file history as a part of the two stores. -/
def historyView : StoreView HistoryWorld HistoryWrite DualWorld DualWrite :=
  ⟨DualWorld.history, DualWrite.history, fun _ _ => rfl⟩

/-- A delivery of quotes to the file history. -/
inductive DualCall
  /-- `record_scan` with the market quotes of a scan. -/
  | scan (quotes : List QuoteRecord)
  /-- The migration of some rows of `market_quotes`, by position. -/
  | migration (ids : List ℕ)

section Programs

variable (R : HistoryRuntime) (S : QuoteRuntime) (op : Operation)

/-- Open a `PartitionedMarketHistory`, which reaps garbage, and append. -/
def appendThrough (records : List HistoryRecord) : HistoryProg ℕ := do
  let _ ← reapCompactionGarbage op 0
  appendRecords R op .fine records

/-- The market-quote part of `record_scan`. -/
def recordScan (relationalFails : Bool) (quotes : List QuoteRecord) : DualProg Unit := do
  let _ ← (appendThrough R op (quotes.map S.liveRecord)).within historyView
  if relationalFails then
    Prog.lift (.error (.external "SQLAlchemyError"))
  else
    Prog.write (.insertScan quotes)

/-- The rows of the table that a migration hands over. -/
def QuoteRuntime.importRecords (ids : List ℕ) (marketQuotes : List QuoteRecord) :
    List HistoryRecord :=
  ids.filterMap (fun id => (marketQuotes[id]?).map (S.importRecord id))

/-- The migration of some rows. -/
def importRows (ids : List ℕ) : DualProg Unit := do
  let w ← Prog.get
  let _ ← (appendThrough R op (S.importRecords ids w.marketQuotes)).within historyView
  pure ()

/-- A delivery. -/
def DualCall.prog (relationalFails : Bool) : DualCall → DualProg Unit
  | .scan quotes => recordScan R S op relationalFails quotes
  | .migration ids => importRows R S op ids

end Programs

/-- The records a delivery hands to the file history. -/
def DualCall.records (S : QuoteRuntime) (w : DualWorld) : DualCall → List HistoryRecord
  | .scan quotes => quotes.map S.liveRecord
  | .migration ids => S.importRecords ids w.marketQuotes

/-- A delivery, what goes wrong in it, and after how many writes it stops, if it does. -/
structure DualAction where
  call : DualCall
  faults : Faults
  relationalFails : Bool
  stop : Option ℕ

/-- The two stores, the number of deliveries begun, and the rows whose migration returned. -/
structure DualState where
  started : ℕ
  world : DualWorld
  imported : List ℕ

/-- An empty history next to a table with rows from before. -/
def DualState.initial (legacy : List QuoteRecord) : DualState := ⟨0, ⟨.empty, legacy⟩, []⟩

section Step

variable (R : HistoryRuntime) (S : QuoteRuntime)

/-- The rows whose migration has just returned. -/
def DualAction.returned (state : DualState) (action : DualAction) : List ℕ :=
  match action.call, action.stop, (action.call.prog R S ⟨state.started, action.faults⟩
      action.relationalFails state.world).2 with
  | .migration ids, none, .ok _ => ids.filter (fun id => id < state.world.marketQuotes.length)
  | _, _, _ => []

/-- What a delivery leaves, wherever it stops. -/
def dualStep (state : DualState) (action : DualAction) : DualState where
  started := state.started + 1
  world := (action.call.prog R S ⟨state.started, action.faults⟩ action.relationalFails).leaves
    state.world action.stop
  imported := state.imported ++ action.returned R S state

end Step

/-! ### What a delivery keeps -/

section Rule

variable {R : HistoryRuntime} {S : QuoteRuntime} {op : Operation}
variable {rows : List (GroupKey × HistoryRow)} {records : List HistoryRecord}

/-- An append through a history that was just opened. -/
theorem exits_appendThrough (hlineage : ∀ record ∈ records, record.lineage ≠ "") :
    Exits (fun w => w.Holds R op.run 0 rows) (appendThrough R op records)
      (SafeStep R op.run (FromRecords R .fine records)) (fun _ w => w.HasStored records)
      (fun _ _ => op.Faulty) := by
  refine exits_of_forall (fun w hw => ?_)
  have hreap : Exits w.Frozen (reapCompactionGarbage op 0)
      (SafeStep R op.run (FromRecords R .fine records)) (fun _ => w.Frozen)
      (fun _ _ => op.Faulty) := exits_reapCompactionGarbage
  refine exits_bind (hreap.pre (fun s hs => hs ▸ HistoryWorld.Frozen.refl w)) (fun _ => ?_)
  exact ((exits_appendRecords hlineage).pre (fun s hs => hw.frozen hs)).conseq
    (fun _ s hs => hs.1)

/-- The lineages of a delivery are not empty. -/
theorem DualCall.lineage_ne_empty (call : DualCall) (w : DualWorld) :
    ∀ record ∈ call.records S w, record.lineage ≠ "" := by
  intro record hrecord
  cases call with
  | scan quotes =>
    obtain ⟨quote, -, rfl⟩ := List.mem_map.mp hrecord
    exact S.sha256_ne_empty _
  | migration ids =>
    obtain ⟨id, -, hsome⟩ := List.mem_filterMap.mp hrecord
    obtain ⟨quote, -, rfl⟩ := Option.map_eq_some_iff.mp hsome
    exact S.sha256_ne_empty _

variable (op) in
/-- **Delivery rule.** What the safe writes of the records keep, and the insertion of a scan
    whose quotes are stored, holds wherever a delivery stops. A delivery first appends the
    records to the lake and then inserts the scan, which may fail, so the rule has one
    hypothesis for the safe writes and one for the insertion. -/
theorem dualCall_invariant {I : DualWorld → Prop} {w : DualWorld} {call : DualCall}
    (hw : w.history.Holds R op.run 0 rows)
    (hhistory : ∀ t write added, I t → t.history.Safe R op.run write added →
      (∀ item ∈ added, FromRecords R .fine (call.records S w) item) →
      I (commit t (DualWrite.history write)))
    (hscan : ∀ quotes, call = .scan quotes → ∀ t, I t →
      t.history.HasStored (quotes.map S.liveRecord) → I (commit t (DualWrite.insertScan quotes)))
    (relationalFails : Bool) (hI : I w) (stop : Option ℕ) :
    I ((call.prog R S op relationalFails).leaves w stop) := by
  -- a block is one safe write of the lake
  have hblock : ∀ t block, True →
      SafeStep R op.run (FromRecords R .fine (call.records S w)) t.history block →
      Along.Keeps I t (block.map DualWrite.history) := by
    rintro t block - ⟨write, added, rfl, hsafe, hadded⟩ ht n
    cases n with
    | zero => exact ht
    | succ n =>
      have htake : ([write].map DualWrite.history).take (n + 1) = [.history write] := by simp
      rw [htake]
      exact hhistory t write added ht hsafe hadded
  have happend : Spec (fun w => w.Holds R op.run 0 rows) (appendThrough R op (call.records S w))
      (SafeStep R op.run (FromRecords R .fine (call.records S w)))
      (fun _ s => s.HasStored (call.records S w)) :=
    (exits_appendThrough (call.lineage_ne_empty w)).toSpec
  have hwithin : Spec (fun t => t.history.Holds R op.run 0 rows ∧ True)
      ((appendThrough R op (call.records S w)).within historyView) (Along.Keeps I)
      (fun _ t => t.history.HasStored (call.records S w) ∧ True) :=
    spec_within (v := historyView) (F := fun _ => True) happend (fun _ _ _ => trivial) hblock
  -- both kinds of delivery append their records; a scan is inserted behind them
  have hprog : Spec (fun t => t = w) (call.prog R S op relationalFails) (Along.Keeps I)
      (fun _ _ => True) := by
    cases call with
    | scan quotes =>
      refine spec_bind (hwithin.pre (fun t ht => ht ▸ ⟨hw, trivial⟩)) (fun _ => ?_)
      cases relationalFails with
      | true => exact spec_raise _
      | false =>
        refine (spec_write _).pre (fun t ht => ⟨fun hIt n => ?_, trivial⟩)
        cases n with
        | zero => exact hIt
        | succ n =>
          have htake : [DualWrite.insertScan quotes].take (n + 1) = [.insertScan quotes] := by simp
          rw [htake]
          exact hscan quotes rfl t hIt ht.1
    | migration ids =>
      refine spec_get_bind (fun t ht => ?_)
      subst ht
      refine spec_bind (hwithin.pre (fun t ht => ht ▸ ⟨hw, trivial⟩)) (fun _ => ?_)
      exact (spec_pure (Q := fun _ _ => True) ()).pre (fun _ _ => trivial)
  exact leaves_invariant ((hprog.guarantee w rfl).keeps hI) stop

/-- The quotes a delivery inserts into the table. -/
def DualCall.inserted : DualCall → List QuoteRecord
  | .scan quotes => quotes
  | .migration _ => []

variable (op) in
/-- **Deliveries.** A delivery that returns has stored its records and inserted its quotes; it
    raises only if a step does. The records are stored before the scan is inserted, so a scan
    that fails leaves its records in the lake. -/
theorem exits_dualCall {w : DualWorld} (hw : w.history.Holds R op.run 0 rows) (call : DualCall)
    (relationalFails : Bool) :
    Exits (fun t => t = w) (call.prog R S op relationalFails) (fun _ _ => True)
      (fun _ t => t.history.HasStored (call.records S w)
        ∧ t.marketQuotes = w.marketQuotes ++ call.inserted)
      (fun _ _ => op.Faulty ∨ relationalFails = true) := by
  have hwithin : Exits (fun s => s.history.Holds R op.run 0 rows ∧ s.marketQuotes = w.marketQuotes)
      ((appendThrough R op (call.records S w)).within historyView) (fun _ _ => True)
      (fun _ s => s.history.HasStored (call.records S w) ∧ s.marketQuotes = w.marketQuotes)
      (fun _ s => op.Faulty ∧ s.marketQuotes = w.marketQuotes) :=
    exits_within (v := historyView) (F := fun s => s.marketQuotes = w.marketQuotes)
      (exits_appendThrough (call.lineage_ne_empty w)) (fun _ _ hs => hs) (fun _ _ _ _ => trivial)
  have hstart : Exits (fun s => s = w)
      ((appendThrough R op (call.records S w)).within historyView) (fun _ _ => True)
      (fun _ s => s.history.HasStored (call.records S w) ∧ s.marketQuotes = w.marketQuotes)
      (fun _ _ => op.Faulty ∨ relationalFails = true) :=
    -- the delivery starts on the world it was called in
    hwithin.weaken (fun s hs => by rw [hs]; exact ⟨hw, rfl⟩) (fun _ _ hG => hG) (fun _ _ hQ => hQ)
      (fun _ _ hE => Or.inl hE.1)
  cases call with
  | scan quotes =>
    refine exits_bind hstart (fun _ => ?_)
    cases relationalFails with
    | true =>
      exact (exits_lift _ (fun _ _ _ _ => Or.inr rfl)).conseq (fun _ _ h => by cases h.2)
    | false =>
      refine (exits_write _).pre (fun s hs => ⟨trivial, hs.1, ?_⟩)
      show s.marketQuotes ++ quotes = _
      rw [hs.2]
      rfl
  | migration ids =>
    refine exits_get_bind (fun t ht => ?_)
    subst ht
    refine exits_bind hstart (fun _ => ?_)
    refine (exits_pure (Q := fun _ (s : DualWorld) => s.history.HasStored
      ((DualCall.migration ids).records S t)
        ∧ s.marketQuotes = t.marketQuotes ++ (DualCall.migration ids).inserted) ()).pre
          (fun s hs => ⟨hs.1, ?_⟩)
    rw [hs.2, DualCall.inserted, List.append_nil]

end Rule

/-! ### What the two stores hold -/

/-- The rows of the two stores: every stored row is in a fine partition under one of the two
    hashes of its quote; the quotes of every scan are stored under the live hash, and migrated
    rows under their own. -/
structure DualSound (R : HistoryRuntime) (S : QuoteRuntime) (run legacy : ℕ) (imported : List ℕ)
    (w : DualWorld) : Prop where
  holds : ∃ rows, w.history.Holds R run 0 rows
  hashed : ∀ item ∈ w.history.groupedRows, item.1.asset ≠ multiAssetPartition
    ∧ (item.2.lineage = S.liveLineage item.2.quote ∨ item.2.lineage = S.rowLineage item.2.quote)
  before : legacy ≤ w.marketQuotes.length
  scanned : ∀ quote ∈ w.marketQuotes.drop legacy, ∃ item ∈ w.history.groupedRows,
    item.2.lineage = S.liveLineage quote
  migrated : ∀ id ∈ imported, ∃ quote, w.marketQuotes[id]? = some quote
    ∧ ∃ item ∈ w.history.groupedRows, item.2.lineage = S.rowLineage quote

/-- No quote is stored under both hashes. -/
def OneHash (w : DualWorld) : Prop :=
  ∀ a ∈ w.history.groupedRows, ∀ b ∈ w.history.groupedRows, a.2.quote = b.2.quote →
    a.2.lineage = b.2.lineage

/-- The hash of a quote that a delivery does not use. -/
def DualCall.otherLineage (S : QuoteRuntime) : DualCall → QuoteRecord → String
  | .scan _ => S.rowLineage
  | .migration _ => S.liveLineage

/-- The hash of a quote that a delivery uses. -/
def DualCall.ownLineage (S : QuoteRuntime) : DualCall → QuoteRecord → String
  | .scan _ => S.liveLineage
  | .migration _ => S.rowLineage

/-- No quote of the delivery is stored under the hash of the other path. -/
def DualAction.Separate (S : QuoteRuntime) (state : DualState) (action : DualAction) : Prop :=
  ∀ record ∈ action.call.records S state.world,
    ¬ state.world.history.manifest.stored (action.call.otherLineage S record.quote)

section Sound

variable {R : HistoryRuntime} {S : QuoteRuntime} {number legacy : ℕ} {imported : List ℕ}
variable {w : DualWorld} {call : DualCall}

theorem DualCall.lineage_eq {record : HistoryRecord} (h : record ∈ call.records S w) :
    record.lineage = call.ownLineage S record.quote := by
  cases call with
  | scan quotes =>
    obtain ⟨quote, -, rfl⟩ := List.mem_map.mp h
    rfl
  | migration ids =>
    obtain ⟨id, -, hsome⟩ := List.mem_filterMap.mp h
    obtain ⟨quote, -, rfl⟩ := Option.map_eq_some_iff.mp hsome
    rfl

theorem DualCall.ownLineage_ne_otherLineage (quote quote' : QuoteRecord) :
    call.ownLineage S quote ≠ call.otherLineage S quote' := by
  cases call with
  | scan quotes => exact S.liveLineage_ne_rowLineage _ _
  | migration ids => exact (S.liveLineage_ne_rowLineage _ _).symm

/-- A row that a delivery adds is in a fine partition, under the delivery's hash of a quote it
    delivers. -/
theorem DualCall.of_fromRecords {item : GroupKey × HistoryRow}
    (h : FromRecords R .fine (call.records S w) item) :
    item.1.asset ≠ multiAssetPartition ∧ item.2.lineage = call.ownLineage S item.2.quote
      ∧ ∃ record ∈ call.records S w, record.quote = item.2.quote := by
  obtain ⟨record, hrecord, historyId, hkey, hrow⟩ := h
  rw [hkey, hrow]
  exact ⟨R.upper_ne_multiAsset _, DualCall.lineage_eq hrecord, record, hrecord, rfl⟩

/-- What a safe write adds is all that is new. -/
theorem mem_groupedRows_commit {write : HistoryWrite} {added : List (GroupKey × HistoryRow)}
    (hsound : w.history.Sound R) (hsafe : w.history.Safe R number write added)
    (item : GroupKey × HistoryRow) :
    item ∈ (commit w (DualWrite.history write)).history.groupedRows
      ↔ item ∈ w.history.groupedRows ∨ item ∈ added := by
  rw [← List.mem_append]
  exact (hsafe.sound hsound).2.mem_iff

/-- The history and the table stay sound while a delivery runs. A delivery only adds rows with a
    hash of its own kind and quotes behind the legacy ones, so what was stored and migrated
    before stays found. -/
theorem DualSound.leaves (op : Operation) (h : DualSound R S op.run legacy imported w)
    (relationalFails : Bool) (stop : Option ℕ) :
    DualSound R S (op.run + 1) legacy imported
      ((call.prog R S op relationalFails).leaves w stop) := by
  obtain ⟨rows, hholds⟩ := h.holds
  refine dualCall_invariant op (I := DualSound R S (op.run + 1) legacy imported) hholds ?_ ?_
    relationalFails ⟨⟨rows, hholds.next⟩, h.hashed, h.before, h.scanned, h.migrated⟩ stop
  -- a safe write adds rows made from the records of the delivery
  · intro t write added ht hsafe hadded
    obtain ⟨held, hheld⟩ := ht.holds
    have hmem := mem_groupedRows_commit hheld.sound hsafe
    refine ⟨⟨held ++ added, hheld.safe hsafe⟩, fun item hitem => ?_, ht.before,
      fun quote hquote => ?_, fun id hid => ?_⟩
    · rcases (hmem item).mp hitem with hitem | hitem
      · exact ht.hashed item hitem
      · obtain ⟨hfine, hlineage, -⟩ := DualCall.of_fromRecords (hadded item hitem)
        refine ⟨hfine, ?_⟩
        cases call with
        | scan quotes => exact Or.inl hlineage
        | migration ids => exact Or.inr hlineage
    · obtain ⟨item, hitem, heq⟩ := ht.scanned quote hquote
      exact ⟨item, (hmem item).mpr (Or.inl hitem), heq⟩
    · obtain ⟨quote, hquote, item, hitem, heq⟩ := ht.migrated id hid
      exact ⟨quote, hquote, item, (hmem item).mpr (Or.inl hitem), heq⟩
  -- the insertion of the scan: its quotes have their rows already
  · intro quotes _ t ht hstored
    refine ⟨ht.holds, ht.hashed, ?_, fun quote hquote => ?_, fun id hid => ?_⟩
    · show legacy ≤ (t.marketQuotes ++ quotes).length
      rw [List.length_append]
      exact ht.before.trans (Nat.le_add_right _ _)
    · have hquote : quote ∈ (t.marketQuotes ++ quotes).drop legacy := hquote
      rw [List.drop_append_of_le_length ht.before, List.mem_append] at hquote
      rcases hquote with hquote | hquote
      · exact ht.scanned quote hquote
      · exact hstored (S.liveRecord quote) (List.mem_map_of_mem hquote)
    · obtain ⟨quote, hquote, hitem⟩ := ht.migrated id hid
      refine ⟨quote, ?_, hitem⟩
      show (t.marketQuotes ++ quotes)[id]? = some quote
      rw [List.getElem?_append_left (List.getElem?_eq_some_iff.mp hquote).1, hquote]

/-- **Step.** Whatever a delivery does, the two stores stay sound. -/
theorem DualSound.step {state : DualState}
    (h : DualSound R S state.started legacy state.imported state.world) (action : DualAction) :
    DualSound R S (dualStep R S state action).started legacy (dualStep R S state action).imported
      (dualStep R S state action).world := by
  have hleaves : DualSound R S (state.started + 1) legacy state.imported
      ((action.call.prog R S ⟨state.started, action.faults⟩ action.relationalFails).leaves
        state.world action.stop) :=
    DualSound.leaves ⟨state.started, action.faults⟩ h action.relationalFails action.stop
  refine ⟨hleaves.holds, hleaves.hashed, hleaves.before, hleaves.scanned, fun id hid => ?_⟩
  rcases List.mem_append.mp hid with hid | hid
  · exact hleaves.migrated id hid
  -- the rows of a migration that has just returned
  obtain ⟨call, faults, relationalFails, stop⟩ := action
  unfold DualAction.returned at hid
  dsimp only at hid
  split at hid
  · rename_i ids _ hok hid
    obtain ⟨rows, hholds⟩ := h.holds
    obtain ⟨hmem, hlt⟩ := List.mem_filter.mp hid
    have hlt : id < state.world.marketQuotes.length := by simpa using hlt
    obtain ⟨hstored, htable⟩ := (exits_dualCall (S := S) ⟨state.started, faults⟩ hholds
      (.migration ids) relationalFails).post state.world () rfl hok
    rw [DualCall.inserted, List.append_nil] at htable
    have hget : state.world.marketQuotes[id]? = some state.world.marketQuotes[id] :=
      List.getElem?_eq_getElem hlt
    refine ⟨state.world.marketQuotes[id], ?_, ?_⟩
    · show (((DualCall.migration ids).prog R S ⟨state.started, faults⟩ relationalFails).final
        state.world).marketQuotes[id]? = _
      rw [htable, hget]
    · refine hstored (S.importRecord id state.world.marketQuotes[id])
        (List.mem_filterMap.mpr ⟨id, hmem, ?_⟩)
      rw [hget]
      rfl
  · cases hid

/-- **Run.** Whatever the deliveries do, the two stores stay sound. -/
theorem dualSound_run (R : HistoryRuntime) (S : QuoteRuntime) (legacy : List QuoteRecord)
    (schedule : List DualAction) :
    DualSound R S (run (dualStep R S) (.initial legacy) schedule).started legacy.length
      (run (dualStep R S) (.initial legacy) schedule).imported
      (run (dualStep R S) (.initial legacy) schedule).world := by
  refine foldl_invariant (P := fun _ (state : DualState) =>
    DualSound R S state.started legacy.length state.imported state.world)
    (fun _ state action h => h.step action) schedule ?_
  refine ⟨⟨[], HistoryWorld.sound_empty R, fun p hp => (by cases hp), List.Perm.refl _⟩,
    fun item hitem => (by cases hitem), le_refl _, fun quote hquote => ?_,
    fun id hid => (by cases hid)⟩
  have hnil : quote ∈ legacy.drop legacy.length := hquote
  rw [List.drop_length] at hnil
  cases hnil

/-! ### Complete and exactly once -/

/-- A quote is in the file history. -/
def DualWorld.Represented (w : DualWorld) (quote : QuoteRecord) : Prop :=
  ∃ row ∈ w.history.storedRows, row.quote = quote

/-- Every row of the table is in the file history, if it was inserted by `record_scan` or
    its migration has returned. -/
def Complete (legacy : List QuoteRecord) (state : DualState) : Prop :=
  ∀ (id : ℕ) quote, state.world.marketQuotes[id]? = some quote →
    legacy.length ≤ id ∨ id ∈ state.imported → state.world.Represented quote

/-- `range` returns each quote of the history that matches exactly once. -/
def ExactlyOnce (R : HistoryRuntime) (w : DualWorld) : Prop :=
  ∀ window : HistoryWindow, (Layout.fine.range R window w.history).Nodup
    ∧ ∀ quote, quote ∈ Layout.fine.range R window w.history
      ↔ w.Represented quote ∧ window.Matches R quote

/-- A stored lineage is the hash of its quote, so a quote whose hash is stored is represented. -/
theorem DualSound.represented (h : DualSound R S number legacy imported w) {quote : QuoteRecord}
    {item : GroupKey × HistoryRow} (hitem : item ∈ w.history.groupedRows)
    (hlineage : item.2.lineage = S.liveLineage quote ∨ item.2.lineage = S.rowLineage quote) :
    item.2.quote = quote := by
  rcases (h.hashed item hitem).2 with hlive | hrow <;> rcases hlineage with heq | heq
  · exact S.liveLineage_injective (hlive.symm.trans heq)
  · exact absurd (hlive.symm.trans heq) (S.liveLineage_ne_rowLineage _ _)
  · exact absurd (heq.symm.trans hrow) (S.liveLineage_ne_rowLineage _ _)
  · exact S.rowLineage_injective (hrow.symm.trans heq)

theorem DualSound.complete {state : DualState} {legacy : List QuoteRecord}
    (h : DualSound R S state.started legacy.length state.imported state.world) :
    Complete legacy state := by
  have hrepresented : ∀ item ∈ state.world.history.groupedRows,
      ∀ quote, item.2.quote = quote → state.world.Represented quote := by
    intro item hitem quote heq
    refine ⟨item.2, ?_, heq⟩
    rw [HistoryWorld.storedRows_eq]
    exact List.mem_map_of_mem hitem
  rintro id quote hquote (hid | hid)
  · have hmem : quote ∈ state.world.marketQuotes.drop legacy.length := by
      refine List.mem_iff_getElem?.mpr ⟨id - legacy.length, ?_⟩
      rw [List.getElem?_drop, Nat.add_sub_cancel' hid, hquote]
    obtain ⟨item, hitem, heq⟩ := h.scanned quote hmem
    exact hrepresented item hitem quote (h.represented hitem (Or.inl heq))
  · obtain ⟨quote', hquote', item, hitem, heq⟩ := h.migrated id hid
    rw [hquote, Option.some.injEq] at hquote'
    subst hquote'
    exact hrepresented item hitem quote (h.represented hitem (Or.inr heq))

/-- **Exactly once.** The ranges return each quote once if and only if no quote is stored under
    both hashes. -/
theorem DualSound.exactlyOnce_iff (h : DualSound R S number legacy imported w) :
    ExactlyOnce R w ↔ OneHash w := by
  obtain ⟨rows, hholds⟩ := h.holds
  have hfine : Layout.fine.Understands w.history := by
    refine Or.inr (fun p hp => ?_)
    obtain ⟨row, hrow⟩ := List.exists_mem_of_ne_nil _ (hholds.sound.describes hp).2.nonempty
    exact (h.hashed (p.group, row) (HistoryWorld.mem_perRow.mpr ⟨p, hp, row, hrow, rfl⟩)).1
  have hlineages : (w.history.storedRows.map HistoryRow.lineage).Nodup := by
    rw [HistoryWorld.storedRows_eq, List.map_map]
    exact hholds.sound.lineageNodup
  have hmem : ∀ row, row ∈ w.history.storedRows ↔ ∃ item ∈ w.history.groupedRows, item.2 = row := by
    intro row
    rw [HistoryWorld.storedRows_eq, List.mem_map]
  constructor
  · intro honce a ha b hb heq
    -- the window of the quote's own time
    let window : HistoryWindow := ⟨a.2.quote.observedAt, a.2.quote.observedAt, [], []⟩
    have hnodup := (honce window).1
    rw [(hholds.sound.range_perm hfine window).nodup_iff] at hnodup
    have hmatches : ∀ c : GroupKey × HistoryRow, c ∈ w.history.groupedRows →
        c.2.quote = a.2.quote →
        c.2 ∈ w.history.storedRows.filter (fun row => window.Matches R row.quote) := by
      intro c hc hquote
      refine List.mem_filter.mpr ⟨(hmem c.2).mpr ⟨c, hc, rfl⟩, decide_eq_true ?_⟩
      rw [hquote]
      exact ⟨le_refl _, le_refl _, Or.inl rfl, Or.inl rfl⟩
    rw [List.inj_on_of_nodup_map hnodup (hmatches a ha rfl) (hmatches b hb heq.symm) heq]
  · intro hone window
    have hperm := hholds.sound.range_perm hfine window
    refine ⟨hperm.nodup_iff.mpr ?_, fun quote => ?_⟩
    · have hrows : (w.history.storedRows.filter
          (fun row => window.Matches R row.quote)).Nodup := hlineages.of_map.filter _
      refine hrows.map_on (fun a ha b hb heq => ?_)
      obtain ⟨item, hitem, rfl⟩ := (hmem a).mp (List.mem_of_mem_filter ha)
      obtain ⟨item', hitem', rfl⟩ := (hmem b).mp (List.mem_of_mem_filter hb)
      exact List.inj_on_of_nodup_map hlineages ((hmem _).mpr ⟨item, hitem, rfl⟩)
        ((hmem _).mpr ⟨item', hitem', rfl⟩) (hone item hitem item' hitem' heq)
    · rw [hperm.mem_iff, List.mem_map]
      constructor
      · rintro ⟨row, hrow, rfl⟩
        obtain ⟨hrow, hmatches⟩ := List.mem_filter.mp hrow
        exact ⟨⟨row, hrow, rfl⟩, by simpa using hmatches⟩
      · rintro ⟨⟨row, hrow, rfl⟩, hmatches⟩
        exact ⟨row, List.mem_filter.mpr ⟨hrow, decide_eq_true hmatches⟩, rfl⟩

/-- What holds while a delivery runs whose quotes are not stored under the other hash. -/
structure StoringOnce (R : HistoryRuntime) (S : QuoteRuntime) (number : ℕ) (call : DualCall)
    (records : List HistoryRecord) (w : DualWorld) : Prop where
  holds : ∃ rows, w.history.Holds R number 0 rows
  oneHash : OneHash w
  hashed : ∀ item ∈ w.history.groupedRows, item.2.lineage = call.ownLineage S item.2.quote
    ∨ item.2.lineage = call.otherLineage S item.2.quote
  other : ∀ record ∈ records, ∀ item ∈ w.history.groupedRows,
    item.2.lineage ≠ call.otherLineage S record.quote

/-- A safe write of the delivery stores its quotes under no hash but its own. -/
theorem StoringOnce.safe {t : DualWorld} {write : HistoryWrite}
    {added : List (GroupKey × HistoryRow)}
    (h : StoringOnce R S (number + 1) call (call.records S w) t)
    (hsafe : t.history.Safe R number write added)
    (hadded : ∀ item ∈ added, FromRecords R .fine (call.records S w) item) :
    StoringOnce R S (number + 1) call (call.records S w) (commit t (DualWrite.history write)) := by
  obtain ⟨held, hheld⟩ := h.holds
  have hmem := mem_groupedRows_commit hheld.sound hsafe
  have hown := fun item hitem => DualCall.of_fromRecords (hadded item hitem)
  -- a new row of a stored quote has the hash that the quote has already
  have hnew : ∀ c ∈ t.history.groupedRows, ∀ d ∈ added, c.2.quote = d.2.quote →
      c.2.lineage = d.2.lineage := by
    intro c hc d hd hquote
    obtain ⟨-, hlineage, record, hrecord, hrecordQuote⟩ := hown d hd
    rcases h.hashed c hc with heq | heq
    · rw [heq, hlineage, hquote]
    · rw [hquote, ← hrecordQuote] at heq
      exact absurd heq (h.other record hrecord c hc)
  refine ⟨⟨held ++ added, hheld.safe hsafe⟩, fun a ha b hb heq => ?_, fun item hitem => ?_,
    fun record hrecord item hitem heq => ?_⟩
  -- two rows of one quote: both old, one new, or both new
  · rcases (hmem a).mp ha with ha | ha <;> rcases (hmem b).mp hb with hb | hb
    · exact h.oneHash a ha b hb heq
    · exact hnew a ha b hb heq
    · exact (hnew b hb a ha heq.symm).symm
    · rw [(hown a ha).2.1, (hown b hb).2.1, heq]
  -- an old row keeps its hash, and a new one has that of its quote
  · rcases (hmem item).mp hitem with hitem | hitem
    · exact h.hashed item hitem
    · exact Or.inl (hown item hitem).2.1
  · rcases (hmem item).mp hitem with hitem | hitem
    · exact h.other record hrecord item hitem heq
    · exact DualCall.ownLineage_ne_otherLineage _ _ ((hown item hitem).2.1.symm.trans heq)

/-- **Step.** A delivery whose quotes are not stored under the other hash stores none of them
    twice. -/
theorem OneHash.step {state : DualState}
    (h : DualSound R S state.started legacy state.imported state.world)
    (hone : OneHash state.world) {action : DualAction} (hseparate : action.Separate S state) :
    OneHash (dualStep R S state action).world := by
  obtain ⟨rows, hholds⟩ := h.holds
  have hstart : StoringOnce R S (state.started + 1) action.call
      (action.call.records S state.world) state.world := by
    refine ⟨⟨rows, hholds.next⟩, hone, fun item hitem => ?_, fun record hrecord item hitem heq => ?_⟩
    · rcases (h.hashed item hitem).2 with heq | heq <;> cases action.call
      · exact Or.inl heq
      · exact Or.inr heq
      · exact Or.inr heq
      · exact Or.inl heq
    · exact hseparate record hrecord (hholds.sound.stored_iff.mpr ⟨item, hitem, heq⟩)
  have hend := dualCall_invariant ⟨state.started, action.faults⟩
    (I := StoringOnce R S (state.started + 1) action.call (action.call.records S state.world))
    hholds (fun t write added ht hsafe hadded => ht.safe hsafe hadded)
    (fun _ _ t ht _ => ⟨ht.holds, ht.oneHash, ht.hashed, ht.other⟩) action.relationalFails hstart
    action.stop
  exact hend.oneHash

end Sound

/-- **Dual write.** After any deliveries, whatever fails and wherever they stop, every row of the
    table is in the file history; and if every delivery meets no quote that is stored under the
    hash of the other path, `range` returns each quote exactly once. -/
theorem dualWrite_of_run (R : HistoryRuntime) (S : QuoteRuntime) (legacy : List QuoteRecord)
    (schedule : List DualAction) :
    Complete legacy (run (dualStep R S) (.initial legacy) schedule)
      ∧ (Meets (dualStep R S) (fun state action => action.Separate S state) (.initial legacy)
          schedule →
        ExactlyOnce R (run (dualStep R S) (.initial legacy) schedule).world) := by
  refine ⟨(dualSound_run R S legacy schedule).complete, fun hmeets => ?_⟩
  rw [(dualSound_run R S legacy schedule).exactlyOnce_iff]
  refine (run_invariant (I := fun state =>
    DualSound R S state.started legacy.length state.imported state.world ∧ OneHash state.world)
    (fun state action h hseparate => ⟨h.1.step action, OneHash.step h.1 h.2 hseparate⟩)
    ⟨dualSound_run R S legacy [], fun a ha => (by cases ha)⟩ hmeets).2

/-! ### Quotes of one path and of both -/

section Origin

variable {R : HistoryRuntime} {S : QuoteRuntime} {number legacy : ℕ} {imported : List ℕ}

/-- **Origin.** A delivery removes no row of the history, and every row it adds has one of its
    quotes. -/
theorem DualSound.origin {state : DualState}
    (h : DualSound R S state.started legacy state.imported state.world) (action : DualAction) :
    (∀ item ∈ state.world.history.groupedRows,
        item ∈ (dualStep R S state action).world.history.groupedRows)
      ∧ ∀ item ∈ (dualStep R S state action).world.history.groupedRows,
        item ∈ state.world.history.groupedRows
          ∨ ∃ record ∈ action.call.records S state.world, record.quote = item.2.quote := by
  obtain ⟨rows, hholds⟩ := h.holds
  let Kept : DualWorld → Prop := fun t => (∃ held, t.history.Holds R (state.started + 1) 0 held)
    ∧ (∀ item ∈ state.world.history.groupedRows, item ∈ t.history.groupedRows)
    ∧ ∀ item ∈ t.history.groupedRows, item ∈ state.world.history.groupedRows
      ∨ ∃ record ∈ action.call.records S state.world, record.quote = item.2.quote
  have hwrite : ∀ t write added, Kept t → t.history.Safe R state.started write added →
      (∀ item ∈ added, FromRecords R .fine (action.call.records S state.world) item) →
      Kept (commit t (DualWrite.history write)) := by
    rintro t write added ⟨⟨held, hheld⟩, hkept, hfrom⟩ hsafe hadded
    have hmem := mem_groupedRows_commit hheld.sound hsafe
    refine ⟨⟨held ++ added, hheld.safe hsafe⟩, fun item hitem => ?_, fun item hitem => ?_⟩
    · exact (hmem item).mpr (Or.inl (hkept item hitem))
    · rcases (hmem item).mp hitem with hold | hnew
      · exact hfrom item hold
      · exact Or.inr (DualCall.of_fromRecords (hadded item hnew)).2.2
  have hstart : Kept state.world :=
    ⟨⟨rows, hholds.next⟩, fun _ hitem => hitem, fun _ hitem => Or.inl hitem⟩
  exact (dualCall_invariant ⟨state.started, action.faults⟩ hholds hwrite (fun _ _ _ ht _ => ht)
    action.relationalFails hstart action.stop).2

/-- A delivery in which nothing goes wrong has stored its records and inserted its quotes. -/
theorem DualSound.delivered {state : DualState}
    (h : DualSound R S state.started legacy state.imported state.world) (call : DualCall) :
    (dualStep R S state ⟨call, Faults.none, false, none⟩).world.history.HasStored
        (call.records S state.world)
      ∧ (dualStep R S state ⟨call, Faults.none, false, none⟩).world.marketQuotes
        = state.world.marketQuotes ++ call.inserted := by
  obtain ⟨rows, hholds⟩ := h.holds
  have hexits := exits_dualCall (S := S) ⟨state.started, Faults.none⟩ hholds call false
  cases hres : (call.prog R S ⟨state.started, Faults.none⟩ false state.world).2 with
  | ok a => exact hexits.post state.world a rfl hres
  | error e =>
    rcases hexits.raised state.world e rfl hres with ⟨i, point, hraises⟩ | hfails
    · cases hraises
    · cases hfails

end Origin

/-- A migration of the first row that runs to its end. -/
def migrateFirst : DualAction := ⟨.migration [0], Faults.none, false, none⟩

/-- A scan of a quote of the examples that runs to its end. -/
def scanBitcoin (observedAt : Instant) : DualAction :=
  ⟨.scan [bitcoinQuote observedAt], Faults.none, false, none⟩

/-- The two stores next to a table of one row. -/
def oneRow : DualState := .initial [bitcoinQuote 0]

theorem dualSound_oneRow (schedule : List DualAction) :
    DualSound .sample .sample (run (dualStep .sample .sample) oneRow schedule).started 1
      (run (dualStep .sample .sample) oneRow schedule).imported
      (run (dualStep .sample .sample) oneRow schedule).world :=
  dualSound_run .sample .sample [bitcoinQuote 0] schedule

/-- The import of the first row stores its quote under the hash of the row, and no other quote. -/
theorem groupedRows_migrateFirst :
    (∃ item ∈ (run (dualStep .sample .sample) oneRow [migrateFirst]).world.history.groupedRows,
        item.2.lineage = QuoteRuntime.sample.rowLineage (bitcoinQuote 0))
      ∧ ∀ item ∈ (run (dualStep .sample .sample) oneRow [migrateFirst]).world.history.groupedRows,
        item.2.quote = bitcoinQuote 0 := by
  constructor
  · exact ((dualSound_oneRow []).delivered (.migration [0])).1
      (QuoteRuntime.sample.importRecord 0 (bitcoinQuote 0)) (List.mem_singleton.mpr rfl)
  · intro item hitem
    rcases ((dualSound_oneRow []).origin migrateFirst).2 item hitem with hold | ⟨record, hrecord, heq⟩
    · cases hold
    · rw [← heq, List.mem_singleton.mp hrecord]
      rfl

/-- A row is migrated, and then another quote is scanned: the ranges return both, once each. -/
theorem dualWrite_migrateFirst :
    let world := (run (dualStep .sample .sample) oneRow [migrateFirst, scanBitcoin 1]).world
    ExactlyOnce .sample world ∧ world.Represented (bitcoinQuote 0)
      ∧ world.Represented (bitcoinQuote 1) := by
  intro world
  have hmigrated := dualSound_oneRow [migrateFirst]
  have hend := dualSound_oneRow [migrateFirst, scanBitcoin 1]
  obtain ⟨⟨first, hfirst, hlineage⟩, honly⟩ := groupedRows_migrateFirst
  obtain ⟨second, hsecond, hlive⟩ := (hmigrated.delivered (.scan [bitcoinQuote 1])).1
    (QuoteRuntime.sample.liveRecord (bitcoinQuote 1)) (List.mem_singleton.mpr rfl)
  have hkept : first ∈ world.history.groupedRows :=
    (hmigrated.origin (scanBitcoin 1)).1 first hfirst
  have hrepresented : ∀ item ∈ world.history.groupedRows, world.Represented item.2.quote := by
    intro item hitem
    refine ⟨item.2, ?_, rfl⟩
    rw [HistoryWorld.storedRows_eq]
    exact List.mem_map_of_mem hitem
  have hseparate : (scanBitcoin 1).Separate .sample
      (run (dualStep .sample .sample) oneRow [migrateFirst]) := by
    intro record hrecord hstored
    obtain ⟨rows, hholds⟩ := hmigrated.holds
    obtain ⟨item, hitem, heq⟩ := hholds.sound.stored_iff.mp hstored
    rw [List.mem_singleton.mp hrecord] at heq
    -- what is stored under this hash would be the second quote
    have hquote := hmigrated.represented hitem (Or.inr heq)
    rw [honly item hitem] at hquote
    exact absurd (congrArg (fun quote => quote.observedAt) hquote) (by decide)
  refine ⟨?_, ?_, ?_⟩
  · exact (dualWrite_of_run .sample .sample [bitcoinQuote 0] [migrateFirst, scanBitcoin 1]).2
      ⟨fun _ _ hstored => (by cases hstored), hseparate, trivial⟩
  · rw [← hend.represented hkept (Or.inr hlineage)]
    exact hrepresented first hkept
  · rw [← hend.represented hsecond (Or.inl hlive)]
    exact hrepresented second hsecond

/-- **A quote that both paths deliver is stored twice.** The first row is imported, and the same
    quote then arrives through a scan: one `range` lists it twice. -/
theorem not_exactlyOnce_migrateFirst_scanBitcoin :
    ¬ ExactlyOnce .sample (run (dualStep .sample .sample) (.initial [bitcoinQuote 0])
      [migrateFirst, scanBitcoin 0]).world := by
  have hmigrated := dualSound_oneRow [migrateFirst]
  have hend := dualSound_oneRow [migrateFirst, scanBitcoin 0]
  obtain ⟨imported, himported, hrow⟩ := groupedRows_migrateFirst.1
  obtain ⟨live, hlive, hlineage⟩ := (hmigrated.delivered (.scan [bitcoinQuote 0])).1
    (QuoteRuntime.sample.liveRecord (bitcoinQuote 0)) (List.mem_singleton.mpr rfl)
  -- the row of the import stays while the scan runs
  have hkept := (hmigrated.origin (scanBitcoin 0)).1 imported himported
  intro honce
  have hsame := hend.exactlyOnce_iff.mp honce imported hkept live hlive
    ((hend.represented hkept (Or.inr hrow)).trans
      (hend.represented hlive (Or.inl hlineage)).symm)
  rw [hrow] at hsame
  exact QuoteRuntime.sample.liveLineage_ne_rowLineage _ _ (hlineage.symm.trans hsame.symm)

end InefficiencyEngine.History
