import Selfevals.Storage.IterationRoundTrip
import Selfevals.Storage.TraceRoundTrip

/-!
# Stored evidence comes back

Traces and iteration records are written one after another, each any number of times, in any order.
What is loaded under an id is the last write of it, with the creation time of the first: `ON
CONFLICT` updates every column but `id` and `created_at`. A write that is refused leaves the
database as it was, so a run lists the writes that pass.
-/

namespace Selfevals.Storage.RecordRoundTrip

open Lib.Relational Schemas.Base Schemas.IterationRecords Schemas.TraceRecords Storage.EntityRows
open IterationMapper (IterationDb)
open IterationRoundTrip (SameSlot CountsNonneg readBack readBack_same)
open TraceMapper (TraceDb)

/-- The traces of a run are written. -/
def writeTraces (ts : List Trace) : Except (Violation TraceMapper.Table) TraceDb :=
  ts.foldlM TraceMapper.upsert Db.empty

/-- The records of a run are written. -/
def writeRecords (es : List IterationRecord) :
    Except (Violation IterationMapper.Table) IterationDb :=
  es.foldlM (fun db e => IterationMapper.upsert e db) Db.empty

/-- **A run of writes of traces passes**, and is a run of writes to the store. -/
theorem writeTraces_kept (ts : List Trace) (hts : ∀ t ∈ ts, t.Valid) :
    ∃ db, writeTraces ts = .ok db ∧ TraceRoundTrip.Kept db (written ts) := by
  induction ts using List.reverseRecOn with
  | nil => exact ⟨Db.empty, rfl, TraceRoundTrip.kept_empty⟩
  | append_singleton ts t ih =>
    obtain ⟨db, hrun, hkept⟩ := ih fun t' ht' => hts t' (List.mem_append_left _ ht')
    obtain ⟨db', hok, hkept'⟩ := TraceRoundTrip.upsert_kept hkept (hts t (by simp))
    refine ⟨db', ?_, ?_⟩
    · unfold writeTraces at hrun ⊢
      rw [List.foldlM_append, hrun]
      exact (bind_pure _).trans hok
    · rw [written_append]
      exact hkept'

/-- **A run of writes of records is a run of writes to the store.** -/
theorem writeRecords_kept {es : List IterationRecord} (hes : ∀ e ∈ es, e.Valid) {db : IterationDb}
    (hrun : writeRecords es = .ok db) : IterationRoundTrip.Kept db (written es) := by
  induction es using List.reverseRecOn generalizing db with
  | nil =>
    obtain rfl := Except.ok.inj hrun
    exact IterationRoundTrip.kept_empty
  | append_singleton es e ih =>
    unfold writeRecords at hrun
    rw [List.foldlM_append] at hrun
    obtain ⟨db₀, hrun₀, hlast⟩ := Selfevals.Lib.Result.bind_eq_ok.mp hrun
    have hkept := ih (fun e' he' => hes e' (List.mem_append_left _ he')) hrun₀
    have hok : IterationMapper.upsert e db₀ = .ok db := (bind_pure _).symm.trans hlast
    rw [written_append]
    exact IterationRoundTrip.upsert_kept hkept (hes e (by simp)) hok

theorem find?_writtenTraces (ts : List Trace) (id : String) :
    (written ts).find? id = latest ts id := find?_written (fun _ => rfl) ts id

theorem find?_writtenRecords (es : List IterationRecord) (id : String) :
    (written es).find? id = latest es id := find?_written (fun _ => rfl) es id

/-- **Stored evidence comes back.** After any run of writes of valid traces, none of which is
refused, a load returns the trace that was last written under the id, with the creation time of its
first write. After any run of writes of valid records that pass, it returns the record so, equal up
to the order of the dicts; and a further write is refused only where another record holds the
iteration, or a count is below zero. -/
theorem load_latest (ts : List Trace) (hts : ∀ t ∈ ts, t.Valid) (es : List IterationRecord)
    (hes : ∀ e ∈ es, e.Valid) :
    (∃ db, writeTraces ts = .ok db ∧ ∀ workspaceId id, TraceMapper.load db workspaceId id =
      .ok ((latest ts id).filter fun t => t.workspaceId = workspaceId)) ∧
    ∀ db, writeRecords es = .ok db →
      (∀ workspaceId id, ∃ loaded, IterationMapper.load db workspaceId id = .ok loaded ∧
        Option.Rel IterationRecord.Same loaded
          ((latest es id).filter fun e => e.workspaceId = workspaceId)) ∧
      ∀ e : IterationRecord, e.Valid → ((∃ db', IterationMapper.upsert e db = .ok db') ↔
        (∀ id old, latest es id = some old → old.id ≠ e.id → ¬SameSlot old e) ∧
          CountsNonneg e) := by
  refine ⟨?_, fun db hrun => ?_⟩
  · obtain ⟨db, hrun, hkept⟩ := writeTraces_kept ts hts
    refine ⟨db, hrun, fun workspaceId id => ?_⟩
    rw [TraceRoundTrip.load_kept hkept, find?_writtenTraces]
  have hkept := writeRecords_kept hes hrun
  refine ⟨fun workspaceId id => ⟨_, IterationRoundTrip.load_kept hkept workspaceId id, ?_⟩,
    fun e he => ?_⟩
  · rw [find?_writtenRecords]
    cases (latest es id).filter fun e => e.workspaceId = workspaceId with
    | none => exact Option.Rel.none
    | some e => exact Option.Rel.some (readBack_same e)
  · rw [IterationRoundTrip.upsert_isOk_iff hkept he, Tables.Table.forall_rows_iff]
    simp only [find?_writtenRecords]

/-! ### Evidence that is written again -/

/-- A turn whose tool timed out. -/
def timedOut : Trace :=
  { Trace.minimal with
    finalState := { status := .errored, error := some "search timed out" }
    spans := [
      .agentTurn { id := "turn", name := "turn", startedAt := 0, durationMs := 9 },
      .llmCall {
        id := "plan", parentId := some "turn", name := "plan", startedAt := 1
        provider := "openai", model := "small", toolsOffered := ["search", "refund"]
        params := [("temperature", .int 0)]
        output := {
          stopReason := some .toolUse
          toolUseRequested := [⟨"search", "use_1"⟩, ⟨"refund", "use_2"⟩] }
        tokens := { input := 10, output := 5, total := 15 } },
      .toolCall {
        id := "search", parentId := some "plan", name := "search", startedAt := 2
        toolName := "search", toolUseId := some "use_1", status := .error
        retryChain := ["search_1", "search_2"] },
      .retrieval {
        id := "docs", parentId := some "turn", name := "docs", startedAt := 3
        retriever := "faq", topKRequested := 2
        retrieved := [{ docId := "d1" }, { docId := "d2", rawScore := some (1 / 2) }] }]
    graderResults := [{
      grader := "deterministic", label := "fail"
      failureModes := ["tool_timeout", "no_answer"] }]
    links := [⟨.replayOf, "tr_0"⟩]
    metrics := { totalTokensIn := 10, totalTokensOut := 5, toolCallCount := 1, llmCallCount := 1 } }

/-- The same turn as it is written again later: the spans in another order and of other kinds, a
document more, a request less, two results and no link. -/
def timedOutAgain : Trace :=
  { timedOut with
    createdAt := 7
    spans := [
      .retrieval {
        id := "docs", parentId := some "turn", name := "docs", startedAt := 3
        retriever := "faq", topKRequested := 3
        retrieved := [
          { docId := "d2" }, { docId := "d1", chunkId := some "c" }, { docId := "d3" }] },
      .llmCall {
        id := "plan", parentId := some "turn", name := "plan", startedAt := 1
        provider := "openai", model := "large", toolsOffered := ["refund"]
        output := { toolUseRequested := [⟨"refund", "use_2"⟩] }
        tokens := { input := 20, output := 5, total := 25 } },
      .agentTurn { id := "turn", name := "turn", startedAt := 0, durationMs := 9 },
      .decision {
        id := "route", name := "route", startedAt := 4, decisionType := "routing"
        chosen := "refund", alternativesConsidered := ["search", "handoff"] },
      .error {
        id := "lost", name := "lost", startedAt := 5, errorType := "Timeout", message := "" }]
    graderResults := [
      { grader := "set_match", label := "partial", score := some (1 / 3) },
      { grader := "deterministic", label := "fail", failureModes := ["no_answer"] }]
    links := [] }

/-- A completed iteration. -/
def firstRound : IterationRecord :=
  { IterationRecord.minimal with
    state := .completed
    execution := { variantId := "v_0", traceRunIds := ["run_1", "run_2"] }
    metrics := some {
      primary := { name := "pass@1", value := 1 / 2 }
      guardrails := [{ name := "latency_ms_p50", value := 9 }]
      reliability := ⟨[("pass^2", 1 / 4), ("pass@2", 3 / 4)], by decide⟩
      failureModeCounts := ⟨[("tool_timeout", 2), ("no_answer", 1)], by decide⟩ }
    decision := some { outcome := .keepCandidate, rationale := "first" } }

/-- The iteration after it. -/
def secondRound : IterationRecord :=
  { IterationRecord.minimal with id := "itr_2", iteration := 1, parentIteration := some 0 }

/-- The first iteration as it is written again, with fewer counts and more guardrails. -/
def firstRoundAgain : IterationRecord :=
  { firstRound with
    createdAt := 7
    execution := { variantId := "v_0", traceRunIds := ["run_2"] }
    metrics := some {
      primary := { name := "pass@1", value := 1 }
      guardrails := [
        { name := "latency_ms_p95", value := 8 }, { name := "latency_ms_p50", value := 3 }]
      failureModeCounts := ⟨[("no_answer", 3)], by decide⟩ } }

theorem timedOut_valid : timedOut.Valid := by decide +kernel

theorem timedOutAgain_valid : timedOutAgain.Valid := by decide +kernel

theorem rounds_valid : ∀ e ∈ [firstRound, secondRound, firstRoundAgain], e.Valid := by
  decide +kernel

theorem writeRecords_concat {es : List IterationRecord} {e : IterationRecord} {db db' : IterationDb}
    (hrun : writeRecords es = .ok db) (hok : IterationMapper.upsert e db = .ok db') :
    writeRecords (es ++ [e]) = .ok db' := by
  unfold writeRecords at hrun ⊢
  rw [List.foldlM_append, hrun]
  exact (bind_pure _).trans hok

theorem mem_of_latest {es : List IterationRecord} {id : String} {old : IterationRecord}
    (h : latest es id = some old) : ∃ e ∈ es, old = { e with createdAt := old.createdAt } := by
  simp only [latest, Option.bind_eq_bind, Option.bind_eq_some_iff] at h
  obtain ⟨first, -, last, hlast, hold⟩ := h
  refine ⟨last, List.mem_reverse.mp (List.mem_of_find?_eq_some hlast), ?_⟩
  obtain rfl := Option.some.inj hold
  rfl

/-- The writes that are to pass: in no two records the same iteration, and no count below zero. -/
def Apart (es : List IterationRecord) (e : IterationRecord) : Prop :=
  (∀ old ∈ es, old.id ≠ e.id → ¬SameSlot old e) ∧ CountsNonneg e

instance (es : List IterationRecord) (e : IterationRecord) : Decidable (Apart es e) := by
  unfold Apart SameSlot CountsNonneg; infer_instance

/-- A trace whose children were replaced, and three writes of two records, each of which passes. -/
theorem load_latest_rewritten :
    (∃ db, writeTraces [timedOut, timedOutAgain] = .ok db ∧
      TraceMapper.load db "ws_1" "tr_1" = .ok (some { timedOutAgain with createdAt := 0 })) ∧
    ∃ db, writeRecords [firstRound, secondRound, firstRoundAgain] = .ok db ∧
      ∃ first second, IterationMapper.load db "ws_1" "itr_1" = .ok (some first) ∧
        first.Same { firstRoundAgain with createdAt := 0 } ∧
        IterationMapper.load db "ws_1" "itr_2" = .ok (some second) ∧ second.Same secondRound := by
  have hwrite : ∀ {es : List IterationRecord} {db} {e : IterationRecord}, writeRecords es = .ok db →
      (∀ e' ∈ es, e'.Valid) → e.Valid → Apart es e → ∃ db', writeRecords (es ++ [e]) = .ok db' := by
    intro es db e hrun hes he hapart
    have hlatest := load_latest [] (by simp) es hes
    obtain ⟨db', hok⟩ := ((hlatest.2 db hrun).2 e he).mpr ⟨fun id old hfound hne => by
      obtain ⟨e', he', hold⟩ := mem_of_latest hfound
      rw [hold] at hne ⊢
      exact hapart.1 e' he' hne, hapart.2⟩
    exact ⟨db', writeRecords_concat hrun hok⟩
  have hvalid := rounds_valid
  simp only [List.forall_mem_cons, List.not_mem_nil, false_implies, implies_true,
    and_true] at hvalid
  obtain ⟨hfirst, hsecond, hagain⟩ := hvalid
  obtain ⟨db₁, hdb₁⟩ := @hwrite [] Db.empty firstRound rfl (by simp) hfirst (by decide +kernel)
  obtain ⟨db₂, hdb₂⟩ := hwrite hdb₁ (by simp [hfirst]) hsecond (by decide +kernel)
  obtain ⟨db₃, hdb₃⟩ := hwrite hdb₂ (by simp [hfirst, hsecond]) hagain (by decide +kernel)
  obtain ⟨⟨db, hrun, hload⟩, hrecords⟩ := load_latest [timedOut, timedOutAgain]
    (by simp [timedOut_valid, timedOutAgain_valid]) _ rounds_valid
  refine ⟨⟨db, hrun, (hload _ _).trans rfl⟩, db₃, hdb₃, ?_⟩
  obtain ⟨first, hfirstload, hfirstrel⟩ := (hrecords db₃ hdb₃).1 "ws_1" "itr_1"
  obtain ⟨second, hsecondload, hsecondrel⟩ := (hrecords db₃ hdb₃).1 "ws_1" "itr_2"
  have hlatest : (latest [firstRound, secondRound, firstRoundAgain] "itr_1").filter
      (fun e => e.workspaceId = "ws_1") = some { firstRoundAgain with createdAt := 0 } := rfl
  have hlatest' : (latest [firstRound, secondRound, firstRoundAgain] "itr_2").filter
      (fun e => e.workspaceId = "ws_1") = some secondRound := rfl
  rw [hlatest] at hfirstrel
  rw [hlatest'] at hsecondrel
  cases hfirstrel with
  | some hsame =>
    cases hsecondrel with
    | some hsame' => exact ⟨_, _, hfirstload, hsame, hsecondload, hsame'⟩

/-- A trace that is written again with another creation time is not loaded as it was written. -/
theorem rewritten_trace_keeps_createdAt :
    let t : Trace := Trace.minimal
    let t' : Trace := { Trace.minimal with createdAt := 1 }
    t.Valid ∧ t'.Valid ∧ ∃ db db', TraceMapper.upsert Db.empty t = .ok db ∧
      TraceMapper.upsert db t' = .ok db' ∧
      TraceMapper.load db' t'.workspaceId t'.id ≠ .ok (some t') := by
  intro t t'
  have ht' : t'.Valid := Trace.minimal_valid.withCreatedAt 1
  obtain ⟨db, hdb, hkept⟩ :=
    TraceRoundTrip.upsert_kept TraceRoundTrip.kept_empty Trace.minimal_valid
  obtain ⟨db', hdb', hkept'⟩ := TraceRoundTrip.upsert_kept hkept ht'
  refine ⟨Trace.minimal_valid, ht', db, db', hdb, hdb', fun hload => ?_⟩
  rw [TraceRoundTrip.load_kept hkept'] at hload
  have hcreated : some (0 : ℤ) = some 1 :=
    congrArg (Option.map fun t : Trace => t.createdAt) (Except.ok.inj hload)
  simp at hcreated

end Selfevals.Storage.RecordRoundTrip
