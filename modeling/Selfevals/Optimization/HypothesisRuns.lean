import Selfevals.Optimization.OptimizationRun
import Selfevals.Optimization.Proposers

/-!
# The runs of an offline LLM proposer

Without an adapter the proposer of an LLM applies the hypotheses that are pending. The loop reads
them from storage in every round, writes the one that was consumed back before it runs the iteration
and stores the record of the iteration after it; so a run that fails in between leaves a hypothesis
consumed without a record. The runs of one experiment come one after the other, over one storage.
-/

namespace Selfevals.Optimization.HypothesisRuns

open Lib.Sql Optimization.Aggregator Optimization.GridProposer Optimization.IterationLoop
open Optimization.OptimizationRun (OptimizationLoop Progress earlyStopEnabled hasConverged)
open Optimization.Proposers Schemas.Base Schemas.Enums Schemas.Experiments Schemas.Iterations

/-! ### The storage -/

/-- The hypotheses, which have an id each, and the records of the iterations. -/
structure Store where
  hypotheses : List HypothesisRecord
  records : List IterationRecord := []
  ids_nodup : (hypotheses.map (·.id)).Nodup

/-- The rows once the consumed hypothesis is put. -/
def writeBack (consumed : Option HypothesisRecord) (hypotheses : List HypothesisRecord) :
    List HypothesisRecord :=
  hypotheses.map fun h => (consumed.filter (·.id = h.id)).getD h

theorem ids_writeBack (consumed : Option HypothesisRecord) (hypotheses : List HypothesisRecord) :
    (writeBack consumed hypotheses).map (·.id) = hypotheses.map (·.id) := by
  unfold writeBack
  rw [List.map_map]
  refine List.map_congr_left fun h _ => ?_
  cases consumed with
  | none => rfl
  | some c =>
    by_cases hid : c.id = h.id
    · simp [Option.filter, hid]
    · simp [Option.filter, hid]

/-- `_persist_consumed_hypotheses`. -/
def Store.persistConsumed (store : Store) (consumed : Option HypothesisRecord) : Store where
  hypotheses := writeBack consumed store.hypotheses
  records := store.records
  ids_nodup := by
    rw [ids_writeBack]
    exact store.ids_nodup

/-- `put_entity(iteration_record)`; the experiment and the iteration are a key of the table. -/
def Store.putRecord (store : Store) (record : IterationRecord) : Option Store :=
  if (record.experimentId, record.iteration) ∈
      store.records.map fun r => (r.experimentId, r.iteration) then none
  else some { store with records := store.records ++ [record] }

/-! ### The proposer -/

/-- `_propose_offline`, with the hypothesis that is stamped. -/
def proposeOffline (e : Experiment) (context : ProposerContext) :
    Proposed × Option HypothesisRecord :=
  match nextPendingHypothesis context with
  | none => (.exhausted "llm proposer (offline) exhausted: no pending hypotheses remain", none)
  | some hyp =>
    let proposed := validated e (proposalFromHypothesis hyp)
    (proposed, consumedBy context proposed)

/-! ### A run -/

/-- What may raise in a round, or be the last that the process does. -/
inductive Call
  | fetch
  | persistConsumed
  | runIteration
  | putIteration
  | putDecision
  | stageAnalysis
deriving DecidableEq

/-- What a run is given from outside: the evaluator, what runs a proposal, and what fails. -/
structure Host where
  evaluate : Experiment → IterationAggregate → Option IterationAggregate → DecisionOutcome × String
  execute : ℕ → Proposal → Execution
  fails : ℕ → Call → Bool

/-- How a run ends. -/
inductive Ended
  | maxIterations
  | converged
  | searchSpaceExhausted (message : String)
  /-- `ProposalRejectedError`. -/
  | rejected (violations : List String)
  | failed
deriving DecidableEq

/-- Where a run is; `applied` are the hypotheses whose iteration was begun, as they were stamped. -/
structure Running where
  store : Store
  progress : Progress := {}
  applied : List HypothesisRecord := []

section Round
variable (e : Experiment) (host : Host)

/-- The loop of a round in which these hypotheses are pending. -/
def loopOf (pending : List HypothesisRecord) : OptimizationLoop where
  experiment := e
  proposer := .other fun e context =>
    (proposeOffline e ⟨context.iterationIndex, context.failureModes, pending⟩).1
  evaluate := host.evaluate
  execute := host.execute

/-- The round from the iteration's record on. -/
def finishRound (loop : OptimizationLoop) (s : Running) (index : ℕ) (it : IterationOutcome) :
    Running × Option Ended :=
  match s.store.putRecord it.iterationRecord with
  | none => (s, some .failed)
  | some store =>
    if host.fails index .putDecision then ({ s with store }, some .failed)
    else
      let progress := OptimizationLoop.advance s.progress it
      let s' := { s with store, progress }
      let convergence := e.run.convergence
      if host.fails index .stageAnalysis then (s', some .failed)
      else if earlyStopEnabled convergence.earlyStop loop.proposer ∧
          hasConverged progress.recentPrimary convergence.minDelta convergence.patience then
        (s', some .converged)
      else (s', none)

/-- The round from a proposal on. -/
def applyProposal (loop : OptimizationLoop) (s : Running) (index : ℕ) (proposal : Proposal)
    (consumed : Option HypothesisRecord) : Running × Option Ended :=
  if host.fails index .persistConsumed then (s, some .failed)
  else
    let s' : Running := {
      store := s.store.persistConsumed consumed
      progress := s.progress
      applied := s.applied ++ consumed.toList }
    if host.fails index .runIteration then (s', some .failed)
    else
      match loop.iterate s'.progress index proposal with
      | none => (s', some .failed)
      | some it =>
        if host.fails index .putIteration then (s', some .failed)
        else finishRound e host loop s' index it

/-- A round of `_run_iterations`. -/
def round (s : Running) (index : ℕ) : Running × Option Ended :=
  if host.fails index .fetch then (s, some .failed)
  else
    let pending := pendingHypotheses e.id s.store.hypotheses
    match proposeOffline e ⟨index, s.progress.prevFailureModes, pending⟩ with
    | (.exhausted message, _) => (s, some (.searchSpaceExhausted message))
    | (.rejected violations, _) => (s, some (.rejected violations))
    | (.raised _, _) => (s, some .failed)
    | (.proposal proposal, consumed) =>
      applyProposal e host (loopOf e host pending) s index proposal consumed

/-- `for index in range(max_iter)`, from one round on. -/
def runFrom (s : Running) (index : ℕ) : ℕ → Running × Ended
  | 0 => (s, .maxIterations)
  | remaining + 1 =>
    match round e host s index with
    | (s', some ended) => (s', ended)
    | (s', none) => runFrom s' (index + 1) remaining

end Round

/-- What a run leaves. -/
structure Outcome where
  store : Store
  applied : List HypothesisRecord
  ended : Ended

/-- The rounds of a run, over what is stored. -/
def run (e : Experiment) (store : Store) (host : Host) : Outcome :=
  let (s, ended) := runFrom e host { store } 0 e.run.maxIterations
  { store := s.store, applied := s.applied, ended }

/-- The runs of an experiment, each over what the one before left. -/
def session (e : Experiment) (store : Store) : List Host → List Outcome
  | [] => []
  | host :: hosts => run e store host :: session e (run e store host).store hosts

/-- What a session leaves. -/
def storeAfter (store : Store) : List Outcome → Store
  | [] => store
  | outcome :: outcomes => storeAfter outcome.store outcomes

/-! ### What is pending -/

/-- What hypotheses are ordered by. -/
def key (h : HypothesisRecord) : Time ×ₗ String := toLex (h.createdAt, h.id)

/-- A hypothesis that was consumed by an iteration. -/
def stamp (index : ℕ) (h : HypothesisRecord) : HypothesisRecord :=
  { h with consumedByIteration := some index }

/-- A hypothesis as it was before it was stamped. -/
def unstamp (h : HypothesisRecord) : HypothesisRecord := { h with consumedByIteration := none }

section Pending
variable {experimentId : String} {hypotheses rest : List HypothesisRecord} {hyp : HypothesisRecord}

theorem mem_pendingHypotheses : hyp ∈ pendingHypotheses experimentId hypotheses ↔
    hyp ∈ hypotheses ∧ hyp.experimentId = experimentId ∧ hyp.consumedByIteration = none := by
  unfold pendingHypotheses
  rw [(orderBy_perm _ _).mem_iff, List.mem_filter, decide_eq_true_eq]

theorem nodup_pendingHypotheses (h : (hypotheses.map (·.id)).Nodup) :
    ((pendingHypotheses experimentId hypotheses).map (·.id)).Nodup := by
  unfold pendingHypotheses
  exact ((orderBy_perm _ _).map _).nodup_iff.mpr (h.sublist (List.filter_sublist.map _))

/-- **What is pending is in order**, no two hypotheses at one place. -/
theorem pairwise_pendingHypotheses (h : (hypotheses.map (·.id)).Nodup) :
    (pendingHypotheses experimentId hypotheses).Pairwise fun a b => key a < key b := by
  have hle : (pendingHypotheses experimentId hypotheses).Pairwise fun a b => key a ≤ key b :=
    (isOrdering_orderBy key (List.Perm.refl _)).2
  have hne : (pendingHypotheses experimentId hypotheses).Pairwise fun a b => a.id ≠ b.id :=
    List.pairwise_map.mp (nodup_pendingHypotheses h)
  refine (hle.and hne).imp fun {a b} ⟨hab, hid⟩ => lt_of_le_of_ne hab fun heq => hid ?_
  exact congrArg (fun k : Time ×ₗ String => (ofLex k).2) heq

theorem filter_writeBack (index : ℕ) (p : HypothesisRecord → Bool)
    (hp : ∀ h, h.consumedByIteration.isSome → p h = false) :
    (writeBack (some (stamp index hyp)) hypotheses).filter p =
      (hypotheses.filter p).filter fun h => h.id ≠ hyp.id := by
  have hstamp : p (stamp index hyp) = false := hp _ rfl
  unfold writeBack
  induction hypotheses with
  | nil => rfl
  | cons h rest ih =>
    by_cases hid : hyp.id = h.id
    · have hsame : ((some (stamp index hyp)).filter (·.id = h.id)).getD h = stamp index hyp := by
        simp [Option.filter, stamp, hid]
      rw [List.map_cons, hsame, List.filter_cons_of_neg (by simp [hstamp]), ih]
      cases hh : p h with
      | true => rw [List.filter_cons_of_pos hh, List.filter_cons_of_neg (by simp [hid])]
      | false => rw [List.filter_cons_of_neg (by simp [hh])]
    · have hother : ((some (stamp index hyp)).filter (·.id = h.id)).getD h = h := by
        simp [Option.filter, stamp, hid]
      rw [List.map_cons, hother]
      cases hh : p h with
      | true =>
        rw [List.filter_cons_of_pos hh, List.filter_cons_of_pos hh, ih,
          List.filter_cons_of_pos (by simpa using Ne.symm hid)]
      | false =>
        rw [List.filter_cons_of_neg (by simp [hh]), List.filter_cons_of_neg (by simp [hh]), ih]

/-- **What is consumed is the first of what is pending**, and the rest stays as it is. -/
theorem pendingHypotheses_writeBack (hids : (hypotheses.map (·.id)).Nodup)
    (h : pendingHypotheses experimentId hypotheses = hyp :: rest) (index : ℕ) :
    pendingHypotheses experimentId (writeBack (some (stamp index hyp)) hypotheses) = rest := by
  have hsorted : (pendingHypotheses experimentId hypotheses).Pairwise fun a b => key a < key b :=
    pairwise_pendingHypotheses hids
  have hnodup : ((pendingHypotheses experimentId hypotheses).map (·.id)).Nodup :=
    nodup_pendingHypotheses hids
  rw [h] at hsorted hnodup
  rw [List.map_cons, List.nodup_cons] at hnodup
  have hrest : (hyp :: rest).filter (fun h => h.id ≠ hyp.id) = rest := by
    rw [List.filter_cons_of_neg (by simp), List.filter_eq_self]
    intro other hother
    have hne : other.id ≠ hyp.id := fun heq =>
      hnodup.1 (List.mem_map.mpr ⟨other, hother, heq⟩)
    simpa using hne
  refine eq_of_perm_of_pairwise ?_ (isOrdering_orderBy key (List.Perm.refl _)).2
    (List.pairwise_cons.mp hsorted).2
  refine (orderBy_perm _ _).trans ?_
  rw [filter_writeBack index _ fun h hsome => by
    cases hc : h.consumedByIteration with
    | none => rw [hc] at hsome; cases hsome
    | some i => simp]
  have hperm : (hypotheses.filter fun h =>
      decide (h.experimentId = experimentId ∧ h.consumedByIteration = none)).Perm (hyp :: rest) := by
    rw [← h]
    exact (orderBy_perm _ _).symm
  exact (hperm.filter _).trans (List.Perm.of_eq hrest)

end Pending

/-! ### What a run consumes -/

/-- From one storage to another these hypotheses were consumed: the first of what was pending. -/
structure Consumes (e : Experiment) (store store' : Store) (applied : List HypothesisRecord) :
    Prop where
  pending : pendingHypotheses e.id store.hypotheses =
    applied.map unstamp ++ pendingHypotheses e.id store'.hypotheses
  hypotheses : ∀ h ∈ store'.hypotheses, h ∈ store.hypotheses ∨ h ∈ applied
  records : ∀ record ∈ store.records, record ∈ store'.records

/-- An iteration that used the hypothesis is recorded. -/
def Used (e : Experiment) (store : Store) (h : HypothesisRecord) : Prop :=
  ∃ record ∈ store.records, record.experimentId = e.id ∧
    h.consumedByIteration = some record.iteration ∧ record.hypothesis = h.statement ∧
    record.proposedParameters = h.suggestedParameters

section Consumes
variable {e : Experiment} {store store' store'' : Store} {applied applied' : List HypothesisRecord}

theorem Consumes.refl (store : Store) : Consumes e store store [] :=
  ⟨rfl, fun _ h => .inl h, fun _ h => h⟩

theorem Consumes.trans (h : Consumes e store store' applied)
    (h' : Consumes e store' store'' applied') : Consumes e store store'' (applied ++ applied') where
  pending := by rw [h.pending, h'.pending, List.map_append, List.append_assoc]
  hypotheses x hx := by
    obtain hx | hx := h'.hypotheses x hx
    · exact (h.hypotheses x hx).imp_right fun hx => List.mem_append_left _ hx
    · exact .inr (List.mem_append_right _ hx)
  records x hx := h'.records x (h.records x hx)

theorem Used.mono {hyp : HypothesisRecord} (h : Consumes e store store' applied)
    (hused : Used e store hyp) : Used e store' hyp := by
  obtain ⟨record, hmem, hrecord⟩ := hused
  exact ⟨record, h.records record hmem, hrecord⟩

theorem consumes_persistConsumed {hyp : HypothesisRecord} {rest : List HypothesisRecord}
    (h : pendingHypotheses e.id store.hypotheses = hyp :: rest) (index : ℕ) :
    Consumes e store (store.persistConsumed (some (stamp index hyp))) [stamp index hyp] where
  pending := by
    have hmem : hyp ∈ pendingHypotheses e.id store.hypotheses := by
      rw [h]
      exact List.mem_cons_self
    have hnone := (mem_pendingHypotheses.mp hmem).2.2
    have hsame : unstamp (stamp index hyp) = hyp := by
      unfold unstamp stamp
      rw [← hnone]
    rw [h, List.map_singleton, hsame, List.singleton_append]
    congr 1
    exact (pendingHypotheses_writeBack store.ids_nodup h index).symm
  hypotheses := by
    intro x hx
    obtain ⟨y, hy, rfl⟩ := List.mem_map.mp hx
    by_cases hid : (stamp index hyp).id = y.id
    · right
      simp [Option.filter, hid]
    · left
      simpa [Option.filter, hid] using hy
  records _ h := h

theorem consumes_putRecord {record : IterationRecord} (h : store.putRecord record = some store') :
    Consumes e store store' [] ∧ record ∈ store'.records := by
  unfold Store.putRecord at h
  split_ifs at h
  obtain rfl := Option.some.inj h
  exact ⟨⟨rfl, fun _ h => .inl h, fun _ h => List.mem_append_left _ h⟩,
    List.mem_append_right _ List.mem_cons_self⟩

end Consumes

/-! ### A round -/

/-- The first pending hypothesis was refused, and is pending. -/
def Refused (e : Experiment) (store : Store) (violations : List String) : Prop :=
  ∃ hyp ∈ store.hypotheses, hyp.consumedByIteration = none ∧
    (pendingHypotheses e.id store.hypotheses).head? = some hyp ∧
    validated e (proposalFromHypothesis hyp) = .rejected violations

/-- What was applied has been used, but for the last where the run failed. -/
def Accounted (e : Experiment) (store : Store) (applied : List HypothesisRecord) (failed : Prop) :
    Prop :=
  ∀ h ∈ applied, Used e store h ∨ failed ∧ applied.getLast? = some h

/-- What a round does to the storage. -/
structure RoundSpec (e : Experiment) (s s' : Running) (ended : Option Ended)
    (new : List HypothesisRecord) : Prop where
  applied : s'.applied = s.applied ++ new
  consumes : Consumes e s.store s'.store new
  accounted : Accounted e s'.store new (ended = some .failed)
  refused : ∀ violations, ended = some (.rejected violations) → Refused e s'.store violations

section Round
variable {e : Experiment} {host : Host} {loop : OptimizationLoop} {s : Running} {index : ℕ}
  {hyp : HypothesisRecord} {rest : List HypothesisRecord}

theorem nextPendingHypothesis_eq (index : ℕ) (failureModes : List String) (experimentId : String)
    (hypotheses : List HypothesisRecord) :
    nextPendingHypothesis ⟨index, failureModes, pendingHypotheses experimentId hypotheses⟩ =
      (pendingHypotheses experimentId hypotheses).head? := by
  have hnone : ∀ h ∈ pendingHypotheses experimentId hypotheses, h.consumedByIteration = none :=
    fun h hh => (mem_pendingHypotheses.mp hh).2.2
  unfold nextPendingHypothesis
  dsimp only
  cases hpending : pendingHypotheses experimentId hypotheses with
  | nil => rfl
  | cons h rest =>
    rw [hpending] at hnone
    rw [List.find?_cons_of_pos (by simp [hnone h List.mem_cons_self]), List.head?_cons]

theorem iterate_record {s : Progress} {proposal : Proposal} {it : IterationOutcome}
    (h : loop.iterate s index proposal = some it) :
    it.iterationRecord.experimentId = loop.experiment.id ∧ it.iterationRecord.iteration = index ∧
      it.iterationRecord.hypothesis = proposal.hypothesis ∧
      it.iterationRecord.proposedParameters = proposal.parameters := by
  simp only [OptimizationLoop.iterate, Option.bind_eq_bind, Option.bind_eq_some_iff] at h
  obtain ⟨_, -, hround⟩ := h
  simp only [runRound, Option.bind_eq_bind, Option.bind_eq_some_iff] at hround
  obtain ⟨_, -, record, hrecord, hit⟩ := hround
  obtain rfl := Option.some.inj hit
  simp only [buildIterationRecord, Option.bind_eq_bind, Option.bind_eq_some_iff] at hrecord
  obtain ⟨metrics, -, hrecord⟩ := hrecord
  split_ifs at hrecord
  obtain rfl := Option.some.inj hrecord
  exact ⟨rfl, rfl, rfl, rfl⟩

theorem RoundSpec.unchanged (s : Running) {ended : Ended}
    (h : ∀ violations, ended = .rejected violations → Refused e s.store violations) :
    RoundSpec e s s (some ended) [] where
  applied := (List.append_nil _).symm
  consumes := .refl _
  accounted := by simp [Accounted]
  refused violations heq := h violations (Option.some.inj heq)

theorem round_applied {s' : Running} {ended : Option Ended}
    (hpending : pendingHypotheses e.id s.store.hypotheses = hyp :: rest)
    (hloop : loop.experiment = e)
    (h : applyProposal e host loop s index (proposalFromHypothesis hyp)
      (some (stamp index hyp)) = (s', ended)) :
    ∃ new, RoundSpec e s s' ended new := by
  have hconsumes := consumes_persistConsumed hpending index
  -- once the hypothesis is put, what raises leaves it without a record
  have hlost {s' : Running} (happlied : s'.applied = s.applied ++ [stamp index hyp])
      (hstore : Consumes e s.store s'.store [stamp index hyp]) :
      RoundSpec e s s' (some .failed) [stamp index hyp] :=
    ⟨happlied, hstore, fun h hh => .inr ⟨rfl, by simpa using (List.mem_singleton.mp hh).symm⟩,
      by simp⟩
  unfold applyProposal at h
  split at h
  · obtain ⟨rfl, rfl⟩ := Prod.mk.inj h
    exact ⟨[], .unchanged s (by simp)⟩
  dsimp only at h
  split at h
  · obtain ⟨rfl, rfl⟩ := Prod.mk.inj h
    exact ⟨_, hlost rfl hconsumes⟩
  split at h
  · obtain ⟨rfl, rfl⟩ := Prod.mk.inj h
    exact ⟨_, hlost rfl hconsumes⟩
  next it hit =>
  split at h
  · obtain ⟨rfl, rfl⟩ := Prod.mk.inj h
    exact ⟨_, hlost rfl hconsumes⟩
  unfold finishRound at h
  split at h
  · obtain ⟨rfl, rfl⟩ := Prod.mk.inj h
    exact ⟨_, hlost rfl hconsumes⟩
  next store hstore =>
  obtain ⟨hgrows, hmem⟩ := consumes_putRecord (e := e) hstore
  have hstored : Consumes e s.store store [stamp index hyp] := hconsumes.trans hgrows
  obtain ⟨hid, hindex, hstatement, hparameters⟩ := iterate_record hit
  have hused : ∀ h ∈ [stamp index hyp], Used e store h := by
    intro h hh
    obtain rfl := List.mem_singleton.mp hh
    exact ⟨_, hmem, by rw [hid, hloop], by rw [hindex]; rfl, hstatement, hparameters⟩
  refine ⟨[stamp index hyp], ?_⟩
  dsimp only at h
  split_ifs at h
  all_goals
    obtain ⟨rfl, rfl⟩ := Prod.mk.inj h
    exact ⟨rfl, hstored, fun h hh => .inl (hused h hh), by simp⟩

/-- **What a round does**: nothing, or it applies the first pending hypothesis. -/
theorem round_spec {s' : Running} {ended : Option Ended}
    (h : round e host s index = (s', ended)) : ∃ new, RoundSpec e s s' ended new := by
  unfold round at h
  split at h
  · obtain ⟨rfl, rfl⟩ := Prod.mk.inj h
    exact ⟨[], .unchanged s (by simp)⟩
  dsimp only at h
  unfold proposeOffline at h
  rw [nextPendingHypothesis_eq] at h
  cases hpending : pendingHypotheses e.id s.store.hypotheses with
  | nil =>
    rw [hpending] at h
    obtain ⟨rfl, rfl⟩ := Prod.mk.inj h
    exact ⟨[], .unchanged s (by simp)⟩
  | cons hyp rest =>
    have hmem : hyp ∈ pendingHypotheses e.id s.store.hypotheses := by
      rw [hpending]
      exact List.mem_cons_self
    obtain ⟨hstored, -, hnone⟩ := mem_pendingHypotheses.mp hmem
    have hconsumed (proposal : Proposal) : consumedBy ⟨index, s.progress.prevFailureModes,
        pendingHypotheses e.id s.store.hypotheses⟩ (.proposal proposal) =
          some (stamp index hyp) := by
      unfold consumedBy
      rw [nextPendingHypothesis_eq, hpending]
      rfl
    rw [hpending, List.head?_cons] at h
    dsimp only at h
    rw [← hpending] at h
    unfold validated at h
    split_ifs at h with hvalid
    · rw [hconsumed] at h
      exact round_applied hpending rfl h
    · obtain ⟨rfl, rfl⟩ := Prod.mk.inj h
      refine ⟨[], .unchanged s fun violations heq => ⟨hyp, hstored, hnone, ?_, ?_⟩⟩
      · rw [hpending, List.head?_cons]
      · unfold validated
        rw [if_neg hvalid, Ended.rejected.inj heq]

theorem RoundSpec.trans {s' s'' : Running} {ended : Option Ended}
    {new new' : List HypothesisRecord} (h : RoundSpec e s s' none new)
    (h' : RoundSpec e s' s'' ended new') : RoundSpec e s s'' ended (new ++ new') where
  applied := by rw [h'.applied, h.applied, List.append_assoc]
  consumes := h.consumes.trans h'.consumes
  accounted := by
    intro hyp hmem
    obtain hmem | hmem := List.mem_append.mp hmem
    · obtain hused | ⟨hfailed, -⟩ := h.accounted hyp hmem
      · exact .inl (hused.mono h'.consumes)
      · cases hfailed
    · refine (h'.accounted hyp hmem).imp_right fun ⟨hfailed, hlast⟩ => ⟨hfailed, ?_⟩
      rw [List.getLast?_append, hlast]
      rfl
  refused := h'.refused

theorem runFrom_spec (e : Experiment) (host : Host) (remaining : ℕ) {s s' : Running} {index : ℕ}
    {ended : Ended} (h : runFrom e host s index remaining = (s', ended)) :
    ∃ new, RoundSpec e s s' (some ended) new := by
  induction remaining generalizing s index with
  | zero =>
    obtain ⟨rfl, rfl⟩ := Prod.mk.inj h
    exact ⟨[], .unchanged s (by simp)⟩
  | succ remaining ih =>
    unfold runFrom at h
    split at h
    · next s₁ reason hround =>
      obtain ⟨rfl, rfl⟩ := Prod.mk.inj h
      exact round_spec hround
    · next s₁ hround =>
      obtain ⟨new, hnew⟩ := round_spec hround
      obtain ⟨new', hnew'⟩ := ih h
      exact ⟨new ++ new', hnew.trans hnew'⟩

end Round

/-! ### Runs, one after the other -/

section Session
variable (e : Experiment) (store : Store)

/-- **What a run does to the storage.** -/
theorem run_accounted (host : Host) :
    Consumes e store (run e store host).store (run e store host).applied ∧
      Accounted e (run e store host).store (run e store host).applied
        ((run e store host).ended = .failed) ∧
      ∀ violations, (run e store host).ended = .rejected violations →
        Refused e (run e store host).store violations := by
  obtain ⟨⟨s, ended⟩, hrun⟩ : ∃ p, runFrom e host { store } 0 e.run.maxIterations = p := ⟨_, rfl⟩
  obtain ⟨new, hspec⟩ := runFrom_spec e host _ hrun
  have happlied : s.applied = new := hspec.applied
  unfold run
  rw [hrun]
  dsimp only
  rw [happlied]
  refine ⟨hspec.consumes, ?_, fun violations heq => hspec.refused violations (congrArg some heq)⟩
  exact fun h hh => (hspec.accounted h hh).imp_right (And.imp_left Option.some.inj)

theorem session_consumes (hosts : List Host) :
    Consumes e store (storeAfter store (session e store hosts))
      ((session e store hosts).flatMap (·.applied)) := by
  induction hosts generalizing store with
  | nil => exact .refl store
  | cons host hosts ih =>
    rw [session, List.flatMap_cons]
    exact (run_accounted e store host).1.trans (ih _)

theorem session_accounted (hosts : List Host) : ∀ outcome ∈ session e store hosts,
    (∀ violations, outcome.ended = .rejected violations → Refused e outcome.store violations) ∧
      ∀ h ∈ outcome.applied, Used e (storeAfter store (session e store hosts)) h ∨
        outcome.ended = .failed ∧ outcome.applied.getLast? = some h := by
  induction hosts generalizing store with
  | nil => simp [session]
  | cons host hosts ih =>
    intro outcome hmem
    rw [session] at hmem ⊢
    obtain ⟨-, haccounted, hrefused⟩ := run_accounted e store host
    obtain rfl | hmem := List.mem_cons.mp hmem
    · refine ⟨hrefused, fun h hh => ?_⟩
      exact (haccounted h hh).imp_left (·.mono (session_consumes e _ hosts))
    · exact ih _ outcome hmem

/-- What is asked of the runs of an experiment over one storage. -/
structure Lawful (outcomes : List Outcome) : Prop where
  /-- Hypotheses are applied by the time they were created, then by id; the first ones are. -/
  in_order : (outcomes.flatMap (·.applied)).Pairwise fun a b => key a < key b
  first : (outcomes.flatMap (·.applied)).map (·.id) <+:
    (pendingHypotheses e.id store.hypotheses).map (·.id)
  once : ((outcomes.flatMap (·.applied)).map (·.id)).Nodup
  /-- One that is refused is not consumed. -/
  refused : ∀ outcome ∈ outcomes, ∀ violations, outcome.ended = .rejected violations →
    Refused e outcome.store violations
  /-- One that was consumed is used in an iteration that is recorded, unless it was the last of a
  run that failed. -/
  recorded : ∀ h ∈ (storeAfter store outcomes).hypotheses, h.consumedByIteration.isSome →
    h ∈ store.hypotheses ∨ Used e (storeAfter store outcomes) h ∨
      ∃ outcome ∈ outcomes, outcome.ended = .failed ∧ outcome.applied.getLast? = some h

/-- **The runs of an experiment are lawful.** -/
theorem session_lawful (hosts : List Host) : Lawful e store (session e store hosts) := by
  have hconsumes := session_consumes e store hosts
  have hids : (((session e store hosts).flatMap (·.applied)).map unstamp).map (·.id) =
      ((session e store hosts).flatMap (·.applied)).map (·.id) := by
    rw [List.map_map]
    rfl
  have hsub : (((session e store hosts).flatMap (·.applied)).map unstamp).Sublist
      (pendingHypotheses e.id store.hypotheses) := by
    rw [hconsumes.pending]
    exact List.sublist_append_left _ _
  constructor
  · have hsorted := (pairwise_pendingHypotheses store.ids_nodup).sublist hsub
    rw [List.pairwise_map] at hsorted
    exact hsorted
  · rw [hconsumes.pending, List.map_append, hids]
    exact List.prefix_append _ _
  · rw [← hids]
    exact (nodup_pendingHypotheses store.ids_nodup).sublist (hsub.map _)
  · exact fun outcome hmem => (session_accounted e store hosts outcome hmem).1
  · intro h hmem _
    refine (hconsumes.hypotheses h hmem).imp_right fun happlied => ?_
    obtain ⟨outcome, houtcome, hh⟩ := List.mem_flatMap.mp happlied
    exact ((session_accounted e store hosts outcome houtcome).2 h hh).imp_right fun hfailed =>
      ⟨outcome, houtcome, hfailed⟩

end Session

/-- A run whose first iteration raises. -/
def raising : Host where
  evaluate _ _ _ := (.investigate, "")
  execute _ _ := .inProcess []
  fails _ call := call = .runIteration

def oneColder : Store where
  hypotheses := [⟨"hyp_1", "exp_1", 0, "slow", "colder",
    [("model_params", .obj [("temperature", .int 0)])], none⟩]
  ids_nodup := by decide

/-- **A hypothesis is lost** when the iteration raises: it is consumed, and nothing is recorded. -/
theorem not_all_recorded : ¬∀ (e : Experiment) (store : Store) (hosts : List Host),
    ∀ h ∈ (storeAfter store (session e store hosts)).hypotheses, h.consumedByIteration.isSome →
      h ∈ store.hypotheses ∨ Used e (storeAfter store (session e store hosts)) h := by
  intro h
  have hstore : (storeAfter oneColder (session .minimal oneColder [raising])).hypotheses =
      oneColder.hypotheses.map (stamp 0) := by decide +kernel
  have hrecords : (storeAfter oneColder (session .minimal oneColder [raising])).records.length =
      0 := by decide +kernel
  obtain hold | ⟨record, hmem, -⟩ := h .minimal oneColder [raising] _
    (by rw [hstore]; exact List.mem_cons_self) rfl
  · exact absurd hold (by decide)
  · rw [List.length_eq_zero_iff.mp hrecords] at hmem
    cases hmem

end Selfevals.Optimization.HypothesisRuns
