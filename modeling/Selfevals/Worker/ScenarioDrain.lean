import Selfevals.Lib.Loop
import Selfevals.Worker.ScenarioBudget
import Selfevals.Worker.ScenarioLeases

/-!
# Does the self-drain end?

`drain_self` runs batches of an iteration until a claim comes back empty. Each batch is a run of the
system in which one worker claims and finishes, so what holds of the system holds between batches;
and each claim uses up an attempt of a pending job.

* `weight`: twice the attempts left to the pending and claimed jobs, and the claims under way.
-/

namespace Selfevals.Worker.ScenarioDrain

open Lib.Run Lib.Loop Lib.Sql Schemas.Base Schemas.Job Storage.ScenarioQueries
  Optimization.Aggregator Worker.ScenarioRunner Worker.ScenarioBudget Worker.ScenarioLeases

/-! ### The loop -/

/-- What the worker is given from outside: how each execution of a case ends, in an outcome of that
case or an exception, the ids it makes and the clocks it reads. -/
structure Cases where
  run : ScenarioJob → Except String CaseOutcome
  run_caseId : ∀ {sj outcome}, run sj = .ok outcome → outcome.caseId = sj.caseId
  outcomeId : ScenarioJob → String
  now : ScenarioJob → Time
  leaseUntil : Store → Time

/-- `_run_one_scenario_job`. -/
def runOneScenarioJob (cases : Cases) (store : Store) (sj : ScenarioJob) : Store :=
  match cases.run sj with
  | .ok outcome =>
    { store with
      outcomes := writeScenarioOutcome store.outcomes
        (outcomeRow sj outcome (cases.outcomeId sj) (cases.now sj))
      scenarioJobs := finalizeScenarioJob store.scenarioJobs sj.id .succeeded none (cases.now sj) }
  | .error error =>
    let failed := (sj.markFailedOrDeadLettered error (cases.now sj)).1
    { store with
      scenarioJobs := finalizeScenarioJob store.scenarioJobs sj.id failed.status (some error)
        (cases.now sj) }

/-- `run_scenario_jobs_once`, when no other claim holds a row. -/
def runScenarioJobsOnce (cases : Cases) (runJobId : String) (iteration : ℕ) (workerId : String)
    (batch : ℕ) (store : Store) : Store × ℕ :=
  if runJobId ∈ store.runJobs.map (·.id) then
    let (jobs, claimed) := claimScenarioJobs store.scenarioJobs runJobId iteration workerId
      (cases.leaseUntil store) batch []
    (claimed.foldl (runOneScenarioJob cases) { store with scenarioJobs := jobs }, claimed.length)
  else (store, 0)

/-- `DEFAULT_BATCH`. -/
def defaultBatch : ℕ := 4

/-- The `drain` of `drain_self`, for at most `fuel` batches. -/
def drain (cases : Cases) (workspaceId runJobId : String) (iteration fuel : ℕ) (store : Store) :
    Option Store :=
  whileSome (runScenarioJobsOnce cases runJobId iteration (workspaceId ++
    ":self-drain") defaultBatch)
    fuel store

/-! ### The measure -/

/-- Twice the attempts left to a job, and one more for a claim. -/
def jobWeight (j : ScenarioJob) : ℕ :=
  match j.status with
  | .pending => 2 * (j.maxAttempts - j.attempt)
  | .claimed => 2 * (j.maxAttempts - j.attempt) + 1
  | _ => 0

def weight (jobs : List ScenarioJob) : ℕ := (jobs.map jobWeight).sum

theorem jobWeight_claimed {j : ScenarioJob} (h : Counts j) (hp : j.status = .pending)
    (workerId : String) (leaseUntil : Time) :
    jobWeight (claimed workerId leaseUntil j) < jobWeight j := by
  have hlt : j.attempt < j.maxAttempts := by simpa [Counts, hp] using h
  simp only [jobWeight, claimed, hp]
  omega

theorem jobWeight_finalized {j j' : ScenarioJob} (hc : j.status = .claimed)
    (hattempt : j'.attempt = j.attempt) (hmax : j'.maxAttempts = j.maxAttempts)
    (hst : j'.status = .succeeded ∨ j'.status = .deadLettered ∨ j'.status = .pending) :
    jobWeight j' ≤ jobWeight j := by
  unfold jobWeight
  rcases hst with hst | hst | hst <;> rw [hst, hc]
  · exact Nat.zero_le _
  · exact Nat.zero_le _
  · rw [hattempt, hmax]
    exact Nat.le_succ _

/-! ### Sound states -/

section Sound
variable {ι : Type} [DecidableEq ι]

/-- What every reachable state of the system is. -/
structure Sound (s : State ι) : Prop where
  inv : Inv s
  budget : Budget s
  parents : Parents s.store

omit [DecidableEq ι] in
theorem sound_init : Sound (init : State ι) := ⟨inv_init, budget_init, parents_init⟩

theorem sound_exec {s s' : State ι} {ops : List (Op ι)} (h : Sound s)
    (hs : exec step s ops = some s') : Sound s' :=
  inv_of_exec (fun t op t' ht hstep => ⟨inv_step t op t' ht.inv hstep,
    budget_step ht.inv ht.budget hstep, parents_step t op t' ht.inv ht.parents hstep⟩) h hs

/-- The tables, when no worker is at work. -/
def idle (store : Store) : State Unit := ⟨store, fun _ => {}⟩

omit [DecidableEq ι] in
theorem sound_idle {s : State ι} (h : Sound s) : Sound (idle s.store) where
  inv :=
    { tables := h.inv.tables
      held := fun _ _ hsj => absurd hsj List.not_mem_nil
      heldIds := fun _ => List.nodup_nil
      apart := fun _ _ _ _ hsj => absurd hsj List.not_mem_nil
      wrote := fun _ _ _ hp => by cases hp }
  budget := ⟨h.budget.rows, fun _ _ hsj => absurd hsj List.not_mem_nil⟩
  parents := h.parents

end Sound

/-! ### A batch -/

section Batch
variable {runJobId : String} {iteration : ℕ}

/-- The only worker: what is claimed of the iteration, it holds. -/
def OnlyWorker (runJobId : String) (iteration : ℕ) (s : State Unit) : Prop :=
  ∀ j ∈ s.store.scenarioJobs, ofIteration runJobId iteration j = true → j.status = .claimed →
    ∃ sj ∈ (s.worker ()).held, sj.id = j.id

/-- What a worker leaves behind from one state to a later one: the rows of the same jobs, that weigh
no more. -/
def Lighter (jobs jobs' : List ScenarioJob) : Prop :=
  jobs'.map jobKey = jobs.map jobKey ∧ weight jobs' ≤ weight jobs

theorem lighter_finalize {s : State Unit} (h : Sound s) {sj : ScenarioJob}
    (hsj : sj ∈ (s.worker ()).held) {status : ScenarioJobStatus}
    (hst : status = .succeeded ∨ status = .deadLettered ∨ status = .pending)
    (error : Option String) (now : Time) :
    Lighter s.store.scenarioJobs
      (finalizeScenarioJob s.store.scenarioJobs sj.id status error now) := by
  refine ⟨map_key_finalize, sum_updateWhere_le fun j hj hid => ?_⟩
  obtain rfl := h.inv.tables.eq_of_id hj (h.budget.copies () sj hsj) (by simpa using hid)
  have hclaimed := claimed_of_held h.inv hj ⟨(), j, hsj, rfl⟩
  exact jobWeight_finalized hclaimed rfl rfl hst

theorem onlyWorker_finish {s : State Unit} (h : OnlyWorker runJobId iteration s)
    {sj : ScenarioJob} {rest : List ScenarioJob} (hp : (s.worker ()).held = sj :: rest)
    {status : ScenarioJobStatus}
    (hst : status = .succeeded ∨ status = .deadLettered ∨ status = .pending)
    (error : Option String) (now : Time) :
    OnlyWorker runJobId iteration (s.finish () sj status error now) := by
  intro j hj hof hclaimed
  rcases mem_finalize hj with ⟨-, -, -, -, -, hstatus⟩ | ⟨hold, hne⟩
  · rw [hstatus] at hclaimed
    rcases hst with hst | hst | hst <;> rw [hst] at hclaimed <;> cases hclaimed
  · obtain ⟨sj', hsj', hid⟩ := h j hold hof hclaimed
    rw [hp] at hsj'
    rcases List.mem_cons.mp hsj' with rfl | hsj'
    · exact absurd hid.symm hne
    · exact ⟨sj', by simpa [State.finish, State.setWorker, hp] using hsj', hid⟩

theorem failed_status (sj : ScenarioJob) (error : String) (now : Time) :
    (sj.markFailedOrDeadLettered error now).1.status = .deadLettered ∨
      (sj.markFailedOrDeadLettered error now).1.status = .pending := by
  rw [ScenarioJob.markFailedOrDeadLettered_status]
  split_ifs
  · exact Or.inl rfl
  · exact Or.inr rfl

theorem exec_runOne (cases : Cases) {s : State Unit} (h : Sound s)
    (honly : OnlyWorker runJobId iteration s) {sj : ScenarioJob} {rest : List ScenarioJob}
    (hp : s.worker () = { held := sj :: rest }) :
    ∃ ops t, exec step s ops = some t ∧ t.store = runOneScenarioJob cases s.store sj ∧
      t.worker () = { held := rest } ∧ OnlyWorker runJobId iteration t ∧
      Lighter s.store.scenarioJobs t.store.scenarioJobs := by
  have hheld : (s.worker ()).held = sj :: rest := by rw [hp]
  have hmem : sj ∈ (s.worker ()).held := by rw [hheld]; exact List.mem_cons_self
  unfold runOneScenarioJob
  cases hrun : cases.run sj with
  | ok outcome =>
    let written : State Unit := { s.setWorker () { s.worker () with wrote := true } with
      store := { s.store with
        outcomes := writeScenarioOutcome s.store.outcomes
          (outcomeRow sj outcome (cases.outcomeId sj) (cases.now sj)) } }
    have hself : written.worker () = { held := sj :: rest, wrote := true } := by
      simp [written, State.setWorker, hp]
    have hwrite : step s (.writeOutcome () outcome (cases.outcomeId sj) (cases.now sj)) =
        some written := by
      simp [step, hp, cases.run_caseId hrun, written]
    have hsucceed : step written (.succeed () (cases.now sj)) =
        some (written.finish () sj .succeeded none (cases.now sj)) := by
      simp only [step, hself, if_true]
    have honly' : OnlyWorker runJobId iteration written := by
      intro j hj hof hclaimed
      obtain ⟨sj', hsj', hid⟩ := honly j hj hof hclaimed
      exact ⟨sj', by rw [hself]; rwa [hheld] at hsj', hid⟩
    refine ⟨[.writeOutcome () outcome (cases.outcomeId sj) (cases.now sj),
      .succeed () (cases.now sj)],
      written.finish () sj .succeeded none (cases.now sj), ?_, rfl, ?_, ?_, ?_⟩
    · rw [exec_cons, hwrite, Option.bind_some, exec_cons, hsucceed]
      rfl
    · simp [State.finish, State.setWorker, hself]
    · exact onlyWorker_finish honly' (by rw [hself]) (Or.inl rfl) none (cases.now sj)
    · exact lighter_finalize h hmem (Or.inl rfl) none (cases.now sj)
  | error error =>
    have hst := failed_status sj error (cases.now sj)
    refine ⟨[.fail () error (cases.now sj)], s.finish () sj
      (sj.markFailedOrDeadLettered error (cases.now sj)).1.status (some error) (cases.now sj), ?_,
      rfl, ?_, ?_, ?_⟩
    · simp only [exec_cons, step, hheld, Option.bind_some, exec_nil]
    · simp [State.finish, State.setWorker, hheld]
    · exact onlyWorker_finish honly hheld (Or.inr hst) (some error) (cases.now sj)
    · exact lighter_finalize h hmem (Or.inr hst) (some error) (cases.now sj)

/-- **A batch is a run of the system.** -/
theorem exec_batch (cases : Cases) (batch : List ScenarioJob) : ∀ {s : State Unit}, Sound s →
    OnlyWorker runJobId iteration s → s.worker () = { held := batch } →
    ∃ ops t, exec step s ops = some t ∧ t.store = batch.foldl (runOneScenarioJob cases) s.store ∧
      t.worker () = {} ∧ OnlyWorker runJobId iteration t ∧
      Lighter s.store.scenarioJobs t.store.scenarioJobs := by
  induction batch with
  | nil => exact fun {s} _ honly hp => ⟨[], s, rfl, rfl, hp, honly, rfl, le_rfl⟩
  | cons sj batch ih =>
    intro s h honly hp
    obtain ⟨ops, t, hexec, hstore, hself, hont, hkeys, hle⟩ := exec_runOne cases h honly hp
    obtain ⟨ops', u, hexec', hstore', hself', honu, hkeys', hle'⟩ :=
      ih (sound_exec h hexec) hont hself
    refine ⟨ops ++ ops', u, by rw [exec_append_of hexec, hexec'], ?_, hself', honu,
      hkeys'.trans hkeys, hle'.trans hle⟩
    rw [hstore', hstore]
    rfl

/-! ### Rounds -/

/-- Between two batches of the only worker. -/
structure Ready (runJobId : String) (iteration : ℕ) (store : Store) : Prop where
  sound : Sound (idle store)
  free : ∀ j ∈ store.scenarioJobs, ofIteration runJobId iteration j = true → j.status ≠ .claimed

theorem weight_claim {jobs : List ScenarioJob} (hids : (jobs.map (·.id)).Nodup)
    (hcounts : ∀ j ∈ jobs, Counts j) (workerId : String) (leaseUntil : Time) (batch : ℕ)
    (hne : (claimScenarioJobs jobs runJobId iteration workerId leaseUntil batch []).2 ≠ []) :
    weight (claimScenarioJobs jobs runJobId iteration workerId leaseUntil batch []).1 <
      weight jobs := by
  have hlow : ∀ j ∈ jobs, decide (j.id ∈ claimable jobs runJobId iteration [] batch) = true →
      jobWeight (claimed workerId leaseUntil j) < jobWeight j := by
    intro j hj hid
    obtain ⟨j₀, hj₀, heq, -, hpending⟩ := mem_claimable (of_decide_eq_true hid)
    obtain rfl := eq_of_key hids hj₀ hj heq
    exact jobWeight_claimed (hcounts j₀ hj) hpending workerId leaseUntil
  obtain ⟨sj, hsj⟩ := List.exists_mem_of_ne_nil _ hne
  obtain ⟨j, hj, -⟩ := List.mem_map.mp hsj
  obtain ⟨hmem, hid⟩ := List.mem_filter.mp hj
  exact sum_updateWhere_lt (fun j hj hid => (hlow j hj hid).le) hmem hid (hlow j hmem hid)

theorem not_pending_of_empty {jobs : List ScenarioJob} {workerId : String} {leaseUntil : Time}
    {batch : ℕ} (hbatch : batch ≠ 0)
    (h : (claimScenarioJobs jobs runJobId iteration workerId leaseUntil batch []).2 = [])
    {j : ScenarioJob} (hj : j ∈ jobs) (hof : ofIteration runJobId iteration j = true) :
    j.status ≠ .pending := by
  intro hpending
  let rows := jobs.filter fun j =>
    ofIteration runJobId iteration j && j.status == .pending && j.id ∉ ([] : List String)
  have hrow : j ∈ orderBy (·.id) rows :=
    (orderBy_perm _ _).mem_iff.mpr (List.mem_filter.mpr ⟨hj, by simp [hof, hpending]⟩)
  have htake : (orderBy (·.id) rows).take batch ≠ [] := by
    rw [Ne, List.take_eq_nil_iff]
    rintro (h0 | h0)
    · exact hbatch h0
    · rw [h0] at hrow
      exact absurd hrow List.not_mem_nil
  obtain ⟨first, hfirst⟩ := List.exists_mem_of_ne_nil _ htake
  have hid : first.id ∈ claimable jobs runJobId iteration [] batch := List.mem_map_of_mem hfirst
  have hin : first ∈ jobs :=
    (List.mem_filter.mp ((orderBy_perm _ _).mem_iff.mp (List.mem_of_mem_take hfirst))).1
  have hclaimed : claimed workerId leaseUntil first ∈
      (claimScenarioJobs jobs runJobId iteration workerId leaseUntil batch []).2 :=
    List.mem_map_of_mem (List.mem_filter.mpr ⟨hin, decide_eq_true hid⟩)
  rw [h] at hclaimed
  exact absurd hclaimed List.not_mem_nil

theorem ready_round (cases : Cases) (workerId : String) (batch : ℕ) {store : Store}
    (h : Ready runJobId iteration store) :
    Ready runJobId iteration (runScenarioJobsOnce cases runJobId iteration workerId batch store).1 ∧
      (runScenarioJobsOnce cases runJobId iteration workerId batch store).1.scenarioJobs.map
        jobKey =
        store.scenarioJobs.map jobKey ∧
      ((runScenarioJobsOnce cases runJobId iteration workerId batch store).2 ≠ 0 →
        weight (runScenarioJobsOnce cases runJobId iteration workerId batch store).1.scenarioJobs <
          weight store.scenarioJobs) := by
  unfold runScenarioJobsOnce
  split_ifs with hrun
  · have hids : (store.scenarioJobs.map (·.id)).Nodup := h.sound.inv.tables.ids
    dsimp only
    set rows := claimScenarioJobs store.scenarioJobs runJobId iteration workerId
      (cases.leaseUntil store) batch [] with hrows
    let op : Op Unit := .claim () runJobId iteration workerId (cases.leaseUntil store) batch []
    let t : State Unit := { (idle store).setWorker () { held := rows.2 } with
      store := { store with scenarioJobs := rows.1 } }
    have ht : step (idle store) op = some t := if_pos ⟨rfl, hrun⟩
    have honly : OnlyWorker runJobId iteration t := by
      intro j hj hof hclaimed
      rcases mem_claim hids hj with ⟨_, _, _, _, hheld⟩ | hold
      · exact ⟨j, by simpa [t, State.setWorker] using hheld, rfl⟩
      · exact absurd hclaimed (h.free j hold hof)
    have hclaimed : exec step (idle store) [op] = some t := by rw [exec_cons, ht]; rfl
    have hsound : Sound t := sound_exec h.sound hclaimed
    obtain ⟨ops, u, hexec, hstore, hself, honu, hkeys, hle⟩ := exec_batch cases rows.2 hsound honly
      (by simp [t, State.setWorker])
    have hidle : idle u.store = u := by
      have hworker : u.worker = fun _ => {} := funext fun _ => hself
      rw [idle, ← hworker]
    have hsame : t.store = { store with scenarioJobs := rows.1 } := rfl
    rw [hsame] at hstore hkeys hle
    rw [← hstore]
    refine ⟨⟨by rw [hidle]; exact sound_exec hsound hexec, fun j hj hof hclaimed => ?_⟩, ?_, ?_⟩
    · obtain ⟨sj, hsj, -⟩ := honu j hj hof hclaimed
      rw [hself] at hsj
      exact absurd hsj List.not_mem_nil
    · rw [hkeys, hrows]
      exact map_key_claim
    · intro hne
      refine hle.trans_lt (weight_claim hids h.sound.budget.rows workerId _ batch ?_)
      intro hnil
      rw [← hrows] at hnil
      exact hne (by rw [hnil]; rfl)
  · exact ⟨h, rfl, fun hne => absurd rfl hne⟩

theorem terminal_of_round (cases : Cases) (workerId : String) {batch : ℕ} (hbatch : batch ≠ 0)
    {store : Store} (h : Ready runJobId iteration store)
    (hzero : (runScenarioJobsOnce cases runJobId iteration workerId batch store).2 = 0) :
    ∀ j ∈ (runScenarioJobsOnce cases runJobId iteration workerId batch store).1.scenarioJobs,
      ofIteration runJobId iteration j = true → j.isTerminal = true := by
  have hterm : ∀ j ∈ store.scenarioJobs, ofIteration runJobId iteration j = true →
      j.status ≠ .pending → j.isTerminal = true := by
    intro j hj hof hpending
    unfold ScenarioJob.isTerminal
    rcases h.sound.inv.tables.statuses j hj with hst | hst | hst | hst
    · exact absurd hst hpending
    · exact absurd hst (h.free j hj hof)
    · rw [hst]
    · rw [hst]
  unfold runScenarioJobsOnce at hzero ⊢
  split_ifs at hzero ⊢ with hrun
  · have hnil := List.length_eq_zero_iff.mp hzero
    intro j hj hof
    dsimp only at hj hnil
    rw [hnil, List.foldl_nil] at hj
    rcases mem_claim h.sound.inv.tables.ids hj with ⟨_, _, _, _, hheld⟩ | hold
    · have hmem : j ∈ ([] : List ScenarioJob) := hnil ▸ hheld
      exact absurd hmem List.not_mem_nil
    · exact hterm j hold hof (not_pending_of_empty hbatch hnil hold hof)
  · intro j hj hof
    refine absurd ?_ hrun
    rw [← (ofIteration_iff.mp hof).1]
    exact h.sound.parents _ (List.mem_map_of_mem hj)

/-- **The self-drain ends**, with every job of the iteration terminal, when nobody else has a claim:
within one batch more than there is weight. -/
theorem drain_terminates {ι : Type} [DecidableEq ι] (cases : Cases) (workspaceId : String)
    {s : State ι} (h : Sound s) (hfree : ∀ j ∈ s.store.scenarioJobs,
      ofIteration runJobId iteration j = true → j.status ≠ .claimed)
    {fuel : ℕ} (hfuel : weight s.store.scenarioJobs < fuel) :
    ∃ store, drain cases workspaceId runJobId iteration fuel s.store = some store ∧
      store.scenarioJobs.map jobKey = s.store.scenarioJobs.map jobKey ∧
      ∀ j ∈ store.scenarioJobs, ofIteration runJobId iteration j = true →
        j.isTerminal = true := by
  let round :=
    runScenarioJobsOnce cases runJobId iteration (workspaceId ++ ":self-drain") defaultBatch
  let I : Store → Prop := fun store => Ready runJobId iteration store ∧
    store.scenarioJobs.map jobKey = s.store.scenarioJobs.map jobKey
  have hround : ∀ store, I store → I (round store).1 ∧
      ((round store).2 ≠ 0 → weight (round store).1.scenarioJobs < weight store.scenarioJobs) := by
    rintro store ⟨hready, hkeys⟩
    obtain ⟨hready', hkeys', hlow⟩ := ready_round cases (workspaceId ++ ":self-drain") defaultBatch
      hready
    exact ⟨⟨hready', hkeys'.trans hkeys⟩, hlow⟩
  obtain ⟨last, hI, hzero, hdone⟩ :=
    whileSome_of_measure (I := I) (μ := fun store => weight store.scenarioJobs) hround
      (s := s.store) ⟨⟨sound_idle h, hfree⟩, rfl⟩ hfuel
  exact ⟨_, hdone, (hround last hI).1.2,
    terminal_of_round cases _ (by decide) hI.1 hzero⟩

end Batch

/-! ### Both together -/

/-- **Claims are safe in every run, and the self-drain ends when nobody else has a claim.** -/
theorem safe_and_drains {ι : Type} [DecidableEq ι] (ops : List (Op ι)) {s : State ι}
    (hs : exec step init ops = some s) :
    Safe ops s ∧
      ∀ (cases : Cases) (workspaceId runJobId : String) (iteration : ℕ),
        (∀ j ∈ s.store.scenarioJobs, ofIteration runJobId iteration j = true →
          j.status ≠ .claimed) →
        ∀ fuel, weight s.store.scenarioJobs < fuel →
          ∃ store, drain cases workspaceId runJobId iteration fuel s.store = some store ∧
            store.scenarioJobs.map jobKey = s.store.scenarioJobs.map jobKey ∧
            ∀ j ∈ store.scenarioJobs, ofIteration runJobId iteration j = true →
              j.isTerminal = true :=
  ⟨safe_exec hs, fun cases workspaceId _ _ hfree _ hfuel =>
    drain_terminates cases workspaceId (sound_exec sound_init hs) hfree hfuel⟩

/-! ### One case, one attempt -/

def onceRun : RunJob := Api.RunJobs.newRunJob "r" "w" "e" 0 1 1 Nat.one_pos

/-- A run of one case with one attempt, planned. -/
def planning : List (Op Unit) :=
  [.putRunJob onceRun, .plan onceRun 0 [("c", "j")] 1 0]

def onceJob : ScenarioJob := newScenarioJob onceRun 0 1 0 ("c", "j")

def planned : State Unit := idle { runJobs := [onceRun], scenarioJobs := [onceJob] }

/-- Every case raises. -/
def raising : Cases where
  run _ := .error "boom"
  run_caseId h := by cases h
  outcomeId sj := sj.id
  now _ := 5
  leaseUntil _ := 10

/-- The drain of the planned run dead-letters the job. -/
theorem safe_planning : ∃ s, exec step init planning = some s ∧ Safe planning s ∧
    ∃ store, drain raising "w" "r" 0 3 s.store = some store ∧
      store.scenarioJobs.map jobKey = [("r", 0, "c")] ∧
      ∀ j ∈ store.scenarioJobs, ofIteration "r" 0 j = true → j.isTerminal = true := by
  obtain ⟨hsafe, hdrain⟩ := safe_and_drains planning (s := planned) rfl
  exact ⟨_, rfl, hsafe, hdrain raising "w" "r" 0 (by decide) 3 (by decide)⟩

/-- Once claimed, the job has used its attempt up and is not terminal. -/
theorem claimed_not_settled :
    ∃ s, exec step init (planning ++ [.claim () "r" 0 "w1" 10 4 []]) = some s ∧
      ∃ j ∈ s.store.scenarioJobs, j.status = .claimed ∧ j.attempt = j.maxAttempts ∧
        ¬ SettledExactly j := by
  exact ⟨_, rfl, claimed "w1" 10 onceJob, List.mem_singleton.mpr rfl, rfl, rfl, by decide⟩

end Selfevals.Worker.ScenarioDrain
