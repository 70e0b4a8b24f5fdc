import Selfevals.Worker.ScenarioRunner

/-!
# Scenario leases and the sweeper

A scenario job carries a lease, and a query lists the ones that are over, but `sweep_once` reaps run
jobs only. So a pass leaves no scenario lease over exactly when none was (`sameScenarios` does the
rest), and a job whose worker died is claimed for good: the barrier of its iteration can still clear
exactly when there is no such job.

* `orphan_exec` : an orphaned claim survives every run;
* `exec_release` : a worker that lives can finish all it holds;
-/

namespace Selfevals.Worker.ScenarioLeases

open Lib.Run Lib.Sql Schemas.Base Schemas.Job Storage.ScenarioQueries Optimization.Aggregator
  Worker.LeaseSweeper Worker.ScenarioRunner

/-! ### What is asked of a pass, and of the barrier -/

/-- No scenario job is in flight with its lease over. -/
def NoneExpired (jobs : List ScenarioJob) (now : Time) : Prop :=
  ∀ j ∈ jobs, scenarioLeaseExpired j now = false
deriving Decidable

/-- Every scenario job whose lease is over is pending again or dead-lettered, as its attempts say.
-/
def EachReaped (jobs jobs' : List ScenarioJob) (now : Time) : Prop :=
  ∀ j ∈ jobs, scenarioLeaseExpired j now = true → ∃ j' ∈ jobs', j'.id = j.id ∧
    j'.status = if j.maxAttempts ≤ j.attempt then .deadLettered else .pending

/-- After a pass no scenario lease is over, and each that was is reaped. -/
def Reaped (s : Store) (now : Time) (batch : ℕ) (withQueue : Bool) : Prop :=
  NoneExpired (sweepOnce s now batch withQueue).store.scenarioJobs now ∧
    EachReaped s.scenarioJobs (sweepOnce s now batch withQueue).store.scenarioJobs now

section Barrier
variable {ι : Type} [DecidableEq ι]

/-- The barrier of an iteration is clear after some run. -/
def CanClear (s : State ι) (runJobId : String) (iteration : ℕ) : Prop :=
  ∃ as s', exec step s as = some s' ∧ inFlight s'.store.scenarioJobs runJobId iteration = 0

/-- A claimed job that no worker holds. -/
def Orphan (s : State ι) (j : ScenarioJob) : Prop :=
  j ∈ s.store.scenarioJobs ∧ j.status = .claimed ∧ ∀ p, ∀ sj ∈ (s.worker p).held, sj.id ≠ j.id

def NoOrphan (s : State ι) (runJobId : String) (iteration : ℕ) : Prop :=
  ∀ j, ofIteration runJobId iteration j = true → ¬ Orphan s j

/-! ### Orphans stay -/

/-- **An orphaned claim survives every step**: a claim takes pending jobs only, and a job is
finalized by the worker that holds it. -/
theorem orphan_step {s s' : State ι} {op : Op ι} (hinv : Inv s) {j : ScenarioJob} (h : Orphan s j)
    (hs : step s op = some s') : Orphan s' j := by
  obtain ⟨hmem, hclaimed, hunheld⟩ := h
  cases moved_step hinv hs with
  | still _ hjobs hheld =>
    exact ⟨hjobs ▸ hmem, hclaimed, fun q sj hsj => hunheld q sj (hheld q ▸ hsj)⟩
  | planned _ hold _ hheld =>
    exact ⟨hold j hmem, hclaimed, fun q sj hsj => hunheld q sj (hheld q ▸ hsj)⟩
  | claimed _ p runJobId iteration workerId leaseUntil batch locked hjobs hself hheld =>
    have hids := hinv.tables.ids
    refine ⟨?_, hclaimed, fun q sj hsj => ?_⟩
    · rw [hjobs]
      exact mem_claim_of_not_pending hids hmem (by rw [hclaimed]; decide)
    · by_cases hq : q = p
      · subst hq
        rw [hself] at hsj
        obtain ⟨-, -, j₀, hj₀, hid, hpending⟩ := mem_claimed_rows hids hsj
        rintro heq
        obtain rfl := hinv.tables.eq_of_id hj₀ hmem (hid.trans heq)
        rw [hpending] at hclaimed
        cases hclaimed
      · exact hunheld q sj (hheld q hq ▸ hsj)
  | finished p sj rest status error now _ hp _ hjobs hself hheld =>
    have hne : j.id ≠ sj.id := (hunheld p sj (by rw [hp]; exact List.mem_cons_self)).symm
    refine ⟨by rw [hjobs]; exact mem_finalize_of_ne hmem hne, hclaimed, fun q sj' hsj' => ?_⟩
    by_cases hq : q = p
    · subst hq
      rw [hself] at hsj'
      exact hunheld q sj' (by rw [hp]; exact List.mem_cons_of_mem _ hsj')
    · exact hunheld q sj' (hheld q hq ▸ hsj')
  | died p _ hjobs hself hheld =>
    refine ⟨hjobs ▸ hmem, hclaimed, fun q sj hsj => ?_⟩
    by_cases hq : q = p
    · subst hq
      rw [hself] at hsj
      exact absurd hsj List.not_mem_nil
    · exact hunheld q sj (hheld q hq ▸ hsj)

theorem orphan_exec {s s' : State ι} {as : List (Op ι)} (hinv : Inv s) {j : ScenarioJob}
    (h : Orphan s j) (hs : exec step s as = some s') : Orphan s' j := by
  have hboth : Inv s' ∧ Orphan s' j := by
    refine inv_of_exec (I := fun t => Inv t ∧ Orphan t j) ?_ ⟨hinv, h⟩ hs
    exact fun t op t' ht hstep => ⟨inv_step t op t' ht.1 hstep, orphan_step ht.1 ht.2 hstep⟩
  exact hboth.2

theorem noOrphan_of_canClear {s : State ι} (hinv : Inv s) {runJobId : String} {iteration : ℕ}
    (h : CanClear s runJobId iteration) : NoOrphan s runJobId iteration := by
  obtain ⟨as, s', hs, hclear⟩ := h
  intro j hof horphan
  obtain ⟨hmem, hclaimed, -⟩ := orphan_exec hinv horphan hs
  exact (inFlight_eq_zero.mp hclear j hmem hof).2.1 hclaimed

/-! ### What a worker can finish -/

/-- Every scenario job refers to a run job that is there. -/
def Parents (s : Store) : Prop :=
  ∀ k ∈ s.scenarioJobs.map jobKey, k.1 ∈ s.runJobs.map (·.id)

omit [DecidableEq ι] in
theorem parents_init : Parents (init : State ι).store := fun _ h => absurd h List.not_mem_nil

theorem parents_step (s : State ι) (op : Op ι) (s' : State ι) (hinv : Inv s)
    (h : Parents s.store) (hs : step s op = some s') : Parents s'.store := by
  cases op with
  | putRunJob row =>
    obtain rfl := Option.some.inj hs
    exact fun k hk => mem_ids_setRow (h k hk)
  | putExperiment row => obtain rfl := Option.some.inj hs; exact h
  | plan runJob iteration cases reps now =>
    simp only [step] at hs
    split_ifs at hs with hnew
    obtain rfl := Option.some.inj hs
    intro k hk
    obtain ⟨j, hj, rfl⟩ := List.mem_map.mp hk
    rcases (hinv.tables.plan runJob iteration reps now hnew.2.1 hnew.2.2).2.1 j hj with hj | ⟨case,
      -, rfl⟩
    · exact h _ (List.mem_map_of_mem hj)
    · exact hnew.1
  | claim p runJobId iteration workerId leaseUntil batch locked =>
    simp only [step] at hs
    split_ifs at hs with hidle
    obtain rfl := Option.some.inj hs
    intro k hk
    refine h k ?_
    rwa [← map_key_claim]
  | writeOutcome p outcome outcomeId now =>
    simp only [step] at hs
    split at hs
    · cases hs
    · split_ifs at hs
      obtain rfl := Option.some.inj hs
      exact h
  | succeed p now =>
    simp only [step] at hs
    split at hs
    · cases hs
    · split_ifs at hs
      obtain rfl := Option.some.inj hs
      intro k hk
      refine h k ?_
      rwa [← map_key_finalize]
  | fail p error now =>
    simp only [step] at hs
    split at hs
    · cases hs
    · obtain rfl := Option.some.inj hs
      intro k hk
      refine h k ?_
      rwa [← map_key_finalize]
  | die p => obtain rfl := Option.some.inj hs; exact h
  | sweep now batch withQueue =>
    obtain rfl := Option.some.inj hs
    intro k hk
    obtain ⟨hjobs, -⟩ := sweepOnce_same s.store now batch withQueue
    refine sweepListed_ids now withQueue _ (h k ?_)
    rw [← hjobs]
    exact hk

/-- An outcome for a case. -/
def someOutcome (caseId : String) : CaseOutcome := ⟨caseId, [], [], [], 0, 0, 0, 0, [], .empty,
  .empty, []⟩

theorem step_succeed {s : State ι} {p : ι} {sj : ScenarioJob} {rest : List ScenarioJob}
    (hp : (s.worker p).held = sj :: rest) (hw : (s.worker p).wrote = true) :
    step s (.succeed p 0) = some (s.finish p sj .succeeded none 0) ∧
      (s.finish p sj .succeeded none 0).worker p = { held := rest } ∧
      ∀ q, q ≠ p → (s.finish p sj .succeeded none 0).worker q = s.worker q := by
  refine ⟨by simp only [step, hp, hw, if_true], ?_, fun q hq => ?_⟩
  · simp [State.finish, State.setWorker, hp]
  · simp [State.finish, State.setWorker, hq]

theorem step_writeOutcome {s : State ι} {p : ι} {sj : ScenarioJob} {rest : List ScenarioJob}
    (hp : (s.worker p).held = sj :: rest) (hw : (s.worker p).wrote = false) :
    ∃ t, step s (.writeOutcome p (someOutcome sj.caseId) "" 0) = some t ∧
      t.worker p = { held := sj :: rest, wrote := true } ∧
      (∀ q, q ≠ p → t.worker q = s.worker q) ∧ t.store.runJobs = s.store.runJobs ∧
      t.store.scenarioJobs = s.store.scenarioJobs := by
  let t : State ι := { s.setWorker p { s.worker p with wrote := true } with
    store := { s.store with
      outcomes := writeScenarioOutcome s.store.outcomes
        (outcomeRow sj (someOutcome sj.caseId) "" 0) } }
  refine ⟨t, by simp [t, step, hp, hw, someOutcome], ?_, fun q hq => ?_, rfl, rfl⟩
  · simp [t, State.setWorker, hp]
  · simp [t, State.setWorker, hq]

theorem exec_finish {s : State ι} {p : ι} {sj : ScenarioJob} {rest : List ScenarioJob}
    (hp : (s.worker p).held = sj :: rest) :
    ∃ as s', exec step s as = some s' ∧ s'.worker p = { held := rest } ∧
      (∀ q, q ≠ p → s'.worker q = s.worker q) ∧ s'.store.runJobs = s.store.runJobs ∧
      s'.store.scenarioJobs = finalizeScenarioJob s.store.scenarioJobs sj.id .succeeded none 0 := by
  by_cases hw : (s.worker p).wrote = true
  · obtain ⟨hstep, hself, hother⟩ := step_succeed hp hw
    exact ⟨[.succeed p 0], _, by rw [exec_cons, hstep]; rfl, hself, hother, rfl, rfl⟩
  · obtain ⟨t, hwrite, hself, hother, hruns, hjobs⟩ := step_writeOutcome hp (by simpa using hw)
    have hp' : (t.worker p).held = sj :: rest := by rw [hself]
    obtain ⟨hstep, hself', hother'⟩ := step_succeed hp' (by rw [hself])
    refine ⟨[.writeOutcome p (someOutcome sj.caseId) "" 0, .succeed p 0],
      t.finish p sj .succeeded none 0, ?_, hself', fun q hq => (hother' q hq).trans (hother q hq),
      hruns, ?_⟩
    · rw [exec_cons, hwrite, Option.bind_some, exec_cons, hstep]
      rfl
    · show finalizeScenarioJob t.store.scenarioJobs sj.id .succeeded none 0 = _
      rw [hjobs]

/-- **All that workers hold can be finished**: a job that has not succeeded then is as it was, and
nobody held it. -/
theorem exec_settle (n : ℕ) : ∀ s : State ι, Inv s →
    s.store.scenarioJobs.countP (fun j => j.status == .claimed) ≤ n →
    ∃ as s', exec step s as = some s' ∧ (∀ p, (s'.worker p).held = []) ∧
      s'.store.runJobs = s.store.runJobs ∧
      ∀ j' ∈ s'.store.scenarioJobs, j'.status = .succeeded ∨
        (j' ∈ s.store.scenarioJobs ∧ ∀ p, ∀ sj ∈ (s.worker p).held, sj.id ≠ j'.id) := by
  induction n with
  | zero =>
    intro s hinv hcount
    have hidle : ∀ p, (s.worker p).held = [] := by
      intro p
      refine List.eq_nil_iff_forall_not_mem.mpr fun sj hsj => ?_
      obtain ⟨j, hj, -, -, hclaimed⟩ := hinv.held p sj hsj
      have := List.countP_eq_zero.mp (Nat.le_zero.mp hcount) j hj
      simp [hclaimed] at this
    refine ⟨[], s, rfl, hidle, rfl, fun j' hj' => Or.inr ⟨hj', fun p sj hsj => ?_⟩⟩
    rw [hidle p] at hsj
    exact absurd hsj List.not_mem_nil
  | succ n ih =>
    intro s hinv hcount
    by_cases hidle : ∀ p, (s.worker p).held = []
    · refine ⟨[], s, rfl, hidle, rfl, fun j' hj' => Or.inr ⟨hj', fun p sj hsj => ?_⟩⟩
      rw [hidle p] at hsj
      exact absurd hsj List.not_mem_nil
    · obtain ⟨p, hp⟩ := not_forall.mp hidle
      obtain ⟨sj, rest, hp⟩ := List.exists_cons_of_ne_nil hp
      obtain ⟨as, t, hexec, htp, htq, htruns, htjobs⟩ := exec_finish hp
      obtain ⟨j, hj, hid, -, hclaimed⟩ := hinv.held p sj (by rw [hp]; exact List.mem_cons_self)
      have hless : t.store.scenarioJobs.countP (fun j => j.status == .claimed) ≤ n := by
        have hlt : (finalizeScenarioJob s.store.scenarioJobs sj.id .succeeded none 0).countP
            (fun j => j.status == .claimed) <
            s.store.scenarioJobs.countP (fun j => j.status == .claimed) :=
          countP_updateWhere_lt (fun _ => rfl) hj (by simpa using hid) (by simpa using hclaimed)
        rw [htjobs]
        omega
      obtain ⟨bs, u, hexec', hidle', huruns, hujobs⟩ := ih t (inv_of_exec inv_step hinv hexec) hless
      refine ⟨as ++ bs, u, by rw [exec_append_of hexec, hexec'], hidle', huruns.trans htruns, ?_⟩
      intro j' hj'
      rcases hujobs j' hj' with hsucc | ⟨hin, hfree⟩
      · exact Or.inl hsucc
      · rw [htjobs] at hin
        rcases mem_finalize hin with ⟨_, _, _, _, _, hst⟩ | ⟨hin, hne⟩
        · exact Or.inl hst
        · refine Or.inr ⟨hin, fun q sj' hsj' => ?_⟩
          by_cases hq : q = p
          · subst hq
            rw [hp] at hsj'
            rcases List.mem_cons.mp hsj' with rfl | hsj'
            · exact hne.symm
            · exact hfree q sj' (by rw [htp]; exact hsj')
          · exact hfree q sj' (by rw [htq q hq]; exact hsj')

theorem not_pending_of_claim {jobs : List ScenarioJob} {runJobId workerId : String}
    {iteration : ℕ} {leaseUntil : Time} {j' : ScenarioJob}
    (h : j' ∈ (claimScenarioJobs jobs runJobId iteration workerId leaseUntil jobs.length []).1)
    (hof : ofIteration runJobId iteration j' = true) : j'.status ≠ .pending := by
  rcases mem_updateWhere.mp h with ⟨j, -, -, rfl⟩ | ⟨hj, hout⟩
  · simp [claimed]
  · intro hpending
    have hout' : j'.id ∉ claimable jobs runJobId iteration [] jobs.length := of_decide_eq_false hout
    refine hout' ?_
    have hlen : (orderBy (·.id) (jobs.filter fun j => ofIteration runJobId iteration j &&
        j.status == .pending && j.id ∉ ([] : List String))).length ≤ jobs.length := by
      rw [(orderBy_perm _ _).length_eq]
      exact List.length_filter_le ..
    rw [claimable, List.take_of_length_le hlen]
    refine List.mem_map_of_mem ((orderBy_perm _ _).mem_iff.mpr (List.mem_filter.mpr ⟨hj, ?_⟩))
    simp [hof, hpending]

/-- **Without orphans the barrier can clear**: the workers finish what they hold, and one of them
claims and finishes the rest. -/
theorem canClear_of_noOrphan [Nonempty ι] {s : State ι} (hinv : Inv s) (hparents : Parents s.store)
    {runJobId : String} {iteration : ℕ} (h : NoOrphan s runJobId iteration) :
    CanClear s runJobId iteration := by
  obtain ⟨as, t, hexec, hidle, hruns, hjobs⟩ := exec_settle _ s hinv le_rfl
  have htinv := inv_of_exec inv_step hinv hexec
  have hunclaimed : ∀ j ∈ t.store.scenarioJobs, ofIteration runJobId iteration j = true →
      j.status ≠ .claimed := by
    intro j hj hof hclaimed
    rcases hjobs j hj with hsucc | ⟨hin, hfree⟩
    · rw [hsucc] at hclaimed
      cases hclaimed
    · exact h j hof ⟨hin, hclaimed, hfree⟩
  by_cases hpending : ∃ j ∈ t.store.scenarioJobs, ofIteration runJobId iteration j = true ∧
      j.status = .pending
  · obtain ⟨j, hj, hof, hstatus⟩ := hpending
    have hrun : runJobId ∈ t.store.runJobs.map (·.id) := by
      rcases hjobs j hj with hsucc | ⟨hin, -⟩
      · rw [hsucc] at hstatus
        cases hstatus
      · rw [hruns, ← (ofIteration_iff.mp hof).1]
        exact hparents _ (List.mem_map_of_mem hin)
    obtain ⟨p⟩ := ‹Nonempty ι›
    let op : Op ι := .claim p runJobId iteration "" 0 t.store.scenarioJobs.length []
    let rows := claimScenarioJobs t.store.scenarioJobs runJobId iteration "" 0
      t.store.scenarioJobs.length []
    let u : State ι := { t.setWorker p { held := rows.2 } with
      store := { t.store with scenarioJobs := rows.1 } }
    have hu : step t op = some u := if_pos ⟨by rw [hidle p]; rfl, hrun⟩
    have huheld : (u.worker p).held = rows.2 := by simp [u, State.setWorker]
    obtain ⟨bs, v, hexec', -, -, hvjobs⟩ := exec_settle _ u (inv_step t op u htinv hu) le_rfl
    refine ⟨as ++ op :: bs, v, ?_, inFlight_eq_zero.mpr fun j hj hof => ?_⟩
    · rw [exec_append_of hexec, exec_cons, hu]
      exact hexec'
    · rcases hvjobs j hj with hsucc | ⟨hin, hfree⟩
      · simp [hsucc]
      · have hnotp := not_pending_of_claim hin hof
        rcases mem_claim htinv.tables.ids hin with ⟨_, _, _, _, hheld⟩ | hold
        · rw [← huheld] at hheld
          exact absurd rfl (hfree p j hheld)
        · refine ⟨hnotp, hunclaimed j hold hof, fun hrunning => ?_⟩
          rcases htinv.tables.statuses j hold with hs | hs | hs | hs <;> simp [hs] at hrunning
  · refine ⟨as, t, hexec, inFlight_eq_zero.mpr fun j hj hof => ?_⟩
    refine ⟨fun hp => hpending ⟨j, hj, hof, hp⟩, hunclaimed j hj hof, fun hrunning => ?_⟩
    rcases htinv.tables.statuses j hj with hs | hs | hs | hs <;> simp [hs] at hrunning

/-! ### Both together -/

/-- **A pass reaps every scenario lease exactly when none is over, and the barrier can clear exactly
when no claim of the iteration is orphaned.** -/
theorem reaped_and_canClear_iff [Nonempty ι] {s : State ι} (h : Reachable step init s) (now : Time)
    (batch : ℕ) (withQueue : Bool) (runJobId : String) (iteration : ℕ) :
    (Reaped s.store now batch withQueue ↔ NoneExpired s.store.scenarioJobs now) ∧
      (CanClear s runJobId iteration ↔ NoOrphan s runJobId iteration) := by
  have hboth : Inv s ∧ Parents s.store := by
    refine inv_of_reachable (I := fun t => Inv t ∧ Parents t.store) ?_ ⟨inv_init, parents_init⟩ h
    exact fun t op t' ht hs => ⟨inv_step t op t' ht.1 hs, parents_step t op t' ht.1 ht.2 hs⟩
  have hjobs := (sweepOnce_same s.store now batch withQueue).1
  refine ⟨⟨fun hreaped => ?_, fun hnone => ⟨?_, fun j hj hexp => ?_⟩⟩,
    noOrphan_of_canClear hboth.1, canClear_of_noOrphan hboth.1 hboth.2⟩
  · rw [← hjobs]
    exact hreaped.1
  · rw [hjobs]
    exact hnone
  · rw [hnone j hj] at hexp
    cases hexp

end Barrier

/-! ### One claim -/

def someRun : RunJob := Api.RunJobs.newRunJob "r" "w" "e" 0 1 3 Api.RunJobs.one_le_defaultMaxAttempts

/-- A run of one case, planned, and claimed until 10. -/
def claiming : List (Op Unit) :=
  [.putRunJob someRun, .plan someRun 0 [("c", "j")] 1 0, .claim () "r" 0 "w1" 10 4 []]

def someClaim : ScenarioJob := claimed "w1" 10 (newScenarioJob someRun 0 1 0 ("c", "j"))

/-- The worker holds the claim. -/
def working : State Unit :=
  ⟨{ runJobs := [someRun], scenarioJobs := [someClaim] }, fun _ => { held := [someClaim] }⟩

/-- The worker has died. -/
def stranded : State Unit :=
  ⟨{ runJobs := [someRun], scenarioJobs := [someClaim] }, fun _ => {}⟩

theorem exec_claiming : exec step init claiming = some working := by
  have hworker : (fun _ : Unit => ({ held := [someClaim] } : WorkerState)) =
      Function.update (fun _ => {}) () { held := [someClaim] } := by
    funext p
    simp
  unfold working
  rw [hworker]
  rfl

theorem exec_stranding : exec step init (claiming ++ [.die ()]) = some stranded := by
  have hworker : (fun _ : Unit => ({} : WorkerState)) = Function.update working.worker () {} := by
    funext p
    simp
  rw [exec_snoc exec_claiming]
  unfold stranded
  rw [hworker]
  rfl

/-- While the lease runs and the worker lives, nothing is over and the barrier can clear. -/
theorem reaped_working : Reaped working.store 5 100 false ∧ CanClear working "r" 0 := by
  obtain ⟨hreaped, hclear⟩ := reaped_and_canClear_iff (s := working) ⟨claiming, exec_claiming⟩ 5 100
    false "r" 0
  refine ⟨hreaped.mpr (by decide), hclear.mpr fun j _ horphan => ?_⟩
  obtain ⟨hmem, -, hfree⟩ := horphan
  obtain rfl : j = someClaim := by simpa [working] using hmem
  exact hfree () someClaim (by simp [working]) rfl

/-- The worker dies, and a pass after the end of the lease leaves its claim: for good. -/
theorem stranded_not_reaped :
    exec step init (claiming ++ [.die ()]) = some stranded ∧
      expiredScenarioJobLeases (sweepOnce stranded.store 11 100 false).store.scenarioJobs 11 100 =
        [("w", "j")] ∧
      ¬ Reaped stranded.store 11 100 false ∧ ¬ CanClear stranded "r" 0 := by
  have hjobs := (sweepOnce_same stranded.store 11 100 false).1
  refine ⟨exec_stranding, by rw [hjobs]; rfl, fun hreaped => ?_, fun hclear => ?_⟩
  · have hnone := hreaped.1
    rw [hjobs] at hnone
    exact absurd (hnone someClaim (by simp [stranded])) (by decide)
  · have hinv := inv_reachable ⟨_, exec_stranding⟩
    refine noOrphan_of_canClear hinv hclear someClaim (by decide) ⟨by simp [stranded], rfl, ?_⟩
    intro p sj hsj
    exact absurd hsj List.not_mem_nil

end Selfevals.Worker.ScenarioLeases
