import Selfevals.Worker.ScenarioRunner

/-!
# Are scenario jobs claimed safely, and within their attempts?

A claim bumps the counter of the row; whether a failure is the last is decided on the worker's copy
and written back without a check. It holds together because a claimed row is changed by its worker
only, so the copy is the row.

* `spent_step`: the executions of a job, the one going on included, are within its counter.
-/

namespace Selfevals.Worker.ScenarioBudget

open Lib.Run Lib.Sql Schemas.Base Schemas.Job Storage.ScenarioQueries Worker.ScenarioRunner

/-- What the counter of a job says of its status. -/
def Counts (j : ScenarioJob) : Prop :=
  match j.status with
  | .pending => j.attempt < j.maxAttempts
  | .deadLettered => j.attempt = j.maxAttempts
  | _ => j.attempt ≤ j.maxAttempts

theorem Counts.le {j : ScenarioJob} (h : Counts j) : j.attempt ≤ j.maxAttempts := by
  unfold Counts at h
  split at h <;> omega

/-- The attempts are used up or the job has succeeded exactly when it is terminal. -/
def SettledExactly (j : ScenarioJob) : Prop :=
  j.isTerminal = true ↔ j.attempt = j.maxAttempts ∨ j.status = .succeeded
deriving Decidable

variable {ι : Type}

/-- Some worker holds the job. -/
def Held (s : State ι) (id : String) : Prop := ∃ p, ∃ sj ∈ (s.worker p).held, sj.id = id

/-- What a worker holds is the row, and the counters of the rows are as their statuses. -/
structure Budget (s : State ι) : Prop where
  rows : ∀ j ∈ s.store.scenarioJobs, Counts j
  copies : ∀ p, ∀ sj ∈ (s.worker p).held, sj ∈ s.store.scenarioJobs

theorem budget_init : Budget (init : State ι) where
  rows _ h := absurd h List.not_mem_nil
  copies _ _ h := absurd h List.not_mem_nil

theorem claimed_of_held {s : State ι} (h : Inv s) {j : ScenarioJob}
    (hj : j ∈ s.store.scenarioJobs) (hheld : Held s j.id) : j.status = .claimed := by
  obtain ⟨p, sj, hsj, hid⟩ := hheld
  obtain ⟨j', hj', hid', -, hclaimed⟩ := h.held p sj hsj
  obtain rfl := h.tables.eq_of_id hj' hj (hid'.trans hid)
  exact hclaimed

theorem counts_claimed {j : ScenarioJob} (h : Counts j) (hp : j.status = .pending)
    (workerId : String) (leaseUntil : Time) : Counts (claimed workerId leaseUntil j) := by
  have hlt : j.attempt < j.maxAttempts := by simpa [Counts, hp] using h
  exact hlt

theorem counts_finalized {j : ScenarioJob} (h : Counts j) {status : ScenarioJobStatus}
    (hstatus : status = .succeeded ∨
      status = if j.maxAttempts ≤ j.attempt then .deadLettered else .pending)
    (j' : ScenarioJob) (hj' : j'.status = status) (hattempt : j'.attempt = j.attempt)
    (hmax : j'.maxAttempts = j.maxAttempts) : Counts j' := by
  have hle := h.le
  unfold Counts
  rw [hj', hattempt, hmax]
  rcases hstatus with rfl | rfl
  · exact hle
  · by_cases hdead : j.maxAttempts ≤ j.attempt
    · rw [if_pos hdead]
      exact le_antisymm hle hdead
    · rw [if_neg hdead]
      exact not_le.mp hdead

theorem held_of_ended {s : State ι} {op : Op ι} {sj : ScenarioJob} (h : ended s op = some sj) :
    Held s sj.id := by
  cases op with
  | succeed p now | fail p error now | die p => exact ⟨p, sj, List.mem_of_mem_head? h, rfl⟩
  | _ => cases h

/-- Whether the step ends an execution of the job. -/
def endsOf (id : String) (s : State ι) (op : Op ι) : ℕ :=
  if (ended s op).any (·.id == id) then 1 else 0

theorem endsOf_some {s : State ι} {op : Op ι} {sj : ScenarioJob} (h : ended s op = some sj)
    (id : String) : endsOf id s op = if sj.id = id then 1 else 0 := by
  simp [endsOf, h]

theorem endsOf_none {s : State ι} {op : Op ι} (h : ended s op = none) (id : String) :
    endsOf id s op = 0 := by
  simp [endsOf, h]

theorem endsOf_of_not_held {s : State ι} {id : String} (h : ¬ Held s id) (op : Op ι) :
    endsOf id s op = 0 := by
  cases hop : ended s op with
  | none => exact endsOf_none hop id
  | some sj =>
    rw [endsOf_some hop]
    have hne : sj.id ≠ id := fun heq => h (heq ▸ held_of_ended hop)
    exact if_neg hne

/-- The executions of the job that have ended, and the one going on, are within its counter. -/
def Spent (id : String) (n : ℕ) (s : State ι) : Prop :=
  (∀ j ∈ s.store.scenarioJobs, j.id = id → n ≤ j.attempt ∧ (Held s id → n + 1 ≤ j.attempt)) ∧
    ((∀ j ∈ s.store.scenarioJobs, j.id ≠ id) → n = 0)

theorem spent_init (id : String) : Spent id 0 (init : State ι) :=
  ⟨fun _ h => absurd h List.not_mem_nil, fun _ => rfl⟩

section Step
variable [DecidableEq ι] {s s' : State ι} {op : Op ι}

/-- How often the job has been executed along the run. -/
def executions (s : State ι) (id : String) (ops : List (Op ι)) : ℕ :=
  tally step (endsOf id) s ops

theorem held_of_finished (h : Inv s) {p : ι} {sj : ScenarioJob} {rest : List ScenarioJob}
    (hp : (s.worker p).held = sj :: rest) (hself : (s'.worker p).held = rest)
    (hheld : ∀ q, q ≠ p → (s'.worker q).held = (s.worker q).held) {q : ι} {sj' : ScenarioJob}
    (hsj' : sj' ∈ (s'.worker q).held) : sj' ∈ (s.worker q).held ∧ sj'.id ≠ sj.id := by
  by_cases hq : q = p
  · subst hq
    rw [hself] at hsj'
    have hnodup := h.heldIds q
    rw [hp, List.map_cons, List.nodup_cons] at hnodup
    refine ⟨by rw [hp]; exact List.mem_cons_of_mem _ hsj', fun heq => hnodup.1 ?_⟩
    exact heq ▸ List.mem_map_of_mem hsj'
  · rw [hheld q hq] at hsj'
    exact ⟨hsj', h.apart q p hq sj' hsj' sj (by rw [hp]; exact List.mem_cons_self)⟩

theorem held_of_died {p : ι} (hself : (s'.worker p).held = [])
    (hheld : ∀ q, q ≠ p → (s'.worker q).held = (s.worker q).held) {q : ι} {sj : ScenarioJob}
    (hsj : sj ∈ (s'.worker q).held) : q ≠ p ∧ sj ∈ (s.worker q).held := by
  by_cases hq : q = p
  · subst hq
    rw [hself] at hsj
    exact absurd hsj List.not_mem_nil
  · exact ⟨hq, hheld q hq ▸ hsj⟩

theorem budget_step (hinv : Inv s) (h : Budget s) (hs : step s op = some s') : Budget s' := by
  have hids := hinv.tables.ids
  cases moved_step hinv hs with
  | still _ hjobs hheld =>
    refine ⟨hjobs ▸ h.rows, fun p sj hsj => ?_⟩
    rw [hjobs]
    exact h.copies p sj (hheld p ▸ hsj)
  | planned _ hold hnew hheld =>
    refine ⟨fun j hj => ?_, fun p sj hsj => hold _ (h.copies p sj (hheld p ▸ hsj))⟩
    rcases hnew j hj with hj | ⟨hpending, hzero⟩
    · exact h.rows j hj
    · have hpos := j.maxAttempts_pos
      simp only [Counts, hpending, hzero]
      omega
  | claimed _ p runJobId iteration workerId leaseUntil batch locked hjobs hself hheld =>
    refine ⟨fun j hj => ?_, fun q sj hsj => ?_⟩
    · rw [hjobs] at hj
      rcases mem_claim hids hj with ⟨j₀, hj₀, hpending, rfl, -⟩ | hj
      · exact counts_claimed (h.rows j₀ hj₀) hpending workerId leaseUntil
      · exact h.rows j hj
    · rw [hjobs]
      by_cases hq : q = p
      · subst hq
        rw [hself] at hsj
        exact (mem_claimed_rows hids hsj).1
      · rw [hheld q hq] at hsj
        have hmem := h.copies q sj hsj
        have hclaimed := claimed_of_held hinv hmem ⟨q, sj, hsj, rfl⟩
        exact mem_claim_of_not_pending hids hmem (by rw [hclaimed]; decide)
  | finished p sj rest status error now _ hp hstatus hjobs hself hheld =>
    have hmem := h.copies p sj (by rw [hp]; exact List.mem_cons_self)
    refine ⟨fun j hj => ?_, fun q sj' hsj' => ?_⟩
    · rw [hjobs] at hj
      rcases mem_updateWhere.mp hj with ⟨j₀, hj₀, hid, rfl⟩ | ⟨hj, -⟩
      · obtain rfl := hinv.tables.eq_of_id hj₀ hmem (by simpa using hid)
        exact counts_finalized (h.rows j₀ hj₀) hstatus _ rfl rfl rfl
      · exact h.rows j hj
    · obtain ⟨hold, hne⟩ := held_of_finished hinv hp hself hheld hsj'
      rw [hjobs]
      exact mem_finalize_of_ne (h.copies q sj' hold) hne
  | died p _ hjobs hself hheld =>
    refine ⟨hjobs ▸ h.rows, fun q sj hsj => ?_⟩
    rw [hjobs]
    exact h.copies q sj (held_of_died hself hheld hsj).2

/-! ### Executions -/

omit [DecidableEq ι] in
/-- Rows keep their counters, and what is held after the step was held before and its execution did
not end. -/
theorem Spent.later {id : String} {n : ℕ} (h : Spent id n s) (hinv : Inv s)
    (hids : s'.store.scenarioJobs.map (·.id) = s.store.scenarioJobs.map (·.id))
    (hrows : ∀ j ∈ s'.store.scenarioJobs, j.id = id →
      ∃ j₀ ∈ s.store.scenarioJobs, j₀.id = id ∧ j.attempt = j₀.attempt)
    (hback : Held s' id → Held s id ∧ ∀ sj, ended s op = some sj → sj.id ≠ id) :
    Spent id (n + endsOf id s op) s' := by
  obtain ⟨hrow, hnone⟩ := h
  refine ⟨fun j hj hid => ?_, fun hno => ?_⟩
  · obtain ⟨j₀, hj₀, hid₀, hattempt⟩ := hrows j hj hid
    obtain ⟨hle, hlt⟩ := hrow j₀ hj₀ hid₀
    rw [hattempt]
    cases hop : ended s op with
    | none =>
      rw [endsOf_none hop]
      exact ⟨hle, fun hh => hlt (hback hh).1⟩
    | some sj =>
      rw [endsOf_some hop]
      split_ifs with hsj
      · exact ⟨hlt (hsj ▸ held_of_ended hop), fun hh => absurd hsj ((hback hh).2 sj hop)⟩
      · exact ⟨hle, fun hh => hlt (hback hh).1⟩
  · have hno' : ∀ j ∈ s.store.scenarioJobs, j.id ≠ id := by
      intro j hj hid
      have hmem : id ∈ s'.store.scenarioJobs.map (·.id) := hids ▸ hid ▸ List.mem_map_of_mem hj
      obtain ⟨j', hj', hid'⟩ := List.mem_map.mp hmem
      exact hno j' hj' hid'
    rw [hnone hno', endsOf_of_not_held]
    rintro ⟨p, sj, hsj, hsjid⟩
    obtain ⟨j, hj, hid, -⟩ := hinv.held p sj hsj
    exact hno' j hj (hid.trans hsjid)

theorem spent_step {id : String} {n : ℕ} (hinv : Inv s) (h : Spent id n s)
    (hs : step s op = some s') : Spent id (n + endsOf id s op) s' := by
  have hids := hinv.tables.ids
  have hinv' := inv_step s op s' hinv hs
  cases moved_step hinv hs with
  | still hop hjobs hheld =>
    refine h.later hinv (by rw [hjobs]) (fun j hj hid => ⟨j, hjobs ▸ hj, hid, rfl⟩) ?_
    rintro ⟨p, sj, hsj, hid⟩
    exact ⟨⟨p, sj, hheld p ▸ hsj, hid⟩, fun sj' hsj' => by rw [hop] at hsj'; cases hsj'⟩
  | planned hop hold hnew hheld =>
    obtain ⟨hrow, hnone⟩ := h
    have hback : Held s' id → Held s id := fun ⟨p, sj, hsj, hid⟩ => ⟨p, sj, hheld p ▸ hsj, hid⟩
    rw [endsOf_none hop, Nat.add_zero]
    refine ⟨fun j hj hid => ?_, fun hno => hnone fun j hj => hno j (hold j hj)⟩
    by_cases hex : ∃ j₀ ∈ s.store.scenarioJobs, j₀.id = id
    · obtain ⟨j₀, hj₀, hid₀⟩ := hex
      obtain rfl := hinv'.tables.eq_of_id (hold j₀ hj₀) hj (hid₀.trans hid.symm)
      exact ⟨(hrow j₀ hj₀ hid).1, fun hh => (hrow j₀ hj₀ hid).2 (hback hh)⟩
    · have hzero := hnone fun j₀ hj₀ hid₀ => hex ⟨j₀, hj₀, hid₀⟩
      refine ⟨by omega, fun hh => ?_⟩
      obtain ⟨p, sj, hsj, hsjid⟩ := hback hh
      obtain ⟨j₀, hj₀, hid₀, -⟩ := hinv.held p sj hsj
      exact absurd ⟨j₀, hj₀, hid₀.trans hsjid⟩ hex
  | claimed hop p runJobId iteration workerId leaseUntil batch locked hjobs hself hheld =>
    obtain ⟨hrow, hnone⟩ := h
    rw [endsOf_none hop, Nat.add_zero]
    refine ⟨fun j hj hid => ?_, fun hno => hnone fun j hj hid => ?_⟩
    · have hj' := hj
      rw [hjobs] at hj'
      rcases mem_claim hids hj' with ⟨j₀, hj₀, -, rfl, -⟩ | hold
      · have hle := (hrow j₀ hj₀ hid).1
        exact ⟨Nat.le_succ_of_le hle, fun _ => Nat.succ_le_succ hle⟩
      · refine ⟨(hrow j hold hid).1, fun ⟨q, sj, hsj, hsjid⟩ => ?_⟩
        by_cases hq : q = p
        · subst hq
          rw [hself] at hsj
          -- the row is the one just claimed
          have hsj' : sj ∈ s'.store.scenarioJobs := hjobs ▸ (mem_claimed_rows hids hsj).1
          obtain rfl := hinv'.tables.eq_of_id hsj' hj (hsjid.trans hid.symm)
          obtain ⟨j₀, hj₀, rfl⟩ := List.mem_map.mp hsj
          exact Nat.succ_le_succ (hrow j₀ (List.mem_filter.mp hj₀).1 hid).1
        · exact (hrow j hold hid).2 ⟨q, sj, hheld q hq ▸ hsj, hsjid⟩
    · have hmap : id ∈ s'.store.scenarioJobs.map (·.id) := by
        rw [hjobs, map_id_claim]
        exact hid ▸ List.mem_map_of_mem hj
      obtain ⟨j', hj', hid'⟩ := List.mem_map.mp hmap
      exact hno j' hj' hid'
  | finished p sj rest status error now hop hp hstatus hjobs hself hheld =>
    refine h.later hinv (by rw [hjobs, map_id_finalize]) (fun j hj hid => ?_) ?_
    · rw [hjobs] at hj
      rcases mem_updateWhere.mp hj with ⟨j₀, hj₀, -, rfl⟩ | ⟨hj, -⟩
      · exact ⟨j₀, hj₀, hid, rfl⟩
      · exact ⟨j, hj, hid, rfl⟩
    · rintro ⟨q, sj', hsj', hid'⟩
      obtain ⟨hold, hne⟩ := held_of_finished hinv hp hself hheld hsj'
      refine ⟨⟨q, sj', hold, hid'⟩, fun sj₁ hsj₁ heq => hne ?_⟩
      obtain rfl := Option.some.inj (hop.symm.trans hsj₁)
      exact hid'.trans heq.symm
  | died p hop hjobs hself hheld =>
    refine h.later hinv (by rw [hjobs]) (fun j hj hid => ⟨j, hjobs ▸ hj, hid, rfl⟩) ?_
    rintro ⟨q, sj', hsj', hid'⟩
    obtain ⟨hq, hold⟩ := held_of_died hself hheld hsj'
    refine ⟨⟨q, sj', hold, hid'⟩, fun sj hsj heq => ?_⟩
    have hmem : sj ∈ (s.worker p).held := List.mem_of_mem_head? (hop ▸ hsj)
    exact hinv.apart q p hq sj' hold sj hmem (hid'.trans heq.symm)

/-! ### Terminal jobs -/

/-- **A job that has succeeded or is dead-lettered stays**, and no execution of it ends. -/
theorem terminal_step {j : ScenarioJob} (hterm : j.status = .succeeded ∨ j.status = .deadLettered)
    (hinv : Inv s) (hj : j ∈ s.store.scenarioJobs) (hs : step s op = some s') :
    j ∈ s'.store.scenarioJobs ∧ endsOf j.id s op = 0 := by
  have hfree : ¬ Held s j.id := by
    intro hheld
    rw [claimed_of_held hinv hj hheld] at hterm
    rcases hterm with h | h <;> cases h
  refine ⟨?_, endsOf_of_not_held hfree op⟩
  cases moved_step hinv hs with
  | still _ hjobs _ | died _ _ hjobs _ _ => exact hjobs ▸ hj
  | planned _ hold _ _ => exact hold j hj
  | claimed _ p runJobId iteration workerId leaseUntil batch locked hjobs _ _ =>
    rw [hjobs]
    refine mem_claim_of_not_pending hinv.tables.ids hj ?_
    rcases hterm with h | h <;> rw [h] <;> decide
  | finished p sj rest status error now hop _ _ hjobs _ _ =>
    rw [hjobs]
    exact mem_finalize_of_ne hj fun heq => hfree (heq ▸ held_of_ended hop)

theorem terminal_exec {j : ScenarioJob} (hterm : j.status = .succeeded ∨ j.status = .deadLettered)
    (hinv : Inv s) (hj : j ∈ s.store.scenarioJobs) {ops : List (Op ι)}
    (hs : exec step s ops = some s') :
    j ∈ s'.store.scenarioJobs ∧ ¬ Held s' j.id ∧ executions s j.id ops = 0 := by
  have hrun : Inv s' ∧ j ∈ s'.store.scenarioJobs ∧ 0 + executions s j.id ops = 0 := by
    refine inv_of_tally (I := fun n t => Inv t ∧ j ∈ t.store.scenarioJobs ∧ n = 0)
      (fun n t op t' h _ ht => ?_) ⟨hinv, hj, rfl⟩ (guarded_true ops s) hs
    obtain ⟨hmem, hends⟩ := terminal_step hterm h.1 h.2.1 ht
    exact ⟨inv_step t op t' h.1 ht, hmem, by rw [h.2.2, hends]⟩
  refine ⟨hrun.2.1, fun hheld => ?_, by simpa using hrun.2.2⟩
  rw [claimed_of_held hrun.1 hrun.2.1 hheld] at hterm
  rcases hterm with h | h <;> cases h

/-! ### Runs -/

/-- What a run keeps of the claims of scenario jobs. -/
structure Safe (ops : List (Op ι)) (s : State ι) : Prop where
  /-- No job is held by two workers. -/
  apart : ∀ p q, p ≠ q → ∀ sj ∈ (s.worker p).held, ∀ sj' ∈ (s.worker q).held, sj.id ≠ sj'.id
  /-- The executions of a job, one that goes on included, are within its attempts. -/
  executed : ∀ j ∈ s.store.scenarioJobs, executions init j.id ops ≤ j.maxAttempts ∧
    (Held s j.id → executions init j.id ops + 1 ≤ j.maxAttempts)
  /-- A job that has succeeded or is dead-lettered is never executed again. -/
  absorbed : ∀ j ∈ s.store.scenarioJobs, j.status = .succeeded ∨ j.status = .deadLettered →
    ∀ more s', exec step s more = some s' →
      j ∈ s'.store.scenarioJobs ∧ ¬ Held s' j.id ∧ executions s j.id more = 0
  counted : ∀ j ∈ s.store.scenarioJobs, j.attempt ≤ j.maxAttempts
  /-- A job that is not claimed has used its attempts up, or succeeded, exactly when terminal. -/
  settled : ∀ j ∈ s.store.scenarioJobs, j.status ≠ .claimed → SettledExactly j

theorem settledExactly_of_counts {outcomes : List OutcomeRow} {jobs : List ScenarioJob}
    (htables : TablesInv jobs outcomes) {j : ScenarioJob} (hj : j ∈ jobs) (h : Counts j)
    (hne : j.status ≠ .claimed) : SettledExactly j := by
  unfold SettledExactly ScenarioJob.isTerminal
  unfold Counts at h
  rcases htables.statuses j hj with hst | hst | hst | hst
  · rw [hst] at h ⊢
    have hlt : j.attempt ≠ j.maxAttempts := Nat.ne_of_lt h
    simp [hlt]
  · exact absurd hst hne
  · simp [hst]
  · rw [hst] at h ⊢
    simp [h]

/-- **Scenario claims are safe** in every run of any number of workers. -/
theorem safe_exec {ops : List (Op ι)} (hs : exec step init ops = some s) : Safe ops s := by
  have hboth : Inv s ∧ Budget s := by
    refine inv_of_exec (I := fun t => Inv t ∧ Budget t) ?_ ⟨inv_init, budget_init⟩ hs
    exact fun t op t' h ht => ⟨inv_step t op t' h.1 ht, budget_step h.1 h.2 ht⟩
  obtain ⟨hinv, hbudget⟩ := hboth
  have hspent : ∀ id, Spent id (executions init id ops) s := by
    intro id
    have hrun : Inv s ∧ Spent id (0 + executions init id ops) s := by
      refine inv_of_tally (I := fun n t => Inv t ∧ Spent id n t) (fun n t op t' h _ ht => ?_)
        ⟨inv_init, spent_init id⟩ (guarded_true ops init) hs
      exact ⟨inv_step t op t' h.1 ht, spent_step h.1 h.2 ht⟩
    simpa using hrun.2
  refine ⟨hinv.apart, fun j hj => ?_, ?_, fun j hj => (hbudget.rows j hj).le, fun j hj hne => ?_⟩
  · have hle := (hbudget.rows j hj).le
    obtain ⟨hended, hgoing⟩ := (hspent j.id).1 j hj rfl
    exact ⟨hended.trans hle, fun hh => (hgoing hh).trans hle⟩
  · exact fun j hj hterm more s' hmore => terminal_exec hterm hinv hj hmore
  · exact settledExactly_of_counts hinv.tables hj (hbudget.rows j hj) hne

end Step

end Selfevals.Worker.ScenarioBudget
