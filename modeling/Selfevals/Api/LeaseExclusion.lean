import Selfevals.Api.JobSystem

/-!
# Does a run job have one holder at a time?

`lease_run_job` decides on the row it has read and then writes the whole row; the heartbeat renews
whatever lease is stored. Neither looks at what happened in between, so a worker that comes second
believes in its lease as much as the one before it.

* `holder_step`: an unexpired lease that a worker believes in is the stored one, and the worker is
  the last it was given to; unstolen steps keep this.
-/

namespace Selfevals.Api.LeaseExclusion

open Schemas.Base Schemas.Job Storage.Entity Api.RunJobs Api.JobSystem Lib.Run

variable {ι : Type}

/-- The worker was given a lease, and at `t` it is not over. -/
def Believes (s : JobState ι) (p : ι) (t : Time) : Prop := ∃ u, s.granted p = some u ∧ t < u

/-- From now on, until the next step, at most one worker believes in its lease. -/
def Exclusive (s : JobState ι) : Prop :=
  ∀ t, s.clock ≤ t → ∀ p q, Believes s p t → Believes s q t → p = q

/-- The steps of leases and heartbeats, with a clock that does not run backwards. -/
def LeaseStep (s : JobState ι) : Op ι → Prop
  | .leaseGet _ now _ | .heartbeat _ now _ | .tick now => s.clock ≤ now
  | .leaseDecide _ | .leasePut _ | .drop _ => True
  | _ => False

/-- At `t` the stored lease is over, or it is the worker's own. -/
def LeaseOpen (s : JobState ι) (t : Time) (p : ι) : Prop :=
  leaseFree s.row t = true ∨ s.grantee = some p

/-- A step that writes a lease finds the stored one over, or its own. -/
def Unstolen (s : JobState ι) : Op ι → Prop
  | .leasePut p => LeaseOpen s s.clock p
  | .heartbeat p now _ => LeaseOpen s now p
  | _ => True

instance (s : JobState ι) (op : Op ι) : Decidable (LeaseStep s op) := by
  cases op <;> unfold LeaseStep <;> infer_instance

instance [DecidableEq ι] (s : JobState ι) (t : Time) (p : ι) : Decidable (LeaseOpen s t p) := by
  unfold LeaseOpen
  infer_instance

instance [DecidableEq ι] (s : JobState ι) (op : Op ι) : Decidable (Unstolen s op) := by
  cases op <;> unfold Unstolen <;> infer_instance

/-- The invariant: a lease believed in is the stored one, in the hands of the last grantee. -/
def Holder (s : JobState ι) : Prop :=
  ∀ p u, s.granted p = some u → s.clock < u → s.grantee = some p ∧ s.row.leaseExpiresAt = some u

theorem exclusive_of_holder {s : JobState ι} (h : Holder s) : Exclusive s := by
  rintro t ht p q ⟨u, hu, htu⟩ ⟨v, hv, htv⟩
  have hp := (h p u hu (ht.trans_lt htu)).1
  have hq := (h q v hv (ht.trans_lt htv)).1
  rw [hp] at hq
  exact Option.some.inj hq

theorem holder_init (job : RunJob) (clock : Time) : Holder (JobState.init (ι := ι) job clock) :=
  fun _ _ hu => absurd hu (by simp [JobState.init])

theorem Holder.later {s s' : JobState ι} (h : Holder s) (hrow : s'.row = s.row)
    (hgranted : s'.granted = s.granted) (hgrantee : s'.grantee = s.grantee)
    (hclock : s.clock ≤ s'.clock) : Holder s' := by
  intro p u hu hlt
  rw [hgranted] at hu
  rw [hgrantee, hrow]
  exact h p u hu (hclock.trans_lt hlt)

section Step
variable [DecidableEq ι] {owner : ι → String}

theorem Holder.grant {s s' : JobState ι} (h : Holder s) {p : ι}
    (hopen : LeaseOpen s s'.clock p) (hclock : s.clock ≤ s'.clock)
    (hgranted : s'.granted = Function.update s.granted p s'.row.leaseExpiresAt)
    (hgrantee : s'.grantee = some p) : Holder s' := by
  intro q u hu hlt
  rw [hgranted] at hu
  by_cases hqp : q = p
  · subst hqp
    rw [Function.update_self] at hu
    exact ⟨hgrantee, hu⟩
  · rw [Function.update_of_ne hqp] at hu
    obtain ⟨hq, hrow⟩ := h q u hu (hclock.trans_lt hlt)
    rcases hopen with hfree | hp
    · simp only [leaseFree, hrow, decide_eq_true_eq] at hfree
      exact absurd hlt hfree.not_gt
    · rw [hp] at hq
      exact absurd (Option.some.inj hq).symm hqp

theorem holder_step {s s' : JobState ι} {op : Op ι} (h : Holder s) (hop : LeaseStep s op)
    (hu : Unstolen s op) (hs : step owner s op = some s') : Holder s' := by
  cases op with
  | leaseGet p now n =>
    simp only [step] at hs
    split at hs
    · cases hs; exact h.later rfl rfl rfl hop
    · cases hs
  | leaseDecide p =>
    simp only [step] at hs
    split at hs
    · split at hs <;> cases hs <;> exact h.later rfl rfl rfl le_rfl
    · cases hs
  | leasePut p =>
    simp only [step] at hs
    split at hs
    · next read leased hp =>
      split at hs
      · cases hs; exact h.later rfl rfl rfl le_rfl
      · next row hput =>
        have hrow : row.leaseExpiresAt = leased.leaseExpiresAt := by
          rw [tryPut_eq_some hput]; rfl
        cases hs
        refine h.grant (p := p) hu le_rfl ?_ rfl
        show Function.update s.granted p leased.leaseExpiresAt = _
        rw [← hrow]
    · cases hs
  | heartbeat p now n =>
    simp only [step] at hs
    split_ifs at hs
    · cases hs; exact h.grant hu hop rfl rfl
    · cases hs; exact h.later rfl rfl rfl hop
  | drop p =>
    cases hs
    intro q u hq hlt
    by_cases hqp : q = p
    · subst hqp
      simp at hq
    · exact h q u (by simpa [JobState.setPhase, hqp] using hq) hlt
  | tick now => cases hs; exact h.later rfl rfl rfl hop
  | _ => exact absurd hop (by simp [LeaseStep])

/-- **One holder at a time**, in every run of leases and heartbeats in which every lease written
finds the stored one over or its own. -/
theorem exclusive_of_unstolen (owner : ι → String) (job : RunJob) (clock : Time)
    (ops : List (Op ι)) {s : JobState ι} (hs : exec (step owner) (.init job clock) ops = some s)
    (hops : Guarded (step owner) LeaseStep (.init job clock) ops)
    (hG : Guarded (step owner) Unstolen (.init job clock) ops) : Exclusive s := by
  have hstep : ∀ (s : JobState ι) op s', Holder s → LeaseStep s op ∧ Unstolen s op →
      step owner s op = some s' → Holder s' := fun s op s' hI hg ht => holder_step hI hg.1 hg.2 ht
  have hboth := guarded_and hops hG
  exact exclusive_of_holder (inv_of_guarded hstep (holder_init job clock) hboth hs)

end Step

/-! ### Two workers -/

/-- The job, queued. -/
def queued : RunJob :=
  newRunJob "job_1" "ws_1" "exp_1" 0 1 defaultMaxAttempts one_le_defaultMaxAttempts

/-- The second worker comes when the lease of the first is over. -/
def inTurn : List (Op Bool) :=
  [.leaseGet true 0 300, .leaseDecide true, .leasePut true, .heartbeat true (seconds 150) 300,
    .leaseGet false (seconds 450) 300, .leaseDecide false, .leasePut false]

theorem exclusive_inTurn :
    ∃ s, exec (step fun p => cond p "a" "b") (.init queued 0) inTurn = some s ∧
    Believes s false (seconds 700) ∧ Exclusive s := by
  refine ⟨_, rfl, ⟨seconds 750, rfl, by decide⟩, ?_⟩
  exact exclusive_of_unstolen (fun p => cond p "a" "b") queued 0 inTurn rfl (by decide) (by decide)

/-- Two workers read the row before either writes, and both are given the lease. -/
def racing : List (Op Bool) :=
  [.leaseGet true 0 300, .leaseGet false 0 300, .leaseDecide true, .leaseDecide false,
    .leasePut true, .leasePut false]

/-- A worker wakes up after its lease went to another, and renews it. -/
def reviving : List (Op Bool) :=
  [.leaseGet true 0 300, .leaseDecide true, .leasePut true, .leaseGet false (seconds 300) 300,
    .leaseDecide false, .leasePut false, .heartbeat true (seconds 301) 300]

theorem two_believers {s : JobState Bool} (ha : Believes s true s.clock)
    (hb : Believes s false s.clock) :
    Believes s true s.clock ∧ Believes s false s.clock ∧ ¬ Exclusive s :=
  ⟨ha, hb, fun h => absurd (h _ le_rfl _ _ ha hb) (by decide)⟩

/-- The run ends with both workers holding an unexpired lease. -/
def Conflicts (ops : List (Op Bool)) : Prop :=
  Guarded (step fun p => cond p "a" "b") LeaseStep (.init queued 0) ops ∧
    ∃ s, exec (step fun p => cond p "a" "b") (.init queued 0) ops = some s ∧
      Believes s true s.clock ∧ Believes s false s.clock ∧ ¬ Exclusive s

/-- Two ways for two workers to hold an unexpired lease at once. -/
theorem two_holders : Conflicts racing ∧ Conflicts reviving := by
  constructor
  · refine ⟨by decide, _, rfl, two_believers ⟨seconds 300, rfl, ?_⟩ ⟨seconds 300, rfl, ?_⟩⟩
    · decide
    · decide
  · refine ⟨by decide, _, rfl, two_believers ⟨seconds 601, rfl, ?_⟩ ⟨seconds 600, rfl, ?_⟩⟩
    · decide
    · decide

end Selfevals.Api.LeaseExclusion
