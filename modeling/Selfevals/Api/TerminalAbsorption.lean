import Selfevals.Api.JobSystem

/-!
# Does a finished run job stay finished, and a cancel stay requested?

Every writer writes the whole row from the copy it holds, and the store accepts the copy whatever
the row has become (`tryPut_of_synced`). A job that one process has ended, or asked to cancel, is
therefore what the copy of another says again.

* `held_step`: a copy that is worked on was not final when it was read.
-/

namespace Selfevals.Api.TerminalAbsorption

open Schemas.Base Schemas.Job Storage.Entity Api.RunJobs Api.JobSystem Lib.Run

variable {ι : Type}

/-- What the row says for good, a later row still says. -/
def Absorbs (row row' : RunJob) : Prop :=
  (Final row → row'.status = row.status) ∧
    (row.cancelRequestedAt.isSome → row'.cancelRequestedAt.isSome)

/-- The copy has the final status and the cancel request of the row, if the row has them. -/
def Current (row copy : RunJob) : Prop :=
  (Final row → copy.status = row.status) ∧
    (row.cancelRequestedAt.isSome → copy.cancelRequestedAt.isSome)
deriving Decidable

/-- The copy a step makes its write from: the one read, or last written, by the process. -/
def basis (s : JobState ι) : Op ι → Option RunJob
  | .leasePut p =>
    match s.phase p with
    | .leaseDecided read _ => some read
    | _ => none
  | .markRunning p _ _ | .markSucceeded p _ | .markFailed p _ _ | .markCancelled p _ =>
    match s.phase p with
    | .holding job => some job
    | _ => none
  | .cancelPut p =>
    match s.phase p with
    | .cancelRead _ job => some job
    | _ => none
  | .sweepPut p _ =>
    match s.phase p with
    | .sweepRead job => some job
    | _ => none
  | _ => none

/-- A step that writes a copy makes it from one that has what the row has for good. -/
def Aware (s : JobState ι) (op : Op ι) : Prop := ∀ job ∈ basis s op, Current s.row job
deriving Decidable

theorem basis_of_writes {owner : ι → String} {s : JobState ι} {op : Op ι} {read copy : RunJob}
    (hw : Writes owner s op read copy) : basis s op = some read := by
  cases hw <;> simp only [basis, *]

theorem Absorbs.refl (row : RunJob) : Absorbs row row := ⟨fun _ => rfl, fun h => h⟩

theorem Absorbs.trans {row row' row'' : RunJob} (h : Absorbs row row') (h' : Absorbs row' row'') :
    Absorbs row row'' := by
  refine ⟨fun hfin => ?_, fun hc => h'.2 (h.2 hc)⟩
  have heq := h.1 hfin
  exact (h'.1 (hfin.congr heq)).trans heq

theorem Current.not_final {row copy : RunJob} (h : Current row copy)
    (hcopy : ¬ Final copy) : ¬ Final row := by
  intro hfin
  exact hcopy (hfin.congr (h.1 hfin))

/-! ### Copies that are worked on -/

/-- The copy a lease was decided on was not final; a worker holds a leased or running job; the
sweeper works on a copy that is not final. -/
def Held : Phase → Prop
  | .leaseDecided read leased => read.isTerminal = false ∧ midFlight leased = true ∧
      leased.cancelRequestedAt = read.cancelRequestedAt
  | .holding job => midFlight job = true
  | .sweepRead job => job.isTerminal = false
  | _ => True

section Step
variable [DecidableEq ι] {owner : ι → String}

omit [DecidableEq ι] in
theorem held_enters {s : JobState ι} (h : ∀ p, Held (s.phase p)) {p : ι} {ph : Phase}
    (he : Enters owner s p ph) : Held ph := by
  cases he with
  | leaseDecided hp hd =>
    obtain ⟨hterm, -, rfl⟩ := leaseDecision_eq_some hd
    exact ⟨hterm, rfl, rfl⟩
  | leased hp =>
    have hheld := h p
    rw [hp] at hheld
    exact hheld.2.1
  | running now n hp => exact rfl
  | sweepRead hterm => exact hterm
  | idle | leaseRead now n | cancelRead now | sweepListed hexp => trivial

theorem held_step {s s' : JobState ι} {op : Op ι} (h : ∀ p, Held (s.phase p))
    (hs : step owner s op = some s') : ∀ p, Held (s'.phase p) := by
  rcases phase_step hs with heq | ⟨p, ph, he, heq⟩ <;> rw [heq]
  · exact h
  · intro q
    by_cases hq : q = p
    · subst hq
      rw [Function.update_self]
      exact held_enters h he
    · rw [Function.update_of_ne hq]
      exact h q

/-! ### Aware writes -/

theorem absorbs_touch (row : RunJob) (o : String) (e : Time) :
    Absorbs row (touchRunJobLease row o e).1 := by
  unfold touchRunJobLease
  split_ifs
  · exact Absorbs.refl row
  · exact Absorbs.refl row

theorem cancelRequested_status {job : RunJob} (h : Final job) (now : Time) :
    (cancelRequested job now).status = job.status := by
  have hq : job.status ≠ .queued := by
    unfold Final at h
    rcases h with h | h | h <;> rw [h] <;> simp
  unfold cancelRequested
  dsimp only
  rw [RunJob.markCancelRequested_status, if_neg hq, RunJob.markCancelRequested_status]

theorem cancelRequested_keeps {job : RunJob} (now : Time) (h : job.cancelRequestedAt.isSome) :
    (cancelRequested job now).cancelRequestedAt.isSome := by
  obtain ⟨t, ht⟩ := Option.isSome_iff_exists.mp h
  unfold cancelRequested
  rw [RunJob.markCancelRequested_of_some ht]
  dsimp only
  split_ifs
  · exact h
  · exact h

omit [DecidableEq ι] in
theorem absorbs_of_writes {s : JobState ι} (hheld : ∀ p, Held (s.phase p)) {op : Op ι}
    (haware : Aware s op) {read copy : RunJob} (hw : Writes owner s op read copy) :
    Absorbs s.row copy := by
  have hcur : Current s.row read := haware read (basis_of_writes hw)
  cases hw with
  | @lease p _ _ hp =>
    have h := hheld p
    rw [hp] at h
    obtain ⟨hterm, -, hcancel⟩ := h
    refine ⟨fun hfin => absurd hfin (hcur.not_final (not_final_of_not_terminal hterm)), ?_⟩
    rw [hcancel]
    exact hcur.2
  | @running p _ now n hp | @succeeded p _ now hp | @cancelled p _ now hp =>
    have hmid : midFlight read = true := by have h := hheld p; rw [hp] at h; exact h
    exact ⟨fun hfin => absurd hfin (hcur.not_final (not_final_of_midFlight hmid)), hcur.2⟩
  | @failed p _ error now hp =>
    have hmid : midFlight read = true := by have h := hheld p; rw [hp] at h; exact h
    refine ⟨fun hfin => absurd hfin (hcur.not_final (not_final_of_midFlight hmid)), ?_⟩
    rw [RunJob.markFailedOrDeadLettered_cancel]
    exact hcur.2
  | @cancelRequested p _ now hp =>
    refine ⟨fun hfin => ?_, fun hc => cancelRequested_keeps now (hcur.2 hc)⟩
    have heq := hcur.1 hfin
    rw [cancelRequested_status (hfin.congr heq) now, heq]
  | @swept p _ now hp =>
    have hterm : read.isTerminal = false := by have h := hheld p; rw [hp] at h; exact h
    refine ⟨fun hfin => absurd hfin (hcur.not_final (not_final_of_not_terminal hterm)), ?_⟩
    rw [RunJob.markFailedOrDeadLettered_cancel]
    exact hcur.2

theorem absorbs_step {s s' : JobState ι} {op : Op ι} (hheld : ∀ p, Held (s.phase p))
    (haware : Aware s op) (hs : step owner s op = some s') : Absorbs s.row s'.row := by
  rcases row_step hs with heq | ⟨o, e, heq⟩ | ⟨read, copy, hw, heq⟩ <;> rw [heq]
  · exact Absorbs.refl s.row
  · exact absorbs_touch s.row o e
  · have habs := absorbs_of_writes hheld haware hw
    exact ⟨habs.1, habs.2⟩

/-- **Nothing final and no cancel request is lost** between any two states of a run in which every
write is made from a copy that already has them. -/
theorem absorbs_of_aware (owner : ι → String) (job : RunJob) (clock : Time) (ops : List (Op ι))
    (hG : Guarded (step owner) Aware (.init job clock) ops) {pre mid post : List (Op ι)}
    {s s' : JobState ι} (hops : ops = pre ++ mid ++ post)
    (hs : exec (step owner) (.init job clock) pre = some s)
    (hs' : exec (step owner) (.init job clock) (pre ++ mid) = some s') : Absorbs s.row s'.row := by
  subst hops
  have hinit : ∀ p, Held ((JobState.init (ι := ι) job clock).phase p) := fun _ => trivial
  have hheld := inv_of_exec (fun _ _ _ hI ht => held_step hI ht) hinit hs
  have hmid := (guarded_append (guarded_append hG hs').1 hs).2
  rw [exec_append_of hs] at hs'
  exact rel_of_guarded (R := fun s s' => Absorbs s.row s'.row) (fun s => Absorbs.refl s.row)
    (fun s t u (h : Absorbs s.row t.row) h' => h.trans h')
    (fun _ _ _ hI hg ht => ⟨held_step hI ht, absorbs_step hI hg ht⟩) hheld hmid hs'

end Step

/-! ### A worker, a canceller and a sweeper -/

/-- A job with one attempt, queued. -/
def queuedOnce : RunJob := newRunJob "job_1" "ws_1" "exp_1" 0 1 1 Nat.one_pos

/-- Worker 0 leases the job and starts it. -/
def start : List (Op (Fin 3)) :=
  [.leaseGet 0 0 300, .leaseDecide 0, .leasePut 0, .markRunning 0 1 300]

/-- A cancel that comes when the job has succeeded changes nothing. -/
theorem absorbs_late_cancel :
    ∃ s s', exec (step fun _ => "w") (.init queuedOnce 0) (start ++ [.markSucceeded 0 2]) = some s ∧
      exec (step fun _ => "w") (.init queuedOnce 0)
        (start ++ [.markSucceeded 0 2] ++ [.cancelGet 1 3, .cancelPut 1]) = some s' ∧
      s.row.status = .succeeded ∧ Absorbs s.row s'.row := by
  refine ⟨_, _, rfl, rfl, rfl, ?_⟩
  exact absorbs_of_aware (fun _ => "w") queuedOnce 0
    (start ++ [.markSucceeded 0 2] ++ [.cancelGet 1 3, .cancelPut 1] ++ []) (by decide) rfl rfl rfl

/-- The job is asked to cancel, then dead-lettered by the sweeper; the worker, back from its run,
makes it a success without a cancel request. -/
theorem not_absorbed :
    ∃ s s', exec (step fun _ => "w") (.init queuedOnce 0) (start ++
        [.cancelGet 1 2, .cancelPut 1, .sweepList 2 (seconds 400), .sweepGet 2,
          .sweepPut 2 (seconds 400)]) = some s ∧
      step (fun _ => "w") s (.markSucceeded 0 (seconds 401)) = some s' ∧
      s.row.status = .deadLettered ∧ s.row.cancelRequestedAt = some 2 ∧
      s'.row.status = .succeeded ∧ s'.row.cancelRequestedAt = none ∧ ¬ Absorbs s.row s'.row := by
  refine ⟨_, _, rfl, rfl, rfl, rfl, rfl, rfl, fun h => ?_⟩
  exact absurd (h.2 rfl) (by decide)

end Selfevals.Api.TerminalAbsorption
