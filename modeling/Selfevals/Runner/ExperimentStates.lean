import Selfevals.Lib.Run
import Selfevals.Schemas.Experiments
import Selfevals.Storage.Entity

/-!
# The state of the stored experiment during a run

One launched run and the processes that write its experiment row: the coordinator, which starts and
finishes the loop, scenario-worker batches, and whoever aborts the experiment (a cancel, or a job
that is dead-lettered). `build_loop` writes the experiment of the job's payload, so every process
that builds a loop puts the DRAFT copy back; the loop goes from DRAFT by QUEUED to RUNNING in memory
and writes RUNNING only.

* `step` is the system; `Legal` asks of a step that the stored state stays or moves along
  `legalTransitions`, `NoReturn` that it does not go back to DRAFT.
-/

namespace Selfevals.Runner.ExperimentStates

open Schemas.Base Schemas.Enums Schemas.Experiments Storage.Entity Lib.Run
open Experiment (legalTransitions)

/-- What a process is in the middle of, with the experiment it holds in memory. -/
inductive Phase
  | idle
  /-- The coordinator has built its loop. -/
  | built (experiment : Experiment)
  /-- The coordinator's loop is running. -/
  | running (experiment : Experiment)
  /-- `_abort_experiment_in_scope` has read the row and moved its copy to ABORTED. -/
  | aborting (experiment : Experiment)

/-- The stored experiment, the one in the job's payload, and the processes. -/
structure RunState (ι : Type) where
  row : Experiment
  payload : Experiment
  phase : ι → Phase

/-- What the writers of the state do. -/
inductive Op (ι : Type)
  /-- The coordinator's `build_loop`. -/
  | build (p : ι)
  /-- The loop's first writes of the experiment. -/
  | start (p : ι)
  /-- The loop's last write of the experiment. -/
  | finish (p : ι)
  /-- A scenario-worker batch rebuilds the loop. -/
  | batch (p : ι)
  | abortGet (p : ι)
  | abortPut (p : ι)
  /-- The process dies, or its run fails. -/
  | drop (p : ι)

/-- The transitions in memory before the loop's first write; `none` where it raises. -/
def startLoop (e : Experiment) : Option Experiment := do
  let e ← if e.state = .draft then (e.transitionTo .queued).toOption else some e
  let e ← if e.state = .queued then (e.transitionTo .running).toOption else some e
  if e.state = .running then return e else none

/-- The transition in memory before the loop's last write. -/
def finishLoop (e : Experiment) : Option Experiment := (e.transitionTo .completed).toOption

/-- The copy that an abort writes, if the experiment is not over. -/
def abortCopy (e : Experiment) : Option Experiment :=
  if e.isTerminal then none else (e.transitionTo .aborted).toOption

variable {ι : Type}

/-- The launch has persisted the experiment and the job. -/
def init (payload : Experiment) : RunState ι := ⟨payload, payload, fun _ => .idle⟩

section Step
variable [DecidableEq ι]

def RunState.setPhase (s : RunState ι) (p : ι) (ph : Phase) : RunState ι :=
  { s with phase := Function.update s.phase p ph }

/-- The state after a process writes a copy and goes on, or is refused. -/
def RunState.put (s : RunState ι) (p : ι) (copy : Experiment) (next : Phase) : RunState ι :=
  match tryPut s.row copy with
  | none => s.setPhase p .idle
  | some row => { s.setPhase p next with row := row }

/-- One step; `none` where it is not that process's turn. -/
def step (s : RunState ι) : Op ι → Option (RunState ι)
  | .build p =>
    match s.phase p with
    | .idle => some (s.put p s.payload (.built s.payload))
    | _ => none
  | .start p =>
    match s.phase p with
    | .built e =>
      match startLoop e with
      | none => some (s.setPhase p .idle)
      | some e => some (s.put p e (.running e))
    | _ => none
  | .finish p =>
    match s.phase p with
    | .running e =>
      match finishLoop e with
      | none => some (s.setPhase p .idle)
      | some e => some (s.put p e .idle)
    | _ => none
  | .batch p =>
    match s.phase p with
    | .idle => some (s.put p s.payload .idle)
    | _ => none
  | .abortGet p =>
    match s.phase p with
    | .idle =>
      match abortCopy s.row with
      | none => some s
      | some e => some (s.setPhase p (.aborting e))
    | _ => none
  | .abortPut p =>
    match s.phase p with
    | .aborting e => some (s.put p e .idle)
    | _ => none
  | .drop p => some (s.setPhase p .idle)

/-- The stored state stays, or moves along the state machine. -/
def Legal (s : RunState ι) (op : Op ι) : Prop :=
  ∀ s', step s op = some s' → s'.row.state = s.row.state ∨
    s'.row.state ∈ legalTransitions s.row.state

/-- The run is in flight or over. -/
def Begun (state : ExperimentState) : Prop :=
  state = .running ∨ state = .completed ∨ state = .aborted

/-- The stored state does not return to DRAFT once the run has begun. -/
def NoReturn (s : RunState ι) (op : Op ι) : Prop :=
  ∀ s', step s op = some s' → Begun s.row.state → s'.row.state ≠ .draft

end Step

/-- The process can build a loop. -/
def Builds (s : RunState ι) : Op ι → Prop
  | .build p | .batch p => s.phase p = .idle
  | _ => False

/-- The coordinator does not get as far as its first write, and no loop is built once the experiment
is aborted. -/
def Quiet (s : RunState ι) : Op ι → Prop
  | .start p => ∀ e, s.phase p ≠ .built e
  | op => Builds s op → s.row.state ≠ .aborted

/-- No loop is built once the run has begun. -/
def BuildsEarly (s : RunState ι) (op : Op ι) : Prop := Builds s op → ¬ Begun s.row.state

/-! ### What the processes hold -/

/-- The experiment can be written over the row. -/
def SameBase (row e : Experiment) : Prop :=
  e.workspaceId = row.workspaceId ∧ e.version = row.version ∧ e.createdAt = row.createdAt

def Held (row : Experiment) : Phase → Prop
  | .idle => True
  | .built e => SameBase row e ∧ e.state = .draft
  | .running e => SameBase row e ∧ e.state = .running
  | .aborting e => SameBase row e ∧ e.state = .aborted

/-- The payload is a draft, and every copy in memory can be written, in the state its holder has
brought it to. -/
structure Inv (s : RunState ι) : Prop where
  payload : SameBase s.row s.payload ∧ s.payload.state = .draft
  held : ∀ p, Held s.row (s.phase p)

theorem inv_init {payload : Experiment} (h : payload.state = .draft) :
    Inv (init (ι := ι) payload) := ⟨⟨⟨rfl, rfl, rfl⟩, h⟩, fun _ => trivial⟩

theorem tryPut_of_sameBase {row e : Experiment} (h : SameBase row e) : tryPut row e = some e := by
  obtain ⟨hws, hv, hc⟩ := h
  rw [tryPut_of_same hws hv]
  show some { e with createdAt := row.createdAt } = _
  rw [← hc]

theorem SameBase.congr {row row' e : Experiment} (h : SameBase row row') (he : SameBase row e) :
    SameBase row' e :=
  ⟨he.1.trans h.1.symm, he.2.1.trans h.2.1.symm, he.2.2.trans h.2.2.symm⟩

theorem Held.congr {row row' : Experiment} (h : SameBase row row') {ph : Phase}
    (hp : Held row ph) : Held row' ph := by
  cases ph with
  | idle => trivial
  | built e | running e | aborting e => exact ⟨h.congr hp.1, hp.2⟩

theorem startLoop_draft {e : Experiment} (h : e.state = .draft) :
    startLoop e = some { e with state := .running } := by
  simp [startLoop, h, Experiment.transitionTo, legalTransitions, Except.toOption]

theorem finishLoop_running {e : Experiment} (h : e.state = .running) :
    finishLoop e = some { e with state := .completed } := by
  simp [finishLoop, h, Experiment.transitionTo, legalTransitions, Except.toOption]

theorem abortCopy_eq (e : Experiment) :
    abortCopy e = if e.isTerminal then none else some { e with state := .aborted } := by
  unfold abortCopy
  split_ifs with h
  · rfl
  · rw [Experiment.transitionTo_of_legal
      (Experiment.aborted_mem_legalTransitions (by simpa using h))]
    rfl

section Step
variable [DecidableEq ι]

theorem put_of_sameBase {s : RunState ι} {p : ι} {e : Experiment} {next : Phase}
    (h : SameBase s.row e) : s.put p e next = { s.setPhase p next with row := e } := by
  unfold RunState.put
  rw [tryPut_of_sameBase h]

theorem Inv.setPhase {s : RunState ι} (h : Inv s) {p : ι} {ph : Phase} (hp : Held s.row ph) :
    Inv (s.setPhase p ph) := by
  refine ⟨h.payload, fun q => ?_⟩
  show Held s.row (Function.update s.phase p ph q)
  by_cases hq : q = p
  · subst hq
    rw [Function.update_self]
    exact hp
  · rw [Function.update_of_ne hq]
    exact h.held q

theorem Inv.put {s : RunState ι} (h : Inv s) {p : ι} {e : Experiment} {next : Phase}
    (he : SameBase s.row e) (hnext : Held s.row next) : Inv (s.put p e next) := by
  rw [put_of_sameBase he]
  have hset := h.setPhase (p := p) hnext
  exact ⟨⟨he.congr h.payload.1, h.payload.2⟩, fun q => (hset.held q).congr he⟩

/-- What a step does to the stored state, and what it asks of the process. -/
def Effect (s s' : RunState ι) : Op ι → Prop
  | .build p | .batch p => s.phase p = .idle ∧ s'.row.state = .draft
  | .start p => (∃ e, s.phase p = .built e) ∧ s'.row.state = .running
  | .finish p => (∃ e, s.phase p = .running e) ∧ s'.row.state = .completed
  | .abortPut _ => s'.row.state = .aborted
  | .abortGet _ | .drop _ => s'.row = s.row

/-- **What a step writes**: nothing, or one of the copies that the invariant speaks of. -/
theorem inv_step {s s' : RunState ι} (h : Inv s) {op : Op ι} (hs : step s op = some s') :
    Inv s' ∧ Effect s s' op := by
  cases op with
  | build p =>
    simp only [step] at hs
    split at hs
    · next hp =>
      obtain rfl := Option.some.inj hs
      refine ⟨h.put h.payload.1 h.payload, hp, ?_⟩
      rw [put_of_sameBase h.payload.1]
      exact h.payload.2
    · simp at hs
  | batch p =>
    simp only [step] at hs
    split at hs
    · next hp =>
      obtain rfl := Option.some.inj hs
      refine ⟨h.put h.payload.1 trivial, hp, ?_⟩
      rw [put_of_sameBase h.payload.1]
      exact h.payload.2
    · simp at hs
  | start p =>
    simp only [step] at hs
    split at hs
    · next e hp =>
      have hheld := h.held p
      rw [hp] at hheld
      obtain ⟨hbase, hstate⟩ := hheld
      rw [startLoop_draft hstate] at hs
      obtain rfl := Option.some.inj hs
      have hbase' : SameBase s.row { e with state := .running } := hbase
      refine ⟨h.put hbase' ⟨hbase', rfl⟩, ⟨e, hp⟩, ?_⟩
      rw [put_of_sameBase hbase']
    · simp at hs
  | finish p =>
    simp only [step] at hs
    split at hs
    · next e hp =>
      have hheld := h.held p
      rw [hp] at hheld
      obtain ⟨hbase, hstate⟩ := hheld
      rw [finishLoop_running hstate] at hs
      obtain rfl := Option.some.inj hs
      have hbase' : SameBase s.row { e with state := .completed } := hbase
      refine ⟨h.put hbase' trivial, ⟨e, hp⟩, ?_⟩
      rw [put_of_sameBase hbase']
    · simp at hs
  | abortGet p =>
    simp only [step] at hs
    split at hs
    · rw [abortCopy_eq] at hs
      split_ifs at hs
      · obtain rfl := Option.some.inj hs
        exact ⟨h, rfl⟩
      · obtain rfl := Option.some.inj hs
        exact ⟨h.setPhase ⟨⟨rfl, rfl, rfl⟩, rfl⟩, rfl⟩
    · simp at hs
  | abortPut p =>
    simp only [step] at hs
    split at hs
    · next e hp =>
      have hheld := h.held p
      rw [hp] at hheld
      obtain rfl := Option.some.inj hs
      refine ⟨h.put hheld.1 trivial, ?_⟩
      show (s.put p e .idle).row.state = .aborted
      rw [put_of_sameBase hheld.1]
      exact hheld.2
    · simp at hs
  | drop p =>
    obtain rfl := Option.some.inj hs
    exact ⟨h.setPhase trivial, rfl⟩

theorem setPhase_running {s : RunState ι} {p q : ι} {ph : Phase} {e : Experiment}
    (h : (s.setPhase p ph).phase q = .running e) : s.phase q = .running e ∨ ph = .running e := by
  have h' : Function.update s.phase p ph q = .running e := h
  by_cases hq : q = p
  · subst hq
    rw [Function.update_self] at h'
    exact Or.inr h'
  · rw [Function.update_of_ne hq] at h'
    exact Or.inl h'

theorem put_running {s : RunState ι} {p q : ι} {copy e : Experiment} {next : Phase}
    (h : (s.put p copy next).phase q = .running e) :
    s.phase q = .running e ∨ next = .running e := by
  unfold RunState.put at h
  split at h
  · rcases setPhase_running h with h | h
    · exact Or.inl h
    · exact absurd h (by simp)
  · exact setPhase_running h

theorem running_step {s s' : RunState ι} {op : Op ι} (hs : step s op = some s') {q : ι}
    {e : Experiment} (h : s'.phase q = .running e) :
    s.phase q = .running e ∨ ∃ p e', op = .start p ∧ s.phase p = .built e' := by
  cases op with
  | build p | batch p | abortPut p =>
    simp only [step] at hs
    split at hs
    · obtain rfl := Option.some.inj hs
      rcases put_running h with h | h
      · exact Or.inl h
      · exact absurd h (by simp)
    · simp at hs
  | start p =>
    simp only [step] at hs
    split at hs
    · next e' hp => exact Or.inr ⟨p, e', rfl, hp⟩
    · simp at hs
  | finish p =>
    simp only [step] at hs
    split at hs
    · split at hs <;> obtain rfl := Option.some.inj hs
      · rcases setPhase_running h with h | h
        · exact Or.inl h
        · exact absurd h (by simp)
      · rcases put_running h with h | h
        · exact Or.inl h
        · exact absurd h (by simp)
    · simp at hs
  | abortGet p =>
    simp only [step] at hs
    split at hs
    · split at hs <;> obtain rfl := Option.some.inj hs
      · exact Or.inl h
      · rcases setPhase_running h with h | h
        · exact Or.inl h
        · exact absurd h (by simp)
    · simp at hs
  | drop p =>
    obtain rfl := Option.some.inj hs
    rcases setPhase_running h with h | h
    · exact Or.inl h
    · exact absurd h (by simp)

theorem step_isSome {s : RunState ι} (h : Inv s) {op : Op ι}
    (hready : Builds s op ∨ ∃ p e, op = .start p ∧ s.phase p = .built e) :
    ∃ s', step s op = some s' := by
  rcases hready with hb | ⟨p, e, rfl, hp⟩
  · cases op with
    | build p | batch p =>
      have hp : s.phase p = .idle := hb
      simp only [step, hp]
      exact ⟨_, rfl⟩
    | _ => exact absurd hb (by simp [Builds])
  · have hheld := h.held p
    rw [hp] at hheld
    simp only [step, hp, startLoop_draft hheld.2]
    exact ⟨_, rfl⟩

/-! ### Legal runs -/

/-- In a quiet run the experiment is a draft or aborted, and no loop runs. -/
structure QuietInv (s : RunState ι) : Prop where
  inv : Inv s
  state : s.row.state = .draft ∨ s.row.state = .aborted
  notRunning : ∀ p e, s.phase p ≠ .running e

theorem quietInv_step {s s' : RunState ι} {op : Op ι} (h : QuietInv s) (hq : Quiet s op)
    (hs : step s op = some s') : QuietInv s' := by
  obtain ⟨hinv, heffect⟩ := inv_step h.inv hs
  refine ⟨hinv, ?_, fun q e hrun => ?_⟩
  · cases op with
    | build p | batch p => exact Or.inl heffect.2
    | start p =>
      obtain ⟨⟨e, he⟩, -⟩ := heffect
      exact absurd he (hq e)
    | finish p =>
      obtain ⟨⟨e, he⟩, -⟩ := heffect
      exact absurd he (h.notRunning p e)
    | abortPut p => exact Or.inr heffect
    | abortGet p | drop p =>
      have hrow : s'.row = s.row := heffect
      rw [hrow]
      exact h.state
  · rcases running_step hs hrun with hrun | ⟨p, e', rfl, hp⟩
    · exact h.notRunning q e hrun
    · exact hq e' hp

theorem legal_step_iff {s : RunState ι} (h : QuietInv s) (op : Op ι) :
    Legal s op ↔ Quiet s op := by
  constructor
  · intro hlegal
    cases op with
    | build p | batch p =>
      intro hidle haborted
      obtain ⟨s', hs⟩ := step_isSome h.inv (Or.inl hidle)
      have hdraft := (inv_step h.inv hs).2.2
      have := hlegal s' hs
      rw [hdraft, haborted] at this
      simp [legalTransitions] at this
    | start p =>
      intro e hp
      obtain ⟨s', hs⟩ := step_isSome h.inv (Or.inr ⟨p, e, rfl, hp⟩)
      have hrunning := (inv_step h.inv hs).2.2
      have := hlegal s' hs
      rw [hrunning] at this
      -- neither a draft nor an aborted experiment may start
      rcases h.state with hrow | hrow <;> rw [hrow] at this <;> simp [legalTransitions] at this
    | finish p | abortGet p | abortPut p | drop p => exact fun hb => absurd hb (by simp [Builds])
  · intro hq s' hs
    have heffect := (inv_step h.inv hs).2
    cases op with
    | build p | batch p =>
      have hne := hq heffect.1
      rcases h.state with hrow | hrow
      · exact Or.inl (heffect.2.trans hrow.symm)
      · exact absurd hrow hne
    | start p =>
      obtain ⟨⟨e, he⟩, -⟩ := heffect
      exact absurd he (hq e)
    | finish p =>
      obtain ⟨⟨e, he⟩, -⟩ := heffect
      exact absurd he (h.notRunning p e)
    | abortPut p =>
      have haborted : s'.row.state = .aborted := heffect
      rw [haborted]
      rcases h.state with hrow | hrow <;> rw [hrow] <;> simp [legalTransitions]
    | abortGet p | drop p =>
      have hrow : s'.row = s.row := heffect
      exact Or.inl (by rw [hrow])

theorem noReturn_step_iff {s : RunState ι} (h : Inv s) (op : Op ι) :
    NoReturn s op ↔ BuildsEarly s op := by
  constructor
  · intro hno hb hbegun
    obtain ⟨s', hs⟩ := step_isSome h (Or.inl hb)
    refine hno s' hs hbegun ?_
    have heffect := (inv_step h hs).2
    cases op with
    | build p | batch p => exact heffect.2
    | _ => exact absurd hb (by simp [Builds])
  · intro hearly s' hs hbegun hdraft
    have heffect := (inv_step h hs).2
    cases op with
    | build p | batch p => exact hearly heffect.1 hbegun
    | start p | finish p =>
      rw [heffect.2] at hdraft
      simp at hdraft
    | abortPut p =>
      have haborted : s'.row.state = .aborted := heffect
      rw [haborted] at hdraft
      simp at hdraft
    | abortGet p | drop p =>
      have hrow : s'.row = s.row := heffect
      rw [hrow] at hdraft
      unfold Begun at hbegun
      simp [hdraft] at hbegun

/-- **Which runs are legal**: those in which the coordinator never gets as far as writing RUNNING
and no loop is built after an abort. **Which runs never return to DRAFT**: those in which no loop is
built once the run has begun. -/
theorem legal_iff_quiet {payload : Experiment} (hdraft : payload.state = .draft)
    (ops : List (Op ι)) :
    (Guarded step Legal (init payload) ops ↔ Guarded step Quiet (init payload) ops) ∧
      (Guarded step NoReturn (init payload) ops ↔ Guarded step BuildsEarly (init payload) ops) := by
  have hinit : Inv (init (ι := ι) payload) := inv_init hdraft
  have hquiet : QuietInv (init (ι := ι) payload) :=
    ⟨hinit, Or.inl hdraft, fun p e => by simp [init]⟩
  constructor
  · exact guarded_congr (fun _ op hI => legal_step_iff hI op)
      (fun _ _ _ hI hq hs => quietInv_step hI hq hs) hquiet
  · exact guarded_congr (fun _ op hI => noReturn_step_iff hI op)
      (fun _ _ _ hI _ hs => (inv_step hI hs).1) hinit

end Step

/-! ### A coordinator and a scenario batch -/

/-- A job that is built and cancelled before it starts. -/
def cancelledEarly : List (Op Bool) := [.build false, .abortGet true, .abortPut true, .drop false]

theorem legal_cancelledEarly :
    Guarded step Legal (init (ι := Bool) Experiment.minimal) cancelledEarly ∧
      Guarded step NoReturn (init (ι := Bool) Experiment.minimal) cancelledEarly := by
  have hquiet : Guarded step Quiet (init (ι := Bool) Experiment.minimal) cancelledEarly :=
    ⟨fun _ => by decide, fun _ _ => ⟨fun h => h.elim, fun _ _ => ⟨fun h => h.elim, fun _ _ =>
      ⟨fun h => h.elim, fun _ _ => trivial⟩⟩⟩⟩
  have hearly : Guarded step BuildsEarly (init (ι := Bool) Experiment.minimal) cancelledEarly :=
    ⟨fun _ => by simp [Begun, init, Experiment.minimal], fun _ _ => ⟨fun h => h.elim, fun _ _ =>
      ⟨fun h => h.elim, fun _ _ => ⟨fun h => h.elim, fun _ _ => trivial⟩⟩⟩⟩
  have hdraft : Experiment.minimal.state = .draft := rfl
  have hiff := legal_iff_quiet hdraft cancelledEarly
  exact ⟨hiff.1.mpr hquiet, hiff.2.mpr hearly⟩

/-- The coordinator starts the loop, a batch rebuilds it: the row goes from DRAFT to RUNNING, and
back. -/
theorem running_back_to_draft :
    ∃ s₁ s₂ s₃ : RunState Bool, exec step (init Experiment.minimal) [.build false] = some s₁ ∧
      step s₁ (.start false) = some s₂ ∧ step s₂ (.batch true) = some s₃ ∧
      s₁.row.state = .draft ∧ s₂.row.state = .running ∧ s₃.row.state = .draft ∧
      ¬ Legal s₁ (.start false) ∧ ¬ Legal s₂ (.batch true) ∧ ¬ NoReturn s₂ (.batch true) := by
  refine ⟨_, _, _, rfl, rfl, rfl, rfl, rfl, rfl, fun h => ?_, fun h => ?_, fun h => ?_⟩
  · exact absurd (h _ rfl) (by decide)
  · exact absurd (h _ rfl) (by decide)
  · exact absurd (h _ rfl (Or.inl rfl)) (by decide)

end Selfevals.Runner.ExperimentStates
