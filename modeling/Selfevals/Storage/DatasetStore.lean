import Mathlib.Data.String.Basic
import Selfevals.Lib.Effects
import Selfevals.Lib.Result
import Selfevals.Lib.Sql
import Selfevals.Schemas.Datasets
import Selfevals.Storage.Tables

/-!
# The tables of cases and datasets

What `WorkspaceScope` does on the tables of experiments, cases and datasets: `put_entity`,
`get_entity` and `list_entities`, and the query for the cases of an experiment. A listing comes
newest first; the database is free in the order of rows created at one moment, so a listing is any
list that `IsListing` accepts.
-/

namespace Selfevals.Storage.DatasetStore

open Lib.Effects Lib.Result Lib.Sql Schemas.Base Schemas.Datasets Schemas.Experiments Storage.Entity
  Storage.Tables
open Entity (base)

/-- The tables of datasets, cases and experiments. -/
structure Store (κ : Type) where
  experiments : Table Experiment := .empty
  cases : Table (EvalCase κ) := .empty
  datasets : Table Dataset := .empty

/-- What the writers and the launcher raise. -/
inductive WriteError
  | storage (e : StorageError)
  /-- The `ValidationError` of a dataset, or the `ValueError` of a frozen one. -/
  | dataset (e : Dataset.DatasetError)
  /-- `DatasetWriteError`. -/
  | datasetWrite (message : String)
  /-- `DatasetWriteError(f"unknown dataset_type {raw!r}")`. -/
  | unknownDatasetType (raw : String)
  /-- `DatasetNotFoundError`. -/
  | datasetNotFound (datasetId : String)
  /-- `SelfEvalsUserError`: the dataset of a reference is not in the workspace. -/
  | refNotFound (datasetId workspaceId : String)
  /-- `SelfEvalsUserError`: none of its cases is stored. -/
  | zeroCases (datasetId : String)
deriving DecidableEq, Repr

/-- An entity that is put. -/
inductive Put (κ : Type)
  | experiment (e : Experiment)
  | case (c : EvalCase κ)
  | dataset (d : Dataset)

variable {κ : Type}

/-- Code over the tables. -/
abbrev Scope (κ α : Type) := Scoped (Store κ) WriteError α

/-- `put_entity`, of the two tables. -/
def Store.put (s : Store κ) (workspaceId : String) : Put κ → Except StorageError (Store κ)
  | .experiment e => (s.experiments.put workspaceId e).map fun t => { s with experiments := t }
  | .case c => (s.cases.put workspaceId c).map fun t => { s with cases := t }
  | .dataset d => (s.datasets.put workspaceId d).map fun t => { s with datasets := t }

/-- `scope.put_entity`. -/
def putEntity (workspaceId : String) (entity : Put κ) : Scope κ Unit :=
  tryWrite fun s => (s.put workspaceId entity).mapError .storage

/-- `for case in cases: scope.put_entity(case)`. -/
def putCases (workspaceId : String) (cases : List (EvalCase κ)) : Scope κ Unit :=
  forEach (fun c => putEntity workspaceId (.case c)) cases

/-- `scope.get_entity`. -/
def getEntity {α : Type} [Entity α] (t : Table α) (workspaceId id : String) :
    Except StorageError α :=
  match t.find? id with
  | none => .error (.entityNotFound id workspaceId)
  | some row =>
    if (base row).workspaceId = workspaceId then .ok row
    else .error (.workspaceMismatch workspaceId (base row).workspaceId)

/-- What `scope.list_entities(EvalCase, ListFilter())` may return: the cases of the workspace,
`ORDER BY created_at DESC`. -/
def IsListing (cases : Table (EvalCase κ)) (workspaceId : String) (listed : List (EvalCase κ)) :
    Prop :=
  listed.Perm (cases.rows.filter fun c => c.workspaceId == workspaceId) ∧
    listed.Pairwise fun c c' => c'.createdAt ≤ c.createdAt

/-- The cases of a dataset among those that are listed. -/
def casesOf (dataset : Dataset) (listed : List (EvalCase κ)) : List (EvalCase κ) :=
  listed.filter fun c => c.id ∈ dataset.refIds

/-- The stored cases of a dataset: those of its workspace that it refers to. -/
def storedCases (cases : Table (EvalCase κ)) (dataset : Dataset) : List (EvalCase κ) :=
  casesOf dataset (cases.rows.filter fun c => c.workspaceId == dataset.workspaceId)

/-- `eval_cases_for_experiment`. -/
def evalCasesForExperiment (cases : Table (EvalCase κ)) (workspaceId experimentId : String) :
    List (EvalCase κ) :=
  orderBy (·.content.name) (cases.rows.filter fun c =>
    c.workspaceId == workspaceId && c.experimentId == some experimentId)

theorem getEntity_eq_ok {α : Type} [Entity α] {t : Table α} {workspaceId id : String} {row : α}
    (h : getEntity t workspaceId id = .ok row) :
    t.find? id = some row ∧ (base row).workspaceId = workspaceId := by
  unfold getEntity at h
  split at h
  · cases h
  · next row' hfind =>
    split_ifs at h with hws
    obtain rfl := Except.ok.inj h
    exact ⟨hfind, hws⟩

theorem mem_storedCases {cases : Table (EvalCase κ)} {dataset : Dataset} {c : EvalCase κ} :
    c ∈ storedCases cases dataset ↔ cases.find? c.id = some c ∧
      c.workspaceId = dataset.workspaceId ∧ c.id ∈ dataset.refIds := by
  unfold storedCases casesOf
  rw [List.mem_filter, List.mem_filter, beq_iff_eq, decide_eq_true_eq, and_assoc]
  exact and_congr_left fun _ => Table.mem_rows_iff

theorem storedCases_congr (cases : Table (EvalCase κ)) {d d' : Dataset}
    (hws : d'.workspaceId = d.workspaceId) (hrefs : d'.cases = d.cases) :
    storedCases cases d' = storedCases cases d := by
  unfold storedCases casesOf Dataset.refIds
  rw [hws, hrefs]

theorem nodup_ids_storedCases (cases : Table (EvalCase κ)) (dataset : Dataset) :
    ((storedCases cases dataset).map (·.id)).Nodup :=
  cases.ids_nodup.sublist ((List.filter_sublist.trans List.filter_sublist).map _)

theorem IsListing.casesOf_perm {cases : Table (EvalCase κ)} {dataset : Dataset}
    {listed : List (EvalCase κ)} (h : IsListing cases dataset.workspaceId listed) :
    (casesOf dataset listed).Perm (storedCases cases dataset) :=
  h.1.filter _

theorem mem_evalCasesForExperiment {cases : Table (EvalCase κ)}
    {workspaceId experimentId : String} {c : EvalCase κ} :
    c ∈ evalCasesForExperiment cases workspaceId experimentId ↔
      cases.find? c.id = some c ∧ c.workspaceId = workspaceId ∧
        c.experimentId = some experimentId := by
  unfold evalCasesForExperiment
  rw [(orderBy_perm _ _).mem_iff, List.mem_filter, Bool.and_eq_true, beq_iff_eq, beq_iff_eq]
  exact and_congr_left fun _ => Table.mem_rows_iff

/-! ### Writes -/

section Writes
variable {s t : Store κ} {workspaceId : String}

theorem putEntity_run (workspaceId : String) (entity : Put κ) (s : Store κ) :
    (putEntity workspaceId entity).run s =
      match s.put workspaceId entity with
      | .ok t => (.ok (), t)
      | .error e => (.error (.storage e), s) := by
  unfold putEntity tryWrite
  dsimp only
  cases s.put workspaceId entity <;> rfl

theorem putEntity_eq_ok {entity : Put κ} :
    (putEntity workspaceId entity).run s = (.ok (), t) ↔ s.put workspaceId entity = .ok t := by
  rw [putEntity_run]
  cases s.put workspaceId entity <;> simp

theorem put_experiment {e : Experiment} (h : s.put workspaceId (.experiment e) = .ok t) :
    t.cases = s.cases ∧ t.datasets = s.datasets := by
  obtain ⟨_, _, rfl⟩ := map_eq_ok.mp h
  exact ⟨rfl, rfl⟩

theorem put_case {c : EvalCase κ} (h : s.put workspaceId (.case c) = .ok t) :
    checkPut workspaceId (s.cases.find? c.id) c = .ok () ∧ t.datasets = s.datasets ∧
      ∀ id, t.cases.find? id =
        if id = c.id then some (upsert (s.cases.find? c.id) c) else s.cases.find? id := by
  obtain ⟨cases', hcases, rfl⟩ := map_eq_ok.mp h
  obtain ⟨hcheck, hfind⟩ := Table.put_eq_ok hcases
  exact ⟨hcheck, rfl, hfind⟩

theorem put_dataset {d : Dataset} (h : s.put workspaceId (.dataset d) = .ok t) :
    checkPut workspaceId (s.datasets.find? d.id) d = .ok () ∧ t.cases = s.cases ∧
      ∀ id, t.datasets.find? id =
        if id = d.id then some (upsert (s.datasets.find? d.id) d) else s.datasets.find? id := by
  obtain ⟨datasets', hdatasets, rfl⟩ := map_eq_ok.mp h
  obtain ⟨hcheck, hfind⟩ := Table.put_eq_ok hdatasets
  exact ⟨hcheck, rfl, hfind⟩

/-- Every case that is written meets a condition, in the store it is written to. -/
def EachPut (P : Store κ → EvalCase κ → Prop) (workspaceId : String) :
    List (EvalCase κ) → Store κ → Prop
  | [], _ => True
  | c :: cs, s => ∀ t, s.put workspaceId (.case c) = .ok t → P s c ∧ EachPut P workspaceId cs t

instance EachPut.decidable {P : Store κ → EvalCase κ → Prop} [∀ s c, Decidable (P s c)] :
    ∀ (cs : List (EvalCase κ)) (s : Store κ), Decidable (EachPut P workspaceId cs s)
  | [], _ => isTrue trivial
  | c :: cs, s =>
    match h : s.put workspaceId (.case c) with
    | .error _ => isTrue fun t ht => nomatch h.symm.trans ht
    | .ok t =>
      have : Decidable (EachPut P workspaceId cs t) := EachPut.decidable cs t
      decidable_of_iff (P s c ∧ EachPut P workspaceId cs t)
        ⟨fun hP t' ht' => by cases h.symm.trans ht'; exact hP, fun hP => hP t h⟩

/-- **The rule for writing cases**: what each write respects, the loop respects. -/
theorem rel_putCases {P : Store κ → EvalCase κ → Prop} {R : Store κ → Store κ → Prop}
    (hrefl : ∀ s, R s s) (htrans : ∀ s t u, R s t → R t u → R s u)
    (hput : ∀ s c t, P s c → s.put workspaceId (.case c) = .ok t → R s t) :
    ∀ (cs : List (EvalCase κ)) (s : Store κ), EachPut P workspaceId cs s →
      R s ((putCases workspaceId cs).run s).2
  | [], s, _ => hrefl s
  | c :: cs, s, h => by
    show R s ((putEntity workspaceId (.case c) >>= fun _ => putCases workspaceId cs).run s).2
    rw [run_bind, putEntity_run]
    cases hc : s.put workspaceId (.case c) with
    | error e => exact hrefl s
    | ok t =>
      obtain ⟨hP, hrest⟩ := h t hc
      exact htrans _ _ _ (hput s c t hP hc) (rel_putCases hrefl htrans hput cs t hrest)

theorem putCases_cons_eq_ok {c : EvalCase κ} {cs : List (EvalCase κ)} :
    (putCases workspaceId (c :: cs)).run s = (.ok (), t) ↔
      ∃ s', s.put workspaceId (.case c) = .ok s' ∧
        (putCases workspaceId cs).run s' = (.ok (), t) := by
  show (putEntity workspaceId (.case c) >>= fun _ => putCases workspaceId cs).run s = _ ↔ _
  rw [run_bind_eq_ok]
  constructor
  · rintro ⟨⟨⟩, s', hput, hrest⟩
    exact ⟨s', putEntity_eq_ok.mp hput, hrest⟩
  · rintro ⟨s', hput, hrest⟩
    exact ⟨(), s', putEntity_eq_ok.mpr hput, hrest⟩

theorem put_stored_case {c : EvalCase κ} (h : s.cases.find? c.id = some c)
    (hws : c.workspaceId = workspaceId) : s.put workspaceId (.case c) = .ok s := by
  subst hws
  have hput : s.cases.put c.workspaceId c = .ok s.cases := by
    show (Entity.putEntity (base c).workspaceId (s.cases.find? c.id) c).map s.cases.set = _
    rw [h, putEntity_of_same rfl rfl]
    exact congrArg Except.ok (Table.set_of_find? h)
  show (s.cases.put c.workspaceId c).map _ = _
  rw [hput]
  rfl

theorem putCases_append_stored {stored cs : List (EvalCase κ)}
    (h : ∀ c ∈ stored, s.cases.find? c.id = some c ∧ c.workspaceId = workspaceId) :
    (putCases workspaceId (stored ++ cs)).run s = (putCases workspaceId cs).run s := by
  induction stored with
  | nil => rfl
  | cons c stored ih =>
    obtain ⟨hfind, hws⟩ := h c List.mem_cons_self
    show (putEntity workspaceId (.case c) >>= fun _ =>
      putCases workspaceId (stored ++ cs)).run s = _
    rw [run_bind, putEntity_run, put_stored_case hfind hws]
    exact ih fun c' hc' => h c' (List.mem_cons_of_mem _ hc')

theorem stored_of_putCases {Good : EvalCase κ → Prop} {cs : List (EvalCase κ)}
    (hgood : ∀ c ∈ cs, ∀ existing, checkPut workspaceId existing c = .ok () →
      Good (upsert existing c))
    (h : (putCases workspaceId cs).run s = (.ok (), t)) {id : String}
    (hid : (∃ c ∈ cs, c.id = id) ∨ ∃ r, s.cases.find? id = some r ∧ Good r) :
    ∃ r, t.cases.find? id = some r ∧ Good r := by
  induction cs generalizing s with
  | nil =>
    obtain rfl : s = t := congrArg Prod.snd h
    obtain ⟨c, hc, -⟩ | hr := hid
    · cases hc
    · exact hr
  | cons c cs ih =>
    obtain ⟨s', hput, hrest⟩ := putCases_cons_eq_ok.mp h
    obtain ⟨hcheck, -, hfind⟩ := put_case hput
    refine ih (fun c' hc' => hgood c' (List.mem_cons_of_mem _ hc')) hrest ?_
    by_cases heq : id = c.id
    · refine Or.inr ⟨_, by rw [hfind, if_pos heq], hgood c List.mem_cons_self _ hcheck⟩
    · obtain ⟨c', hc', hid'⟩ | ⟨r, hr, hr'⟩ := hid
      · obtain rfl | hc' := List.mem_cons.mp hc'
        · exact absurd hid'.symm heq
        · exact Or.inl ⟨c', hc', hid'⟩
      · exact Or.inr ⟨r, by rw [hfind, if_neg heq, hr], hr'⟩

theorem find?_putCases {cs : List (EvalCase κ)} (hnodup : (cs.map (·.id)).Nodup)
    (h : (putCases workspaceId cs).run s = (.ok (), t)) :
    t.datasets = s.datasets ∧
      (∀ c ∈ cs, c.workspaceId = workspaceId ∧
        t.cases.find? c.id = some (upsert (s.cases.find? c.id) c)) ∧
      ∀ id, id ∉ cs.map (·.id) → t.cases.find? id = s.cases.find? id := by
  induction cs generalizing s with
  | nil =>
    obtain rfl : s = t := congrArg Prod.snd h
    exact ⟨rfl, by simp, fun _ _ => rfl⟩
  | cons c cs ih =>
    obtain ⟨s', hput, hrest⟩ := putCases_cons_eq_ok.mp h
    obtain ⟨hcheck, hdatasets, hfind⟩ := put_case hput
    obtain ⟨hnew, hnodup⟩ := List.nodup_cons.mp hnodup
    obtain ⟨hdatasets', hcases, hothers⟩ := ih hnodup hrest
    refine ⟨hdatasets'.trans hdatasets, fun c' hc' => ?_, fun id hid => ?_⟩
    · obtain rfl | hc' := List.mem_cons.mp hc'
      · refine ⟨checkPut_workspaceId hcheck, ?_⟩
        rw [hothers c'.id hnew, hfind, if_pos rfl]
      · have hne : c'.id ≠ c.id := fun heq =>
          hnew (List.mem_map.mpr ⟨c', hc', heq⟩)
        obtain ⟨hws, hstored⟩ := hcases c' hc'
        exact ⟨hws, by rw [hstored, hfind, if_neg hne]⟩
    · rw [List.map_cons, List.mem_cons, not_or] at hid
      rw [hothers id hid.2, hfind, if_neg hid.1]

theorem storedCases_putCases {cs : List (EvalCase κ)} {d : Dataset}
    (hnodup : (cs.map (·.id)).Nodup)
    (h : (putCases d.workspaceId cs).run s = (.ok (), t)) (hrefs : ∀ c ∈ cs, c.id ∈ d.refIds)
    (hall : ∀ c ∈ storedCases s.cases d, c.id ∈ cs.map (·.id)) :
    (storedCases t.cases d).Perm (cs.map fun c => upsert (s.cases.find? c.id) c) := by
  obtain ⟨-, hcases, hothers⟩ := find?_putCases hnodup h
  have hid : ∀ c : EvalCase κ, (upsert (s.cases.find? c.id) c).id = c.id := fun c =>
    base_upsert_id _ c
  have hws : ∀ c : EvalCase κ, (upsert (s.cases.find? c.id) c).workspaceId = c.workspaceId := by
    intro c
    cases s.cases.find? c.id <;> rfl
  have hids : ((cs.map fun c => upsert (s.cases.find? c.id) c).map (·.id)) = cs.map (·.id) := by
    rw [List.map_map]
    exact List.map_congr_left fun c _ => hid c
  refine (List.perm_ext_iff_of_nodup ((nodup_ids_storedCases t.cases d).of_map _)
    (List.Nodup.of_map (·.id) (hids ▸ hnodup))).mpr fun r => ?_
  rw [mem_storedCases, List.mem_map]
  constructor
  · rintro ⟨hfind, hrws, hrid⟩
    by_cases hmem : r.id ∈ cs.map (·.id)
    · obtain ⟨c, hc, hcid⟩ := List.mem_map.mp hmem
      refine ⟨c, hc, Option.some.inj ?_⟩
      rw [← (hcases c hc).2, hcid, hfind]
    · rw [hothers r.id hmem] at hfind
      exact absurd (hall r (mem_storedCases.mpr ⟨hfind, hrws, hrid⟩)) hmem
  · rintro ⟨c, hc, rfl⟩
    obtain ⟨hcws, hstored⟩ := hcases c hc
    rw [hid, hws]
    exact ⟨hstored, hcws, hrefs c hc⟩

end Writes

end Selfevals.Storage.DatasetStore
