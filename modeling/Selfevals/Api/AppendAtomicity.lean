import Selfevals.Api.FrozenDatasets

/-!
# What an append to a dataset leaves behind

`append_case_to_dataset` writes the case, and then the dataset over it; the connection commits each
statement on its own. A case that the dataset has already is refused only after it was written, and
a case has one row for all the datasets that refer to it.

* `run_of_duplicate`, `run_of_appended`: what a call does whose case is written.
-/

namespace Selfevals.Api.AppendAtomicity

open Lib.Effects Lib.JsonValue Lib.Result Lib.Run Schemas.Base Schemas.Datasets Storage.DatasetStore
  Storage.Entity Storage.Tables Repo.Datasets Api.DatasetWriter Api.DatasetSystem Api.FrozenDatasets

variable {κ : Type}

/-- A dataset that an append to `datasetId` is not to extend: any other, and a frozen one. -/
def Bystander (datasetId : String) (o : Dataset) : Prop := o.id ≠ datasetId ∨ o.status = .frozen

/-- The cases that bystanders refer to say in `t` what they say in `s`. -/
def SharedKept (datasetId : String) (s t : Store κ) : Prop :=
  ∀ o ∈ s.datasets.rows, Bystander datasetId o → ∀ ref ∈ o.cases, ∀ dump ∈ dumpAt s ref.id,
    dumpAt t ref.id = some dump

/-- A call that raises leaves the store as it was, and no call touches the cases of bystanders. -/
structure Atomic (datasetId : String) (s : Store κ) (out : Except WriteError Bool × Store κ) :
    Prop where
  undone : ∀ e, out.1 = .error e → out.2 = s
  shared : SharedKept datasetId s out.2

/-- A case in the place of the row under its id: the row itself where the dataset refers to it, and
the same content where a bystander does. -/
structure Sparing (datasetId : String) (s : Store κ) (d : Dataset) (c row : EvalCase κ) : Prop where
  own : c.id ∈ d.refIds → upsert (some row) c = row
  shared : ∀ o ∈ s.datasets.rows, Bystander datasetId o → c.id ∈ o.refIds →
    (upsert (some row) c).modelDumpCanonical = row.modelDumpCanonical

/-- Where the call gets to write its case, the case spares the row that it replaces. -/
def SparesStored (models : Models κ) (workspaceId datasetId : String) (stamp : Stamp)
    (caseData : Object) (createVersionIfFrozen : Bool) (s : Store κ) :
    Prop :=
  ∀ d existing c,
    appendInput models workspaceId datasetId stamp caseData createVersionIfFrozen s =
      .ok (d, existing, c) →
    checkPut workspaceId (s.cases.find? c.id) c = .ok () →
    ∀ row ∈ s.cases.find? c.id, Sparing datasetId s d c row

/-! ### What a call reads -/

theorem nodup_refIds_append (d : Dataset) (id : String) :
    (d.refIds ++ [id]).Nodup ↔ id ∉ d.refIds := by
  rw [← List.concat_eq_append, List.nodup_concat]
  exact and_iff_left d.noDuplicateCases

section Extended
variable {d : Dataset} {c : EvalCase κ}

theorem extended_of_duplicate (digest : Payload κ → String) (existing : List (EvalCase κ))
    (hfrozen : d.status ≠ .frozen) (hdup : c.id ∈ d.refIds) :
    extended digest existing c d = .error (.dataset .duplicateCases) := by
  have hset : d.setCases (d.cases ++ [caseRef c]) = .error .duplicateCases := by
    unfold Dataset.setCases
    rw [if_neg fun h => hfrozen h.1, dif_neg]
    rw [List.map_append]
    exact fun h => (nodup_refIds_append d c.id).mp h hdup
  unfold extended
  rw [hset]
  rfl

theorem extended_of_new (digest : Payload κ → String) (existing : List (EvalCase κ))
    (hfrozen : d.status ≠ .frozen) (hfresh : c.id ∉ d.refIds) :
    ∃ d', extended digest existing c d = .ok d' ∧ d'.toBaseEntity = d.toBaseEntity := by
  have hset : ∃ d', d.setCases (d.cases ++ [caseRef c]) = .ok d' ∧
      d'.toBaseEntity = d.toBaseEntity := by
    unfold Dataset.setCases
    rw [if_neg fun h => hfrozen h.1]
    refine ⟨_, dif_pos ?_, rfl⟩
    rw [List.map_append]
    exact (nodup_refIds_append d c.id).mpr hfresh
  obtain ⟨d₁, hd₁, hbase⟩ := hset
  refine ⟨rehash digest (existing ++ [c]) d₁, ?_, hbase⟩
  unfold extended
  rw [hd₁]
  rfl

end Extended

theorem Input.exists_row {workspaceId datasetId : String} {s : Store κ} {d : Dataset}
    {existing : List (EvalCase κ)} {c : EvalCase κ}
    (h : Input workspaceId datasetId s d existing c) (hid : c.id ∈ d.refIds) :
    ∃ row, s.cases.find? c.id = some row := by
  rw [← h.ids] at hid
  obtain ⟨row, hrow, hrowid⟩ := List.mem_map.mp hid
  exact ⟨row, hrowid ▸ (h.stored row hrow).1⟩

/-! ### What a call does -/

section Call
variable {digest : Payload κ → String} {models : Models κ} {workspaceId datasetId : String}
variable {minted : Minted} {caseData : Object}
variable {createVersionIfFrozen : Bool} {s t : Store κ} {d : Dataset} {existing : List (EvalCase κ)}
variable {c : EvalCase κ}

theorem run_putCases_one (workspaceId : String) (c : EvalCase κ) (s : Store κ) :
    (putCases workspaceId [c]).run s = (putEntity workspaceId (.case c)).run s := by
  show (putEntity workspaceId (.case c) >>= fun _ => putCases workspaceId []).run s = _
  rw [run_bind]
  split
  · next heq => rw [heq]; rfl
  · next heq => rw [heq]

theorem run_of_input
    (hinput : appendInput models workspaceId datasetId (minted.stamps 0) caseData
      createVersionIfFrozen s = .ok (d, existing, c)) :
    (appendCaseToDataset digest models workspaceId datasetId minted caseData
      createVersionIfFrozen).run s =
      match s.put workspaceId (.case c) with
      | .error e => (.error (.storage e), s)
      | .ok t =>
        if d.status = .frozen then
          match buildDataset digest workspaceId (successorArgs minted d) (existing ++ [c]) with
          | .error e => (.error (.dataset e), t)
          | .ok d' => ((putEntity workspaceId (.dataset d') >>= fun _ => pure true).run t)
        else
          match extended digest existing c d with
          | .error e => (.error e, t)
          | .ok d' => ((putEntity workspaceId (.dataset d') >>= fun _ => pure false).run t) := by
  have hstored := (input_of_appendInput hinput).stored
  unfold appendCaseToDataset
  rw [run_tryQuery_bind, hinput]
  dsimp only
  by_cases hfrozen : d.status = .frozen
  · rw [if_pos hfrozen]
    unfold persistDataset
    rw [run_bind, run_bind, putCases_append_stored hstored, run_putCases_one, putEntity_run]
    cases hput : s.put workspaceId (.case c) with
    | error e => rfl
    | ok t =>
      dsimp only
      rw [if_pos hfrozen, run_tryQuery_bind]
      cases hbuild : buildDataset digest workspaceId (successorArgs minted d) (existing ++ [c]) with
      | error e => rfl
      | ok d' =>
        dsimp only [Except.mapError]
        rw [run_bind, run_bind, putEntity_run]
        cases hd : t.put workspaceId (.dataset d') <;> rfl
  · rw [if_neg hfrozen, run_bind, putEntity_run]
    cases hput : s.put workspaceId (.case c) with
    | error e => rfl
    | ok t =>
      dsimp only
      rw [if_neg hfrozen, run_tryQuery_bind]
      cases extended digest existing c d <;> rfl

theorem run_putDataset {d' : Dataset} {datasets' : Table Dataset} {b : Bool}
    (h : t.datasets.put workspaceId d' = .ok datasets') :
    (putEntity workspaceId (.dataset d') >>= fun _ => pure b).run t =
      (.ok b, { t with datasets := datasets' }) := by
  have hput : t.put workspaceId (.dataset d') = .ok { t with datasets := datasets' } := by
    show (t.datasets.put workspaceId d').map _ = _
    rw [h]
    rfl
  rw [run_bind, putEntity_run, hput]
  rfl

theorem run_of_duplicate
    (hinput : appendInput models workspaceId datasetId (minted.stamps 0) caseData
      createVersionIfFrozen s = .ok (d, existing, c))
    (hput : s.put workspaceId (.case c) = .ok t) (hdup : c.id ∈ d.refIds) :
    (appendCaseToDataset digest models workspaceId datasetId minted caseData
      createVersionIfFrozen).run s = (.error (.dataset .duplicateCases), t) := by
  have hnot : ¬ (d.refIds ++ [c.id]).Nodup := fun h => (nodup_refIds_append d c.id).mp h hdup
  rw [run_of_input hinput, hput]
  dsimp only
  split_ifs with hfrozen
  · have hbuild : buildDataset digest workspaceId (successorArgs minted d) (existing ++ [c]) =
        .error .duplicateCases := by
      refine dif_neg fun h => hnot ?_
      rw [List.map_map, List.map_append] at h
      rw [← (input_of_appendInput hinput).ids]
      exact h
    rw [hbuild]
  · rw [extended_of_duplicate digest existing hfrozen hdup]

theorem run_of_appended (hnew : s.datasets.find? minted.datasetId = none)
    (hinput : appendInput models workspaceId datasetId (minted.stamps 0) caseData
      createVersionIfFrozen s = .ok (d, existing, c))
    (hput : s.put workspaceId (.case c) = .ok t) (hfresh : c.id ∉ d.refIds) :
    ∃ created u, (appendCaseToDataset digest models workspaceId datasetId minted caseData
      createVersionIfFrozen).run s = (.ok created, u) ∧ u.cases = t.cases := by
  have hin := input_of_appendInput hinput
  obtain ⟨-, hdatasets, -⟩ := put_case hput
  have hnodup : (d.refIds ++ [c.id]).Nodup := (nodup_refIds_append d c.id).mpr hfresh
  rw [run_of_input hinput, hput]
  dsimp only
  split_ifs with hfrozen
  · have hnodup' : (((existing ++ [c]).map caseRef).map (·.id)).Nodup := by
      rw [List.map_map, List.map_append]
      rw [← hin.ids] at hnodup
      exact hnodup
    obtain ⟨d', hbuild⟩ : ∃ d', buildDataset digest workspaceId (successorArgs minted d)
        (existing ++ [c]) = .ok d' := ⟨_, dif_pos hnodup'⟩
    obtain ⟨-, hid, hws, -⟩ := buildDataset_eq_ok digest hbuild
    have hnone : t.datasets.find? d'.id = none := by
      rw [hdatasets, hid]
      exact hnew
    obtain ⟨datasets', htable, -⟩ := Table.put_of_new hnone hws
    refine ⟨true, { t with datasets := datasets' }, ?_, rfl⟩
    rw [hbuild]
    exact run_putDataset htable
  · obtain ⟨d', hext, hbase⟩ := extended_of_new digest existing hfrozen hfresh
    have hrow : d ∈ t.datasets.rows := by
      rw [hdatasets]
      exact (Table.find?_eq_some.mp hin.found).1
    have hcreated : { d' with createdAt := d.createdAt } = d' := by
      rw [← congrArg BaseEntity.createdAt hbase]
    obtain ⟨datasets', htable, -⟩ := Table.put_over hrow hbase hin.workspace hcreated
    refine ⟨false, { t with datasets := datasets' }, ?_, rfl⟩
    rw [hext]
    exact run_putDataset htable

end Call

/-! ### What stays -/

section Stay
variable {datasetId workspaceId : String} {s t : Store κ} {c : EvalCase κ}

theorem put_case_eq_iff {row : EvalCase κ} (hput : s.put workspaceId (.case c) = .ok t)
    (hrow : s.cases.find? c.id = some row) : t = s ↔ upsert (some row) c = row := by
  obtain ⟨-, -, hfind⟩ := put_case hput
  constructor
  · rintro rfl
    have hself := hfind c.id
    rw [if_pos rfl, hrow] at hself
    exact (Option.some.inj hself).symm
  · intro hsame
    obtain ⟨cases', htable, rfl⟩ := map_eq_ok.mp hput
    unfold Table.put at htable
    obtain ⟨row', hrow', rfl⟩ := map_eq_ok.mp htable
    obtain ⟨-, rfl⟩ := Storage.Entity.putEntity_eq_ok hrow'
    have hold : s.cases.find? (Entity.base c).id = some row := hrow
    have hrowid : (Entity.base row).id = c.id := (Table.find?_eq_some.mp hrow).2
    rw [hold, hsame, Table.set_of_find?]
    rw [hrowid]
    exact hrow

theorem checkPut_of_put_error {e : StorageError} (hput : s.put workspaceId (.case c) = .error e) :
    checkPut workspaceId (s.cases.find? c.id) c ≠ .ok () := by
  intro hcheck
  have htable : s.cases.put workspaceId c =
      .ok (s.cases.set (upsert (s.cases.find? c.id) c)) := by
    show (Storage.Entity.putEntity workspaceId (s.cases.find? c.id) c).map _ = _
    unfold Storage.Entity.putEntity
    rw [hcheck]
    rfl
  have hok : s.put workspaceId (.case c) =
      .ok { s with cases := s.cases.set (upsert (s.cases.find? c.id) c) } := by
    show (s.cases.put workspaceId c).map _ = _
    rw [htable]
    rfl
  rw [hok] at hput
  cases hput

theorem sharedKept_iff {u : Store κ} (hput : s.put workspaceId (.case c) = .ok t)
    (hu : u.cases = t.cases) :
    SharedKept datasetId s u ↔ ∀ row ∈ s.cases.find? c.id, ∀ o ∈ s.datasets.rows,
      Bystander datasetId o → c.id ∈ o.refIds →
        (upsert (some row) c).modelDumpCanonical = row.modelDumpCanonical := by
  obtain ⟨-, -, hfind⟩ := put_case hput
  have hdump : ∀ id, dumpAt u id =
      if id = c.id then some (upsert (s.cases.find? c.id) c).modelDumpCanonical
      else dumpAt s id := by
    intro id
    unfold dumpAt
    rw [hu, hfind]
    split_ifs <;> rfl
  constructor
  · intro h row hrow o ho hby hid
    obtain ⟨ref, href, hrid⟩ := List.mem_map.mp hid
    have hkept := h o ho hby ref href row.modelDumpCanonical (by
      unfold dumpAt
      rw [hrid, Option.mem_def.mp hrow]
      rfl)
    rw [hdump, if_pos hrid, Option.mem_def.mp hrow] at hkept
    exact Option.some.inj hkept
  · intro h o ho hby ref href dump hmem
    rw [hdump]
    split_ifs with hid
    · obtain ⟨row, hrow, rfl⟩ := Option.map_eq_some_iff.mp (Option.mem_def.mp hmem)
      rw [hid] at hrow
      rw [hrow]
      exact congrArg some (h row hrow o ho hby (hid ▸ List.mem_map_of_mem href))
    · exact hmem

theorem sharedKept_refl (datasetId : String) (s : Store κ) : SharedKept datasetId s s :=
  fun _ _ _ _ _ _ h => h

end Stay

section Atomicity
variable {digest : Payload κ → String} {models : Models κ} {workspaceId datasetId : String}
variable {minted : Minted} {caseData : Object} {createVersionIfFrozen : Bool} {s : Store κ}

/-- **A call is atomic**, and leaves the cases of the other datasets alone, exactly when the case
that it gets to write spares the row under its id. -/
theorem append_atomic_iff (hnew : s.datasets.find? minted.datasetId = none) :
    Atomic datasetId s ((appendCaseToDataset digest models workspaceId datasetId minted caseData
        createVersionIfFrozen).run s) ↔
      SparesStored models workspaceId datasetId (minted.stamps 0) caseData createVersionIfFrozen
        s := by
  cases hinput : appendInput models workspaceId datasetId (minted.stamps 0) caseData
    createVersionIfFrozen s with
  | error e =>
    have hrun : (appendCaseToDataset digest models workspaceId datasetId minted caseData
        createVersionIfFrozen).run s = (.error e, s) := by
      unfold appendCaseToDataset
      rw [run_tryQuery_bind, hinput]
    rw [hrun]
    constructor
    · intro _ d existing c h
      rw [hinput] at h
      cases h
    · exact fun _ => ⟨fun _ _ => rfl, sharedKept_refl datasetId s⟩
  | ok input =>
    obtain ⟨d, existing, c⟩ := input
    have hspares : SparesStored models workspaceId datasetId (minted.stamps 0) caseData
        createVersionIfFrozen s ↔ (checkPut workspaceId (s.cases.find? c.id) c = .ok () →
          ∀ row ∈ s.cases.find? c.id, Sparing datasetId s d c row) := by
      constructor
      · exact fun h => h d existing c hinput
      · intro h d' existing' c' hinput'
        obtain ⟨rfl, heq⟩ := Prod.mk.inj (Except.ok.inj (hinput.symm.trans hinput'))
        obtain ⟨rfl, rfl⟩ := Prod.mk.inj heq
        exact h
    rw [hspares]
    cases hput : s.put workspaceId (.case c) with
    | error e =>
      have hrun : (appendCaseToDataset digest models workspaceId datasetId minted caseData
          createVersionIfFrozen).run s = (.error (.storage e), s) := by
        rw [run_of_input hinput, hput]
      rw [hrun]
      exact iff_of_true ⟨fun _ _ => rfl, sharedKept_refl datasetId s⟩
        fun hcheck => absurd hcheck (checkPut_of_put_error hput)
    | ok t =>
      obtain ⟨hcheck, -⟩ := put_case hput
      rw [forall_prop_of_true hcheck]
      by_cases hid : c.id ∈ d.refIds
      · -- refused after the write: the dataset has a stored case under the id
        obtain ⟨row, hrow⟩ := Input.exists_row (input_of_appendInput hinput) hid
        rw [run_of_duplicate hinput hput hid]
        constructor
        · intro h row' hrow'
          refine ⟨fun _ => (put_case_eq_iff hput hrow').mp (h.undone _ rfl), ?_⟩
          exact (sharedKept_iff hput rfl).mp h.shared row' hrow'
        · intro h
          refine ⟨fun _ _ => (put_case_eq_iff hput hrow).mpr ((h row hrow).own hid), ?_⟩
          exact (sharedKept_iff hput rfl).mpr fun row' hrow' => (h row' hrow').shared
      · have happended := @run_of_appended _ digest _ _ _ _ _ _ _ _ _ _ _ hnew hinput hput hid
        obtain ⟨created, u, hrun, hu⟩ := happended
        rw [hrun]
        constructor
        · intro h row hrow
          exact ⟨fun hmem => absurd hmem hid, (sharedKept_iff hput hu).mp h.shared row hrow⟩
        · intro h
          refine ⟨fun e he => (nomatch he), ?_⟩
          exact (sharedKept_iff hput hu).mpr fun row hrow => (h row hrow).shared

/-- A refund dataset is created and frozen, and another is created over its case. -/
def sharing : List (Op Unit) :=
  createFrozen ++ [createRegression "ds_2" 1 [namedRow "ec_1" "late refund"]]

theorem append_atomic_new : ∃ w,
    exec (step (fun _ => "") namedModels) {} sharing = some w ∧
      (Atomic "ds_2" w.store ((appendCaseToDataset (fun _ => "") namedModels "ws_1" "ds_2"
          (mintedAt "ds_3" 2) [("id", .str "ec_2"), ("name", .str "no refund")] true).run w.store) ↔
        SparesStored namedModels "ws_1" "ds_2" ((mintedAt "ds_3" 2).stamps 0)
          [("id", .str "ec_2"), ("name", .str "no refund")] true w.store) :=
  ⟨_, rfl, append_atomic_iff rfl⟩

/-- The other dataset is given its case again, under another name: the call raises, and the case of
the frozen dataset has the new name. -/
theorem not_append_atomic : ∃ w,
    exec (step (fun _ => "") namedModels) {} sharing = some w ∧
      ¬ Atomic "ds_2" w.store ((appendCaseToDataset (fun _ => "") namedModels "ws_1" "ds_2"
        (mintedAt "ds_3" 2) [("id", .str "ec_1"),
          ("name", .str "no refund")] true).run w.store) := by
  refine ⟨_, rfl, fun h => ?_⟩
  have hcases := congrArg (fun s => dumpAt s "ec_1") (h.undone (.dataset .duplicateCases) rfl)
  exact absurd hcases (by decide +kernel)

end Atomicity

end Selfevals.Api.AppendAtomicity
