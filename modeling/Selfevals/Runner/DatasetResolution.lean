import Selfevals.Runner.LaunchDatasets

/-!
# Resolving a referenced dataset

`_resolve_ref_dataset` filters a listing of the workspace, newest first, by the ids of the manifest.
It yields the manifest, whatever order the database gives to cases created at one moment, when every
case is stored at its version and they were created in the opposite order.
-/

namespace Selfevals.Runner.DatasetResolution

open Lib.Effects Lib.Sql Schemas.Base Schemas.Datasets Schemas.Experiments Storage.DatasetStore
  Storage.Tables Runner.LaunchDatasets
open Repo.Loader.Models (SplitAllocation)

variable {κ : Type}

/-- The entity is at the version of the reference, if it has one. -/
def AtVersion (ref : EntityRef) (version : ℕ) : Prop := ∀ v ∈ ref.version, version = v

/-- The case is the one that is referred to. -/
def Matches (ref : EntityRef) (c : EvalCase κ) : Prop := c.id = ref.id ∧ AtVersion ref c.version

/-- A resolution raises, or yields the cases of the manifest of the dataset: one for each reference,
in order and at its version. -/
def Faithful (s : Store κ) (workspaceId : String) (ref : EntityRef) :
    Except WriteError (LaunchSpec κ × Option SplitAllocation) → Prop
  | .error _ => True
  | .ok (spec, _) => ∃ d, getEntity s.datasets workspaceId ref.id = .ok d ∧
    AtVersion ref d.version ∧ List.Forall₂ Matches d.cases spec.cases

/-- The case of a workspace that a reference names, at any version. -/
def caseAt (cases : Table (EvalCase κ)) (workspaceId : String) (ref : EntityRef) :
    Option (EvalCase κ) :=
  (cases.find? ref.id).filter (·.workspaceId == workspaceId)

/-- The stored cases of a dataset, in the order of its manifest. -/
def manifestCases (cases : Table (EvalCase κ)) (d : Dataset) : List (EvalCase κ) :=
  d.cases.filterMap (caseAt cases d.workspaceId)

/-- A dataset that is there, with at least one stored case, is at the version of the reference; all
of its cases are stored at their versions; and each was created before those that come before it. -/
def InPlace (s : Store κ) (workspaceId : String) (ref : EntityRef) : Prop :=
  ∀ d, getEntity s.datasets workspaceId ref.id = .ok d → storedCases s.cases d ≠ [] →
    AtVersion ref d.version ∧ List.Forall₂ Matches d.cases (manifestCases s.cases d) ∧
      (manifestCases s.cases d).Pairwise fun c c' => c'.createdAt < c.createdAt

/-! ### The cases of a manifest -/

theorem caseAt_eq_some {cases : Table (EvalCase κ)} {workspaceId : String} {ref : EntityRef}
    {c : EvalCase κ} : caseAt cases workspaceId ref = some c ↔
      cases.find? c.id = some c ∧ c.workspaceId = workspaceId ∧ c.id = ref.id := by
  unfold caseAt
  rw [Option.filter_eq_some_iff, beq_iff_eq]
  constructor
  · rintro ⟨hfind, hws⟩
    have hid : c.id = ref.id := (Table.find?_eq_some.mp hfind).2
    exact ⟨hid ▸ hfind, hws, hid⟩
  · rintro ⟨hfind, hws, hid⟩
    exact ⟨hid ▸ hfind, hws⟩

theorem mem_manifestCases {cases : Table (EvalCase κ)} {d : Dataset} {c : EvalCase κ} :
    c ∈ manifestCases cases d ↔ c ∈ storedCases cases d := by
  unfold manifestCases
  rw [mem_storedCases, List.mem_filterMap, Dataset.refIds, List.mem_map]
  constructor
  · rintro ⟨ref, href, hc⟩
    obtain ⟨hfind, hws, hid⟩ := caseAt_eq_some.mp hc
    exact ⟨hfind, hws, ref, href, hid.symm⟩
  · rintro ⟨hfind, hws, ref, href, hid⟩
    exact ⟨ref, href, caseAt_eq_some.mpr ⟨hfind, hws, hid.symm⟩⟩

theorem nodup_ids_manifestCases (cases : Table (EvalCase κ)) (d : Dataset) :
    ((manifestCases cases d).map (·.id)).Nodup := by
  have hids : ∀ refs : List EntityRef,
      ((refs.filterMap (caseAt cases d.workspaceId)).map (·.id)).Sublist (refs.map (·.id)) := by
    intro refs
    induction refs with
    | nil => exact .slnil
    | cons ref refs ih =>
      cases hc : caseAt cases d.workspaceId ref with
      | none =>
        rw [List.filterMap_cons_none hc]
        exact ih.cons _
      | some c =>
        rw [List.filterMap_cons_some hc, List.map_cons, List.map_cons, (caseAt_eq_some.mp hc).2.2]
        exact ih.cons_cons _
  exact d.noDuplicateCases.sublist (hids d.cases)

theorem manifestCases_perm (cases : Table (EvalCase κ)) (d : Dataset) :
    (manifestCases cases d).Perm (storedCases cases d) :=
  (List.perm_ext_iff_of_nodup ((nodup_ids_manifestCases cases d).of_map _)
    ((nodup_ids_storedCases cases d).of_map _)).mpr fun _ => mem_manifestCases

theorem eq_manifestCases {cases : Table (EvalCase κ)} {d : Dataset} {found : List (EvalCase κ)}
    (hstored : ∀ c ∈ found, c ∈ storedCases cases d) (h : List.Forall₂ Matches d.cases found) :
    found = manifestCases cases d := by
  unfold manifestCases
  generalize d.cases = refs at h
  induction h with
  | nil => rfl
  | @cons ref c refs found hmatch _ ih =>
    obtain ⟨hfind, hws, -⟩ := mem_storedCases.mp (hstored c List.mem_cons_self)
    have hc : caseAt cases d.workspaceId ref = some c :=
      caseAt_eq_some.mpr ⟨hfind, hws, hmatch.1⟩
    rw [List.filterMap_cons_some hc, ← ih fun c' hc' => hstored c' (List.mem_cons_of_mem _ hc')]

/-- **The filter of every listing** gives the cases of the manifest if and only if each was created
before those that come before it. -/
theorem casesOf_eq_iff (cases : Table (EvalCase κ)) (d : Dataset) :
    (∀ listed, IsListing cases d.workspaceId listed →
      casesOf d listed = manifestCases cases d) ↔
      (manifestCases cases d).Pairwise fun c c' => c'.createdAt < c.createdAt := by
  have hnodup : (cases.rows.filter fun c => c.workspaceId == d.workspaceId).Nodup :=
    (List.Nodup.of_map _ cases.ids_nodup).filter _
  let newest : EvalCase κ → Timeᵒᵈ := fun c => OrderDual.toDual c.createdAt
  have hiff : (∀ listed, IsOrdering newest
        (cases.rows.filter fun c => c.workspaceId == d.workspaceId) listed →
      listed.filter (fun c => c.id ∈ d.refIds) = manifestCases cases d) ↔ _ :=
    filter_ordering_eq_iff hnodup
  exact hiff.trans (and_iff_right (manifestCases_perm cases d))

/-! ### Resolution -/

theorem faithful_iff {s : Store κ} {spec : LaunchSpec κ} {ref : EntityRef} {d : Dataset}
    (hget : getEntity s.datasets spec.workspaceId ref.id = .ok d) {listed : List (EvalCase κ)}
    (hlisted : IsListing s.cases d.workspaceId listed) :
    Faithful s spec.workspaceId ref ((resolveRefDataset listed spec ref).run s).1 ↔
      (storedCases s.cases d ≠ [] →
        AtVersion ref d.version ∧ List.Forall₂ Matches d.cases (casesOf d listed)) := by
  have hempty : (casesOf d listed).isEmpty = true ↔ storedCases s.cases d = [] := by
    have hperm := hlisted.casesOf_perm
    rw [List.isEmpty_iff]
    exact ⟨fun h => (h ▸ hperm).symm.eq_nil, fun h => (h ▸ hperm).eq_nil⟩
  rw [run_resolveRefDataset, hget]
  dsimp only
  split_ifs with h
  · exact ⟨fun _ hne => absurd (hempty.mp h) hne, fun _ => trivial⟩
  · constructor
    · rintro ⟨d', hd', hversion, hcases⟩ -
      obtain rfl := Except.ok.inj (hget.symm.trans hd')
      exact ⟨hversion, hcases⟩
    · intro hall
      obtain ⟨hversion, hcases⟩ := hall (mt hempty.mpr h)
      exact ⟨d, hget, hversion, hcases⟩

/-- **A resolution is faithful**, for every order the database may list the cases in, if and only if
the dataset is in place. -/
theorem resolveRefDataset_faithful_iff (s : Store κ) (spec : LaunchSpec κ) (ref : EntityRef) :
    (∀ listed, IsListing s.cases spec.workspaceId listed →
      Faithful s spec.workspaceId ref ((resolveRefDataset listed spec ref).run s).1) ↔
      InPlace s spec.workspaceId ref := by
  cases hget : getEntity s.datasets spec.workspaceId ref.id with
  | error e =>
    refine ⟨fun _ d hd => (nomatch hget.symm.trans hd), fun _ listed _ => ?_⟩
    rw [run_resolveRefDataset, hget]
    trivial
  | ok d =>
    have hws : d.workspaceId = spec.workspaceId := (getEntity_eq_ok hget).2
    rw [← hws]
    have hone : ∀ listed, IsListing s.cases d.workspaceId listed →
        (Faithful s spec.workspaceId ref ((resolveRefDataset listed spec ref).run s).1 ↔
          (storedCases s.cases d ≠ [] →
            AtVersion ref d.version ∧ List.Forall₂ Matches d.cases (casesOf d listed))) :=
      fun _ hlisted => faithful_iff hget hlisted
    rw [← hws] at hone hget
    constructor
    · intro h d' hd' hne
      obtain rfl := Except.ok.inj (hget.symm.trans hd')
      have hcases : ∀ listed, IsListing s.cases d.workspaceId listed →
          casesOf d listed = manifestCases s.cases d := fun listed hlisted =>
        eq_manifestCases (fun c hc => (hlisted.casesOf_perm).mem_iff.mp hc)
          ((hone listed hlisted).mp (h listed hlisted) hne).2
      have hlisting : IsListing s.cases d.workspaceId _ :=
        isOrdering_orderBy (fun c : EvalCase κ => OrderDual.toDual c.createdAt) (List.Perm.refl _)
      obtain ⟨hversion, hmatch⟩ := (hone _ hlisting).mp (h _ hlisting) hne
      rw [hcases _ hlisting] at hmatch
      exact ⟨hversion, hmatch, (casesOf_eq_iff s.cases d).mp hcases⟩
    · intro h listed hlisted
      refine (hone listed hlisted).mpr fun hne => ?_
      obtain ⟨hversion, hmatch, hlt⟩ := h d hget hne
      rw [(casesOf_eq_iff s.cases d).mpr hlt listed hlisted]
      exact ⟨hversion, hmatch⟩

/-! ### A dataset with a case missing -/

def lateRefund : EvalCase Unit where
  id := "ec_2"
  workspaceId := "ws_1"
  createdAt := 1
  updatedAt := 1
  content := {
    name := "late refund"
    taxonomy := {
      level := .finalResponse
      featurePrimary := "refunds"
      sourceType := .handcrafted
      datasetType := .regression }
    rest := () }

/-- A dataset of two cases. -/
def refunds : Dataset where
  id := "ds_1"
  workspaceId := "ws_1"
  createdAt := 1
  updatedAt := 1
  name := "refunds"
  datasetType := .regression
  cases := [⟨"ec_1", some 1⟩, ⟨"ec_2", some 1⟩]
  splitAllocation := Repo.Datasets.defaultSplit
  manifestHash := some "sha256:1"
  status := .active
  noDuplicateCases := by decide
  requiresManifestHash := fun _ => ⟨_, rfl, by decide⟩

/-- A store that has the second of them only. -/
def halfStored : Store Unit where
  cases := ⟨[lateRefund], by decide⟩
  datasets := ⟨[refunds], by decide⟩

def overRefunds : LaunchSpec Unit where
  workspaceId := "ws_1"
  experiment := Experiment.minimal
  cases := []
  datasetSource := .ref ⟨⟨"ds_1", none⟩⟩

theorem resolves_to_subset : ∃ listed spec split, IsListing halfStored.cases "ws_1" listed ∧
    ((resolveRefDataset listed overRefunds ⟨"ds_1", none⟩).run halfStored).1 = .ok (spec, split) ∧
      spec.cases = [lateRefund] ∧ refunds.cases.length = 2 ∧
      ¬ Faithful halfStored "ws_1" ⟨"ds_1", none⟩ (.ok (spec, split)) := by
  refine ⟨[lateRefund], _, _, ⟨List.Perm.refl _, List.pairwise_singleton _ _⟩, rfl, rfl, rfl, ?_⟩
  rintro ⟨d, hd, -, hcases⟩
  obtain rfl : refunds = d := Except.ok.inj hd
  exact absurd hcases.length_eq (by decide)

end Selfevals.Runner.DatasetResolution
