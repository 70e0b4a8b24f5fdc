import Selfevals.Api.DatasetSystem

/-!
# Frozen regression datasets

`Dataset.__setattr__` guards a frozen regression dataset in memory; in the store it stays as it is
when no operation writes over one of its cases, and none replaces it by the dataset of an inline
launch.

* `untouched_of_harmless`: an operation other than a freeze leaves the frozen datasets and their
  cases.
-/

namespace Selfevals.Api.FrozenDatasets

open Lib.Effects Lib.Run Schemas.Base Schemas.Datasets Storage.DatasetStore Storage.Entity
  Storage.Tables Repo.Datasets Runner.LaunchDatasets Api.DatasetWriter Api.DatasetSystem

variable {κ : Type}

/-- The content stored under the id of a case. -/
def dumpAt (s : Store κ) (id : String) : Option (CaseDump κ) :=
  (s.cases.find? id).map (·.modelDumpCanonical)

/-- The frozen regression datasets of `s` are in `s'`, with their references, their hash and the
content of their cases. -/
def Immutable (s s' : Store κ) : Prop :=
  ∀ id d, s.datasets.find? id = some d → d.FrozenRegression →
    ∃ d', s'.datasets.find? id = some d' ∧ d'.FrozenRegression ∧ d'.cases = d.cases ∧
      d'.manifestHash = d.manifestHash ∧ ∀ ref ∈ d.cases, dumpAt s' ref.id = dumpAt s ref.id

/-- The case is in no frozen regression dataset, or says what is stored of it already. -/
def Spares (s : Store κ) (c : EvalCase κ) : Prop :=
  ∀ id d, s.datasets.find? id = some d → d.FrozenRegression → c.id ∈ d.refIds →
    some (upsert (s.cases.find? c.id) c).modelDumpCanonical = dumpAt s c.id

instance [DecidableEq κ] (s : Store κ) (c : EvalCase κ) : Decidable (Spares s c) :=
  decidable_of_iff _ Table.forall_rows_iff

/-- No dataset of an inline launch takes the place of a frozen regression dataset. -/
def SparesDatasets (s : Store κ) : Op κ → Prop
  | .launch _ _ spec =>
    match spec.datasetSource with
    | .inline _ => spec.cases = [] ∨ ∀ d ∈ s.datasets.find? (inlineDatasetId spec.experiment.id),
      d.workspaceId = spec.workspaceId → ¬ d.FrozenRegression
    | .ref _ => True
  | _ => True

instance (s : Store κ) : (op : Op κ) → Decidable (SparesDatasets s op)
  | .launch _ _ spec => by
    unfold SparesDatasets
    dsimp only
    split
    · exact instDecidableOr
    · exact isTrue trivial
  | .create _ _ _ | .append _ _ _ _ _ | .freeze _ _ _ => isTrue trivial

/-- The operation writes no case of a frozen regression dataset but as it is stored, and no dataset
of an inline launch over one. -/
def Harmless (models : Models κ) (w : World κ) (op : Op κ) : Prop :=
  op.EachCase models Spares w.store ∧ SparesDatasets w.store op

instance [DecidableEq κ] (models : Models κ) (w : World κ) (op : Op κ) :
    Decidable (Harmless models w op) := by
  unfold Harmless
  infer_instance

/-! ### Writes -/

/-- The frozen regression datasets are the same, and so is the content of their cases. -/
structure Untouched (s t : Store κ) : Prop where
  datasets : ∀ id d, d.FrozenRegression →
    (t.datasets.find? id = some d ↔ s.datasets.find? id = some d)
  dumps : ∀ id d, s.datasets.find? id = some d → d.FrozenRegression →
    ∀ ref ∈ d.cases, dumpAt t ref.id = dumpAt s ref.id

theorem Untouched.immutable {s t : Store κ} (h : Untouched s t) : Immutable s t :=
  fun id d hd hfrozen =>
    ⟨d, (h.datasets id d hfrozen).mpr hd, hfrozen, rfl, rfl, h.dumps id d hd hfrozen⟩

theorem untouched_put_case {s t : Store κ} {workspaceId : String} {c : EvalCase κ}
    (h : Spares s c) (hput : s.put workspaceId (.case c) = .ok t) : Untouched s t := by
  obtain ⟨-, hdatasets, hfind⟩ := put_case hput
  refine ⟨fun id d _ => by rw [hdatasets], fun id d hd hfrozen ref href => ?_⟩
  show (t.cases.find? ref.id).map _ = _
  rw [hfind]
  split_ifs with hid
  · rw [hid]
    exact h id d hd hfrozen (hid ▸ List.mem_map_of_mem href)
  · rfl

theorem untouched_respects : Respects (κ := κ) Spares Untouched where
  refl _ := ⟨fun _ _ _ => Iff.rfl, fun _ _ _ _ _ _ => rfl⟩
  trans s t u hst htu := by
    refine ⟨fun id d hd => (htu.datasets id d hd).trans (hst.datasets id d hd),
      fun id d hd hfrozen ref href => ?_⟩
    rw [htu.dumps id d ((hst.datasets id d hfrozen).mpr hd) hfrozen ref href]
    exact hst.dumps id d hd hfrozen ref href
  experiment hput := by
    obtain ⟨hcases, hdatasets⟩ := put_experiment hput
    refine ⟨fun id d _ => by rw [hdatasets], fun id d _ _ ref _ => ?_⟩
    unfold dumpAt
    rw [hcases]
  case := untouched_put_case

theorem Immutable.refl (s : Store κ) : Immutable s s := (untouched_respects.refl s).immutable

theorem Immutable.trans {s t u : Store κ} (hst : Immutable s t) (htu : Immutable t u) :
    Immutable s u := by
  intro id d hd hfrozen
  obtain ⟨d', hd', hfrozen', hrefs, hhash, hdumps⟩ := hst id d hd hfrozen
  obtain ⟨d'', hd'', hfrozen'', hrefs', hhash', hdumps'⟩ := htu id d' hd' hfrozen'
  refine ⟨d'', hd'', hfrozen'', hrefs'.trans hrefs, hhash'.trans hhash, fun ref href => ?_⟩
  rw [hdumps' ref (hrefs ▸ href), hdumps ref href]

theorem untouched_put_dataset {s t : Store κ} {workspaceId : String} {d : Dataset}
    (hold : ∀ d', s.datasets.find? d.id = some d' → d'.workspaceId = workspaceId →
      ¬ d'.FrozenRegression)
    (hstatus : d.status ≠ .frozen) (hput : s.put workspaceId (.dataset d) = .ok t) :
    Untouched s t := by
  obtain ⟨hcheck, hcases, hfind⟩ := put_dataset hput
  refine ⟨fun id d' hfrozen => ?_, fun id d' _ _ ref _ => by unfold dumpAt; rw [hcases]⟩
  rw [hfind]
  split_ifs with hid
  · subst hid
    constructor
    · intro h
      obtain rfl := Option.some.inj h
      refine absurd hfrozen.1 ?_
      cases s.datasets.find? d.id <;> exact hstatus
    · intro h
      rw [h] at hcheck
      exact absurd hfrozen (hold d' h (checkPut_eq_ok hcheck).2)
  · exact Iff.rfl

/-! ### The hash of a frozen dataset -/

section Hash
variable (digest : Payload κ → String)

/-- A frozen regression dataset has the hash of its stored cases. -/
def Consistent (s : Store κ) : Prop :=
  ∀ id d, s.datasets.find? id = some d → d.FrozenRegression → storedCases s.cases d ≠ [] →
    d.manifestHash = some (computeManifestHash digest (storedCases s.cases d))

theorem mem_storedDumps {s : Store κ} {d : Dataset} {dump : CaseDump κ} :
    dump ∈ (storedCases s.cases d).map (·.modelDumpCanonical) ↔
      dumpAt s dump.id = some dump ∧ dump.workspaceId = d.workspaceId ∧ dump.id ∈ d.refIds := by
  rw [List.mem_map]
  constructor
  · rintro ⟨c, hc, rfl⟩
    obtain ⟨hfind, hws, hid⟩ := mem_storedCases.mp hc
    refine ⟨?_, hws, hid⟩
    show (s.cases.find? c.id).map _ = _
    rw [hfind]
    rfl
  · rintro ⟨hdump, hws, hid⟩
    obtain ⟨c, hfind, rfl⟩ := Option.map_eq_some_iff.mp hdump
    have hcid : c.id = c.modelDumpCanonical.id := rfl
    exact ⟨c, mem_storedCases.mpr ⟨hfind, hws, hid⟩, rfl⟩

theorem storedDumps_perm {s t : Store κ} {d : Dataset}
    (h : ∀ ref ∈ d.cases, dumpAt t ref.id = dumpAt s ref.id) :
    ((storedCases t.cases d).map (·.modelDumpCanonical)).Perm
      ((storedCases s.cases d).map (·.modelDumpCanonical)) := by
  have hnodup : ∀ s : Store κ, ((storedCases s.cases d).map (·.modelDumpCanonical)).Nodup := by
    intro s
    refine List.Nodup.of_map (·.id) ?_
    rw [List.map_map]
    exact nodup_ids_storedCases s.cases d
  rw [List.perm_ext_iff_of_nodup (hnodup t) (hnodup s)]
  intro dump
  rw [mem_storedDumps, mem_storedDumps]
  refine and_congr_left fun ⟨_, hid⟩ => ?_
  obtain ⟨ref, href, hrid⟩ := List.mem_map.mp hid
  rw [← hrid, h ref href]

variable {digest}

theorem Untouched.consistent {s t : Store κ} (h : Untouched s t) (hs : Consistent digest s) :
    Consistent digest t := by
  intro id d hd hfrozen hne
  have hds := (h.datasets id d hfrozen).mp hd
  have hperm := storedDumps_perm (h.dumps id d hds hfrozen)
  rw [computeManifestHash_congr digest hperm]
  refine hs id d hds hfrozen fun hnil => hne ?_
  rw [hnil] at hperm
  exact List.map_eq_nil_iff.mp (List.Perm.eq_nil hperm)

theorem refrozen_hash {s : Store κ} {d : Dataset} {hash : Option String}
    {listed : List (EvalCase κ)} (hlisted : IsListing s.cases d.workspaceId listed)
    (hhash : hash = if (casesOf d listed).isEmpty then d.manifestHash
      else some (computeManifestHash digest (casesOf d listed))) :
    (storedCases s.cases d ≠ [] →
        hash = some (computeManifestHash digest (storedCases s.cases d))) ∧
      ((storedCases s.cases d ≠ [] →
        d.manifestHash = some (computeManifestHash digest (storedCases s.cases d))) →
      hash = d.manifestHash) := by
  have hperm := hlisted.casesOf_perm
  have hempty : (casesOf d listed).isEmpty = true ↔ storedCases s.cases d = [] := by
    rw [List.isEmpty_iff]
    exact ⟨fun h => (h ▸ hperm).symm.eq_nil, fun h => (h ▸ hperm).eq_nil⟩
  have hstored : storedCases s.cases d ≠ [] →
      hash = some (computeManifestHash digest (storedCases s.cases d)) := by
    intro hne
    rw [hhash, if_neg (mt hempty.mp hne), computeManifestHash_congr digest (hperm.map _)]
  refine ⟨hstored, fun h => ?_⟩
  by_cases hnil : storedCases s.cases d = []
  · rw [hhash, if_pos (hempty.mpr hnil)]
  · rw [hstored hnil, h hnil]

/-- **A freeze** of a dataset with the hash of its stored cases leaves the hash. -/
theorem freeze_consistent {s : Store κ} {workspaceId datasetId : String}
    {listed : List (EvalCase κ)} (hlisted : IsListing s.cases workspaceId listed)
    (hs : Consistent digest s) :
    Immutable s ((freezeDataset digest workspaceId datasetId listed).run s).2 ∧
      Consistent digest ((freezeDataset digest workspaceId datasetId listed).run s).2 := by
  have hsame : Immutable s s := untouched_respects.refl s |>.immutable
  unfold freezeDataset
  rw [run_tryQuery_bind]
  cases hget : getEntity s.datasets workspaceId datasetId with
  | error e => exact ⟨hsame, hs⟩
  | ok d =>
    obtain ⟨hfind, rfl⟩ := getEntity_eq_ok hget
    dsimp only [Except.mapError]
    rw [run_tryQuery_bind]
    cases hfrozen : frozenOver digest (casesOf d listed) d with
    | error e => exact ⟨hsame, hs⟩
    | ok d' =>
      obtain ⟨hbase, hrefs, htype, hstatus, hhash⟩ := frozenOver_eq_ok digest hfrozen
      have hid' : d'.id = datasetId :=
        (congrArg BaseEntity.id hbase).trans (Table.find?_eq_some.mp hfind).2
      dsimp only
      rw [putEntity_run]
      cases hput : s.put d.workspaceId (.dataset d') with
      | error e => exact ⟨hsame, hs⟩
      | ok t =>
        obtain ⟨-, hcases, hfindt⟩ := put_dataset hput
        rw [hid', hfind] at hfindt
        have hrehash := refrozen_hash hlisted hhash
        refine ⟨fun id d₀ hd₀ hfr => ?_, fun id d₀ hd₀ hfr hne => ?_⟩
        · by_cases hid : id = datasetId
          · obtain rfl : d = d₀ := Option.some.inj (hfind.symm.trans (hid ▸ hd₀))
            refine ⟨upsert (some d) d', by rw [hfindt, if_pos hid], ⟨hstatus, htype.trans hfr.2⟩,
              hrefs, ?_, fun ref _ => by unfold dumpAt; rw [hcases]⟩
            exact hrehash.2 (hs id d hd₀ hfr)
          · exact ⟨d₀, by rw [hfindt, if_neg hid, hd₀], hfr, rfl, rfl,
              fun ref _ => by unfold dumpAt; rw [hcases]⟩
        · rw [hfindt] at hd₀
          rw [hcases] at hne ⊢
          split_ifs at hd₀ with hid
          · obtain rfl := Option.some.inj hd₀
            have hstored : storedCases s.cases (upsert (some d) d') = storedCases s.cases d :=
              storedCases_congr s.cases (congrArg BaseEntity.workspaceId hbase :) hrefs
            rw [hstored] at hne ⊢
            exact hrehash.1 hne
          · exact hs id d₀ hd₀ hfr hne

end Hash

/-! ### Runs -/

section Runs
variable {digest : Payload κ → String} {models : Models κ}

theorem untouched_of_harmless {w : World κ} {op : Op κ} (hpossible : op.Possible w.store)
    (hop : Harmless models w op)
    (hfreeze : ¬ ∃ workspaceId datasetId listed, op = .freeze workspaceId datasetId listed) :
    Untouched w.store ((op.perform digest models).run w.store).2 := by
  refine untouched_respects.of_perform hop.1 (fun scope id hwrites t u d hst hid hstatus hput => ?_)
    fun workspaceId datasetId listed h => absurd ⟨workspaceId, datasetId, listed, h⟩ hfreeze
  subst hid
  refine untouched_put_dataset (fun d' hd' hws hfrozen => ?_) hstatus hput
  have hds := (hst.datasets d.id d' hfrozen).mp hd'
  cases op with
  | create workspaceId minted body =>
    obtain ⟨-, hid⟩ := hwrites
    have hnone : w.store.datasets.find? minted.datasetId = none := hpossible
    rw [← hid, hds] at hnone
    cases hnone
  | append workspaceId datasetId minted caseData createVersionIfFrozen =>
    obtain ⟨-, hid | ⟨hid, d₀, hd₀, hstatus₀⟩⟩ := hwrites
    · have hnone : w.store.datasets.find? minted.datasetId = none := hpossible
      rw [← hid, hds] at hnone
      cases hnone
    · obtain rfl := Option.some.inj (hd₀.symm.trans (hid ▸ hds))
      exact hstatus₀ hfrozen.1
  | freeze workspaceId datasetId listed => exact hwrites
  | launch now listed spec =>
    obtain ⟨rfl, hid, hne, source, hinline⟩ := hwrites
    have hspares := hop.2
    simp only [SparesDatasets, hinline] at hspares
    obtain hnil | hspares := hspares
    · exact hne hnil
    · exact hspares d' (hid ▸ hds) hws hfrozen

variable [DecidableEq κ]

theorem harmless_step {w w' : World κ} {op : Op κ} (hw : Consistent digest w.store)
    (hop : Harmless models w op) (hstep : step digest models w op = some w') :
    Consistent digest w'.store ∧ Immutable w.store w'.store := by
  obtain ⟨hpossible, hstore, -⟩ := step_eq_some hstep
  rw [hstore]
  by_cases hfreeze : ∃ workspaceId datasetId listed, op = .freeze workspaceId datasetId listed
  · obtain ⟨workspaceId, datasetId, listed, rfl⟩ := hfreeze
    unfold Op.perform
    rw [run_bind_pure]
    exact (freeze_consistent hpossible hw).symm
  · have huntouched : Untouched w.store ((op.perform digest models).run w.store).2 :=
      untouched_of_harmless hpossible hop hfreeze
    exact ⟨huntouched.consistent hw, huntouched.immutable⟩

/-- **Frozen regression datasets stay** in every run whose operations are all harmless: between any
two of its states, with their references, their hash and the content of their cases. -/
theorem frozen_immutable {before after : List (Op κ)} {w w' : World κ}
    (hguarded : Guarded (step digest models) (Harmless models) {} (before ++ after))
    (hbefore : exec (step digest models) {} before = some w)
    (hafter : exec (step digest models) w after = some w') : Immutable w.store w'.store := by
  have hempty : Consistent digest ({} : World κ).store := fun id d hd => nomatch hd
  obtain ⟨hfirst, hrest⟩ := guarded_append hguarded hbefore
  have hw : Consistent digest w.store :=
    inv_of_guarded (I := fun w => Consistent digest w.store)
      (fun _ _ _ hI hG hs => (harmless_step hI hG hs).1) hempty hfirst hbefore
  exact rel_of_guarded (I := fun w => Consistent digest w.store)
    (R := fun w w' => Immutable w.store w'.store) (fun w => Immutable.refl w.store)
    (fun _ _ _ => Immutable.trans) (fun _ _ _ hI hG hs => harmless_step hI hG hs) hw hrest hafter

end Runs

/-! ### A frozen dataset and a launch -/

/-- A regression dataset is created and frozen. -/
def createFrozen : List (Op Unit) :=
  [createRegression "ds_1" 0 [namedRow "ec_1" "late refund"],
    .freeze "ws_1" "ds_1" [namedCase "ec_1" "late refund" 0 none]]

/-- Another dataset is created, a case appended to the frozen one makes a third, and the first is
frozen again. -/
def moveOn : List (Op Unit) :=
  [createRegression "ds_2" 1 [namedRow "ec_2" "no refund"],
    .append "ws_1" "ds_1" (mintedAt "ds_3" 2) [("id", .str "ec_3"), ("name", .str "partial refund")]
      true,
    .freeze "ws_1" "ds_1" [namedCase "ec_3" "partial refund" 2 none,
      namedCase "ec_2" "no refund" 1 none, namedCase "ec_1" "late refund" 0 none]]

theorem frozen_immutable_moveOn : ∃ w w',
    exec (step (fun _ => "") namedModels) {} createFrozen = some w ∧
      exec (step (fun _ => "") namedModels) w moveOn = some w' ∧
      (∃ d, w.store.datasets.find? "ds_1" = some d ∧ d.FrozenRegression) ∧
      Immutable w.store w'.store :=
  have hguarded : Guarded (step (fun _ => "") namedModels) (Harmless namedModels) {}
      (createFrozen ++ moveOn) := by decide +kernel
  ⟨_, _, rfl, rfl, ⟨_, rfl, by decide +kernel⟩, frozen_immutable hguarded rfl rfl⟩

/-- A launch over the frozen dataset stamps its cases. -/
theorem launch_changes_frozen : ∃ w w',
    exec (step (fun _ => "") namedModels) {} createFrozen = some w ∧
      exec (step (fun _ => "") namedModels) w
        [launchOver "exp_1" "ds_1" 1 [namedCase "ec_1" "late refund" 0 none]] = some w' ∧
      ¬ Immutable w.store w'.store := by
  refine ⟨_, _, rfl, rfl, fun h => ?_⟩
  obtain ⟨d', -, -, -, -, hdumps⟩ := h "ds_1" _ rfl (by decide +kernel)
  exact absurd (hdumps ⟨"ec_1", some 1⟩ (by decide +kernel)) (by decide +kernel)

end Selfevals.Api.FrozenDatasets
