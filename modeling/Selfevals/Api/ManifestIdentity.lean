import Mathlib.Logic.Equiv.List
import Mathlib.Tactic.DeriveCountable
import Selfevals.Api.DatasetSystem

/-!
# The manifest hash and the content of a dataset

The hash of a case is over its canonical dump: what its author wrote, and also its workspace, the
time it was created and the experiment it was launched with. With an encoding and a hash that are
injective, it is the identity of the content exactly where those agree.

A case is hashed at its import as it was validated, and later as the store reads it: a `TIMESTAMPTZ`
column gives a moment in the time zone of the session and a `JSONB` column a number in its decimal
form. `readBack` is what is read of the fields in `κ`.

* `computeManifestHash_eq_iff`: equal hashes are equal dumps, in any order.
* `dumps_perm_iff`: dumps agree when the content does, and the bookkeeping of each content.
-/

namespace Selfevals.Api.ManifestIdentity

open Lib.Effects Lib.JsonValue Lib.Mapping Lib.Result Schemas.Base Schemas.Datasets Schemas.Enums
  Schemas.Experiments Storage.DatasetStore Storage.Entity Storage.Tables Repo.Datasets
  Runner.LaunchDatasets Api.DatasetSystem

variable {κ : Type}

/-- A case as its author wrote it. -/
def contentOf (c : EvalCase κ) : String × CaseContent κ := (c.id, c.content)

/-- What else is hashed of a case. -/
def bookkeepingOf (c : EvalCase κ) : String × Time × Option String :=
  (c.workspaceId, c.createdAt, c.experimentId)

/-- The cases are permutations of the same content. -/
def SameContent (cases cases' : List (EvalCase κ)) : Prop :=
  (cases.map contentOf).Perm (cases'.map contentOf)

/-- The cases of any one content have the same bookkeeping in both lists. -/
def SameBookkeeping [DecidableEq κ] (cases cases' : List (EvalCase κ)) : Prop :=
  ∀ content, ((cases.filter fun c => contentOf c = content).map bookkeepingOf).Perm
    ((cases'.filter fun c => contentOf c = content).map bookkeepingOf)

section Hash
variable (digest : Payload κ → String)

/-- The hash tells the content: it is the same if and only if the content is. -/
def HashIsContent (cases cases' : List (EvalCase κ)) : Prop :=
  computeManifestHash digest cases = computeManifestHash digest cases' ↔ SameContent cases cases'

/-- What `EvalCaseMapper` reads of a case that it has written. -/
def readCase (readBack : κ → κ) (c : EvalCase κ) : EvalCase κ :=
  { c with content := { c.content with rest := readBack c.content.rest } }

/-- A listing of the cases of a workspace, as they are read. -/
def IsReadListing (readBack : κ → κ) (cases : Table (EvalCase κ)) (workspaceId : String)
    (listed : List (EvalCase κ)) : Prop :=
  ∃ rows, IsListing cases workspaceId rows ∧ listed = rows.map (readCase readBack)

/-- The stored cases of a dataset, as they are read, hash to its manifest hash. -/
def Verifies (readBack : κ → κ) (s : Store κ) (d : Dataset) : Prop :=
  d.manifestHash =
    some (computeManifestHash digest ((storedCases s.cases d).map (readCase readBack)))

variable {digest}

theorem readCase_content {readBack : κ → κ} {c : EvalCase κ} :
    (readCase readBack c).content = c.content ↔ readBack c.content.rest = c.content.rest := by
  refine ⟨congrArg CaseContent.rest, fun h => ?_⟩
  unfold readCase
  rw [h]

theorem dump_readCase_upsert {readBack : κ → κ} {existing : Option (EvalCase κ)} {c : EvalCase κ} :
    (readCase readBack (upsert existing c)).modelDumpCanonical = c.modelDumpCanonical ↔
      readBack c.content.rest = c.content.rest ∧
        ∀ row, existing = some row → row.createdAt = c.createdAt := by
  rw [EvalCase.modelDumpCanonical_eq, ← readCase_content]
  cases existing with
  | none =>
    exact ⟨fun h => ⟨h.2.2.2.2, fun _ hrow => nomatch hrow⟩, fun h => ⟨rfl, rfl, rfl, rfl, h.1⟩⟩
  | some row =>
    refine ⟨fun h => ⟨h.2.2.2.2, fun _ hrow => Option.some.inj hrow ▸ h.2.2.1⟩, fun h => ?_⟩
    exact ⟨rfl, rfl, h.2 row rfl, rfl, h.1⟩

theorem dump_readCase_stamped {readBack : κ → κ}
    (hread : ∀ rest, readBack (readBack rest) = readBack rest) {cases : Table (EvalCase κ)}
    (experimentId : String) {row : EvalCase κ} (hrow : cases.find? row.id = some row) :
    (readCase readBack (upsert
      (cases.find? (stampCase experimentId (readCase readBack row)).id)
      (stampCase experimentId (readCase readBack row)))).modelDumpCanonical =
        (readCase readBack row).modelDumpCanonical ↔ row.experimentId = some experimentId := by
  have hfound : cases.find? (stampCase experimentId (readCase readBack row)).id = some row := by
    rw [stampCase_id]
    exact hrow
  rw [hfound, stampCase_eq, EvalCase.modelDumpCanonical_eq]
  refine ⟨fun h => h.2.2.2.1.symm, fun h => ⟨rfl, rfl, rfl, h.symm, ?_⟩⟩
  exact readCase_content.mpr (hread row.content.rest)

theorem casesOf_map_readCase {readBack : κ → κ} (d : Dataset) (rows : List (EvalCase κ)) :
    casesOf d (rows.map (readCase readBack)) = (casesOf d rows).map (readCase readBack) := by
  unfold casesOf
  rw [List.filter_map]
  rfl

theorem contentHash_injective (hinj : Function.Injective digest) :
    Function.Injective (contentHash digest) := fun _ _ h => hinj (String.append_right_inj _ |>.mp h)

theorem computeManifestHash_eq_iff (hinj : Function.Injective digest)
    {cases cases' : List (EvalCase κ)} :
    computeManifestHash digest cases = computeManifestHash digest cases' ↔
      (cases.map (·.modelDumpCanonical)).Perm (cases'.map (·.modelDumpCanonical)) := by
  refine ⟨fun h => ?_, computeManifestHash_congr digest⟩
  have hhash := contentHash_injective hinj
  have hperm := sorted_eq_iff.mp (Payload.hashes.inj (hhash h))
  refine (List.map_perm_map_iff (f := fun dump => contentHash digest (.case dump))
    fun _ _ heq => Payload.case.inj (hhash heq)).mp ?_
  rw [List.map_map, List.map_map]
  exact hperm

/-- Of cases with distinct ids, changed case by case, the hash is the same if and only if no case
dumps otherwise. -/
theorem hash_map_eq_iff (hinj : Function.Injective digest) {cases : List (EvalCase κ)}
    (hnodup : (cases.map (·.id)).Nodup) {f : EvalCase κ → EvalCase κ}
    (hid : ∀ c ∈ cases, (f c).id = c.id) :
    computeManifestHash digest (cases.map f) = computeManifestHash digest cases ↔
      ∀ c ∈ cases, (f c).modelDumpCanonical = c.modelDumpCanonical := by
  rw [computeManifestHash_eq_iff hinj, List.map_map]
  constructor
  · intro h c hc
    have hmem := h.mem_iff.mp (List.mem_map_of_mem (f := fun c => (f c).modelDumpCanonical) hc)
    obtain ⟨c', hc', heq⟩ := List.mem_map.mp hmem
    have hids : c'.id = c.id := (congrArg CaseDump.id heq).trans (hid c hc)
    rw [← heq, List.inj_on_of_nodup_map hnodup hc' hc hids]
  · intro h
    rw [List.map_congr_left (g := (·.modelDumpCanonical)) h]

end Hash

/-! ### Two lists of cases -/

theorem dumps_perm_iff [DecidableEq κ] {cases cases' : List (EvalCase κ)} :
    (cases.map (·.modelDumpCanonical)).Perm (cases'.map (·.modelDumpCanonical)) ↔
      SameBookkeeping cases cases' := by
  have hcount : ∀ (cs : List (EvalCase κ)) (content : String × CaseContent κ)
      (b : String × Time × Option String),
      ((cs.filter fun c => contentOf c = content).map bookkeepingOf).count b =
        (cs.map (·.modelDumpCanonical)).count ⟨content.1, b.1, b.2.1, b.2.2, content.2⟩ := by
    intro cs content b
    rw [List.count, List.countP_map, List.countP_filter, List.count, List.countP_map]
    refine List.countP_congr fun c _ => ?_
    simp [contentOf, bookkeepingOf, EvalCase.modelDumpCanonical, Prod.ext_iff, and_assoc,
      and_left_comm]
  simp only [SameBookkeeping, List.perm_iff_count, hcount]
  exact ⟨fun h content b => h _, fun h dump =>
    h (dump.id, dump.content) (dump.workspaceId, dump.createdAt, dump.experimentId)⟩

theorem SameBookkeeping.sameContent [DecidableEq κ] {cases cases' : List (EvalCase κ)}
    (h : SameBookkeeping cases cases') : SameContent cases cases' := by
  have hperm := (dumps_perm_iff.mpr h).map fun dump => (dump.id, dump.content)
  rw [List.map_map, List.map_map] at hperm
  exact hperm

section Identity
variable {digest : Payload κ → String}

theorem hashIsContent_iff [DecidableEq κ] (hinj : Function.Injective digest)
    (cases cases' : List (EvalCase κ)) :
    HashIsContent digest cases cases' ↔
      (SameContent cases cases' → SameBookkeeping cases cases') := by
  unfold HashIsContent
  rw [computeManifestHash_eq_iff hinj, dumps_perm_iff]
  exact ⟨fun h => h.mpr, fun h => ⟨SameBookkeeping.sameContent, h⟩⟩

/-! ### Imports and launches -/

section Stored
variable {readBack : κ → κ}

theorem verifies_congr {s : Store κ} {d d' : Dataset} (hws : d'.workspaceId = d.workspaceId)
    (hrefs : d'.cases = d.cases) (hhash : d'.manifestHash = d.manifestHash) :
    Verifies digest readBack s d' ↔ Verifies digest readBack s d := by
  unfold Verifies
  rw [storedCases_congr s.cases hws hrefs, hhash]

/-- A dataset whose cases are written over stored ones verifies if and only if no case is read
otherwise than it was hashed. -/
theorem verifies_putCases_iff (hinj : Function.Injective digest) {t : Store κ} {d : Dataset}
    {cs : List (EvalCase κ)} {f : EvalCase κ → EvalCase κ} (hid : ∀ c, (f c).id = c.id)
    (hnodup : (cs.map (·.id)).Nodup) (hhash : d.manifestHash = some (computeManifestHash digest cs))
    (hstored : (storedCases t.cases d).Perm (cs.map f)) :
    Verifies digest readBack t d ↔
      ∀ c ∈ cs, (readCase readBack (f c)).modelDumpCanonical = c.modelDumpCanonical := by
  have hread := (hstored.map (readCase readBack)).map (·.modelDumpCanonical)
  rw [List.map_map (l := cs)] at hread
  unfold Verifies
  rw [hhash, computeManifestHash_congr digest hread, Option.some.injEq, eq_comm]
  exact hash_map_eq_iff hinj hnodup fun c _ => hid c

/-- **An import** verifies if and only if every case is read as it was hashed, and one that was
stored before has the creation time that the new row gives it. -/
theorem verifies_import_iff (hinj : Function.Injective digest) {workspaceId : String}
    {args : DatasetArgs} {cases : List (EvalCase κ)} {s t : Store κ} {d : Dataset}
    (h : (persistDataset digest workspaceId args cases).run s = (.ok d, t)) :
    ∃ d', t.datasets.find? args.datasetId = some d' ∧ (Verifies digest readBack t d' ↔
      ∀ c ∈ cases, readBack c.content.rest = c.content.rest ∧
        ∀ row, s.cases.find? c.id = some row → row.createdAt = c.createdAt) := by
  obtain ⟨hbuild, u, hcases, hput⟩ := persistDataset_eq_ok digest h
  obtain ⟨hnodup, hid, rfl, hrefs, hhash, -⟩ := buildDataset_eq_ok digest hbuild
  obtain ⟨-, htable, hfind⟩ := put_dataset hput
  have hids : d.refIds = cases.map (·.id) := by
    unfold Dataset.refIds
    rw [hrefs, List.map_map]
    rfl
  have hmem : ∀ c ∈ cases, c.id ∈ d.refIds := fun c hc => hids ▸ List.mem_map_of_mem hc
  have hstored := storedCases_putCases hnodup hcases hmem fun c hc =>
    hids ▸ (mem_storedCases.mp hc).2.2
  rw [← htable] at hstored
  refine ⟨upsert (u.datasets.find? d.id) d, by rw [hfind, if_pos hid.symm], ?_⟩
  have hsame : Verifies digest readBack t (upsert (u.datasets.find? d.id) d) ↔
      Verifies digest readBack t d := by
    cases u.datasets.find? d.id with
    | none => exact Iff.rfl
    | some old => exact verifies_congr rfl rfl rfl
  rw [hsame, verifies_putCases_iff hinj (fun c => base_upsert_id _ c) hnodup hhash hstored]
  exact forall₂_congr fun c _ => dump_readCase_upsert

theorem buildLoop_ref {now : Time} {listed : List (EvalCase κ)} {spec spec' : LaunchSpec κ}
    {source : Repo.Loader.Models.RefDatasetSource} {s t : Store κ}
    (hsource : spec.datasetSource = .ref source)
    (h : (buildLoop digest now listed spec).run s = (.ok spec', t)) :
    ∃ d u, getEntity s.datasets spec.workspaceId source.ref.id = .ok d ∧
      u.cases = s.cases ∧ u.datasets = s.datasets ∧
        (putCases spec.workspaceId ((casesOf d listed).map (stampCase spec.experiment.id))).run u =
          (.ok (), t) := by
  obtain ⟨⟨resolved, split⟩, u, hresolve, h₁⟩ := run_bind_eq_ok.mp h
  obtain ⟨⟨⟩, v, hexperiment, h₂⟩ := run_bind_eq_ok.mp h₁
  obtain ⟨⟨⟩, w, hput, h₃⟩ := run_bind_eq_ok.mp h₂
  unfold resolveDatasetSource at hresolve
  rw [hsource] at hresolve
  dsimp only at hresolve
  rw [run_resolveRefDataset] at hresolve
  cases hget : getEntity s.datasets spec.workspaceId source.ref.id with
  | error e => rw [hget] at hresolve; cases hresolve
  | ok d =>
    rw [hget] at hresolve
    dsimp only at hresolve
    split_ifs at hresolve with hempty
    · cases hresolve
    · obtain ⟨hok, rfl⟩ := Prod.mk.inj hresolve
      obtain ⟨rfl, -⟩ := Prod.mk.inj (Except.ok.inj hok)
      obtain ⟨hcases, hdatasets⟩ := put_experiment (putEntity_eq_ok.mp hexperiment)
      have hlast : w = t := by
        simp only [materializeInlineDataset, stampSpec, hsource] at h₃
        exact (Prod.mk.inj h₃).2
      subst hlast
      exact ⟨d, v, rfl, hcases, hdatasets, hput⟩

/-- **A launch** over a dataset that verifies leaves it so if and only if its cases were stamped
with the experiment already: what was read is written, and read again as it is. -/
theorem verifies_launch_iff (hinj : Function.Injective digest)
    (hread : ∀ rest, readBack (readBack rest) = readBack rest) {now : Time}
    {listed : List (EvalCase κ)} {spec spec' : LaunchSpec κ}
    {source : Repo.Loader.Models.RefDatasetSource} {s t : Store κ} {d : Dataset}
    (hsource : spec.datasetSource = .ref source)
    (hlisted : IsReadListing readBack s.cases spec.workspaceId listed)
    (hget : getEntity s.datasets spec.workspaceId source.ref.id = .ok d)
    (hs : Verifies digest readBack s d)
    (h : (buildLoop digest now listed spec).run s = (.ok spec', t)) :
    t.datasets.find? source.ref.id = some d ∧ (Verifies digest readBack t d ↔
      ∀ c ∈ storedCases s.cases d, c.experimentId = some spec.experiment.id) := by
  obtain ⟨d', u, hget', htable, hdatasets, hput⟩ := buildLoop_ref hsource h
  obtain rfl := Except.ok.inj (hget.symm.trans hget')
  obtain ⟨hfind, hws⟩ := getEntity_eq_ok hget
  change d.workspaceId = spec.workspaceId at hws
  obtain ⟨rows, hrows, rfl⟩ := hlisted
  rw [← hws] at hrows hput
  rw [casesOf_map_readCase] at hput
  set cs := (casesOf d rows).map (readCase readBack)
  have hperm : cs.Perm ((storedCases s.cases d).map (readCase readBack)) :=
    hrows.casesOf_perm.map _
  have hids : (cs.map (stampCase spec.experiment.id)).map (·.id) = cs.map (·.id) := by
    rw [List.map_map]
    exact List.map_congr_left fun c _ => stampCase_id _ c
  have hreadIds : cs.map (·.id) = (casesOf d rows).map (·.id) := List.map_map
  have hnodup : (cs.map (·.id)).Nodup := by
    rw [hreadIds]
    exact (hrows.casesOf_perm.map _).nodup_iff.mpr (nodup_ids_storedCases s.cases d)
  have hmem : ∀ c ∈ cs, ∃ row ∈ storedCases s.cases d, readCase readBack row = c := fun c hc =>
    List.mem_map.mp (hperm.mem_iff.mp hc)
  have hstored := storedCases_putCases (hids ▸ hnodup) hput ?_ ?_
  · rw [List.map_map] at hstored
    refine ⟨by rw [(find?_putCases (hids ▸ hnodup) hput).1, hdatasets, hfind], ?_⟩
    have hhash : d.manifestHash = some (computeManifestHash digest cs) := by
      rw [hs, computeManifestHash_congr digest (hperm.map _)]
    have hid : ∀ c, (upsert (u.cases.find? (stampCase spec.experiment.id c).id)
        (stampCase spec.experiment.id c)).id = c.id := fun c =>
      (base_upsert_id _ (stampCase spec.experiment.id c)).trans (stampCase_id _ c)
    rw [verifies_putCases_iff hinj hid hnodup hhash hstored]
    have hiff := fun row (hrow : row ∈ storedCases s.cases d) =>
      dump_readCase_stamped hread spec.experiment.id
        (htable.symm ▸ (mem_storedCases.mp hrow).1 : u.cases.find? row.id = some row)
    constructor
    · intro h row hrow
      exact (hiff row hrow).mp (h _ (hperm.mem_iff.mpr (List.mem_map_of_mem hrow)))
    · intro h c hc
      obtain ⟨row, hrow, rfl⟩ := hmem c hc
      exact (hiff row hrow).mpr (h row hrow)
  · intro c hc
    obtain ⟨c', hc', rfl⟩ := List.mem_map.mp hc
    obtain ⟨row, hrow, rfl⟩ := hmem c' hc'
    rw [stampCase_id]
    exact (mem_storedCases.mp hrow).2.2
  · intro c hc
    rw [htable] at hc
    rw [hids, hreadIds]
    exact List.mem_map_of_mem (hrows.casesOf_perm.mem_iff.mpr hc)

/-- **The manifest hash is the identity of the content** where bookkeeping agrees: for two lists of
cases; for an import, over what was stored; and for a launch over a stored dataset. -/
theorem manifest_identity [DecidableEq κ] (hinj : Function.Injective digest)
    (hread : ∀ rest, readBack (readBack rest) = readBack rest) :
    (∀ cases cases' : List (EvalCase κ), HashIsContent digest cases cases' ↔
      (SameContent cases cases' → SameBookkeeping cases cases')) ∧
    (∀ workspaceId args (cases : List (EvalCase κ)) s d t,
      (persistDataset digest workspaceId args cases).run s = (.ok d, t) →
        ∃ d', t.datasets.find? args.datasetId = some d' ∧ (Verifies digest readBack t d' ↔
          ∀ c ∈ cases, readBack c.content.rest = c.content.rest ∧
            ∀ row, s.cases.find? c.id = some row → row.createdAt = c.createdAt)) ∧
    ∀ now listed (spec spec' : LaunchSpec κ) source s t d, spec.datasetSource = .ref source →
      IsReadListing readBack s.cases spec.workspaceId listed →
      getEntity s.datasets spec.workspaceId source.ref.id = .ok d → Verifies digest readBack s d →
      (buildLoop digest now listed spec).run s = (.ok spec', t) →
        t.datasets.find? source.ref.id = some d ∧ (Verifies digest readBack t d ↔
          ∀ c ∈ storedCases s.cases d, c.experimentId = some spec.experiment.id) :=
  ⟨hashIsContent_iff hinj, fun _ _ _ _ _ _ => verifies_import_iff hinj,
    fun _ _ _ _ _ _ _ _ => verifies_launch_iff hinj hread⟩

end Stored

end Identity

/-! ### An injective digest -/

theorem char_toNat_injective : Function.Injective Char.toNat := fun _ _ h =>
  Char.ext (UInt32.toNat_inj.mp h)

instance countable_char : Countable Char := char_toNat_injective.countable

instance countable_string : Countable String :=
  Function.Injective.countable (f := String.toList) fun _ _ h => String.toList_injective h

deriving instance Countable for Level
deriving instance Countable for DatasetSource
deriving instance Countable for DatasetType
deriving instance Countable for PiiStatus
deriving instance Countable for CaseTaxonomy
deriving instance Countable for CaseContent
deriving instance Countable for CaseDump
deriving instance Countable for Payload

theorem exists_injective_digest [Countable κ] :
    ∃ digest : Payload κ → String, Function.Injective digest := by
  obtain ⟨number, hnumber⟩ := exists_injective_nat (Payload κ)
  refine ⟨fun p => String.ofList (List.replicate (number p) '0'), fun p q h => hnumber ?_⟩
  have hlen := congrArg (fun s : String => s.toList.length) h
  simpa using hlen

/-! ### Rows that are imported twice -/

/-- A case of `exp_1` with raw data: of its `approved_raw_at` the moment, and the offset it is
written with. -/
def approvedCase (id : String) (offset : ℕ) : EvalCase (ℕ × ℕ) where
  id := id
  workspaceId := "ws_1"
  createdAt := 0
  updatedAt := 0
  experimentId := some "exp_1"
  content := {
    name := id
    taxonomy := {
      level := .finalResponse
      featurePrimary := "refunds"
      sourceType := .production
      datasetType := .regression }
    rest := (7, offset) }

/-- A session at UTC reads the same moment without an offset. -/
def atUtc (approvedAt : ℕ × ℕ) : ℕ × ℕ := (approvedAt.1, 0)

def approvedArgs (now : Time) : DatasetArgs where
  name := "refunds"
  datasetType := .regression
  datasetId := "ds_1"
  now := now

def approvedCases : List (EvalCase (ℕ × ℕ)) := [approvedCase "ec_1" 0, approvedCase "ec_2" 0]

def launchApproved : LaunchSpec (ℕ × ℕ) where
  workspaceId := "ws_1"
  experiment := { Experiment.minimal with id := "exp_1" }
  cases := []
  datasetSource := .ref ⟨⟨"ds_1", none⟩⟩

/-- Cases approved at UTC hash alike in any order, verify when they are imported and after a launch
of their experiment; one approved at another offset does not verify when it is imported. -/
theorem manifest_identity_approved : ∃ digest : Payload (ℕ × ℕ) → String,
    Function.Injective digest ∧
      HashIsContent digest approvedCases approvedCases.reverse ∧
      (∃ d s spec t, (persistDataset digest "ws_1" (approvedArgs 1) approvedCases).run {} =
          (.ok d, s) ∧
        s.datasets.find? "ds_1" = some d ∧ Verifies digest atUtc s d ∧
        (buildLoop digest 2 approvedCases launchApproved).run s = (.ok spec, t) ∧
        Verifies digest atUtc t d) ∧
      ∃ d s, (persistDataset digest "ws_1" (approvedArgs 1) [approvedCase "ec_1" 120]).run {} =
          (.ok d, s) ∧
        s.datasets.find? "ds_1" = some d ∧ ¬ Verifies digest atUtc s d := by
  obtain ⟨digest, hinj⟩ := @exists_injective_digest (ℕ × ℕ) _
  obtain ⟨hlists, himport, hlaunch⟩ := @manifest_identity _ digest atUtc _ hinj fun _ => rfl
  have hverifies : ∀ cases d s, (persistDataset digest "ws_1" (approvedArgs 1) cases).run {} =
      (.ok d, s) → s.datasets.find? "ds_1" = some d →
      (Verifies digest atUtc s d ↔ ∀ c ∈ cases, atUtc c.content.rest = c.content.rest) := by
    intro cases d s hrun hfind
    obtain ⟨d', hd', hiff⟩ := himport _ _ _ _ _ _ hrun
    obtain rfl := Option.some.inj (hfind.symm.trans hd')
    exact hiff.trans (forall₂_congr fun _ _ => and_iff_left fun _ hrow => nomatch hrow)
  refine ⟨digest, hinj, (hlists _ _).mpr fun _ content => ?_, ?_, ?_⟩
  · exact ((List.Perm.swap _ _ []).filter _).map _
  · have hs := (hverifies approvedCases _ _ rfl rfl).mpr (by decide)
    refine ⟨_, _, _, _, rfl, rfl, hs, rfl, ?_⟩
    refine (hlaunch 2 _ launchApproved _ _ _ _ _ rfl ⟨approvedCases, ?_, rfl⟩ rfl hs rfl).2.mpr ?_
    · exact ⟨List.Perm.refl _, by decide⟩
    · show ∀ c ∈ approvedCases, c.experimentId = some "exp_1"
      decide
  · refine ⟨_, _, rfl, rfl, fun hs => ?_⟩
    exact absurd ((hverifies [approvedCase "ec_1" 120] _ _ rfl rfl).mp hs) (by decide)

/-- The same row at a later time: the content is the same, and the hash is not. -/
theorem reimport_changes_hash : ∃ digest : Payload Unit → String, Function.Injective digest ∧
    ∃ cases cases',
      loadCasesFromRows namedModels.evalCase "ws_1" (mintedAt "ds_1" 0).stamps
        [namedRow "ec_1" "late refund"] = .ok cases ∧
      loadCasesFromRows namedModels.evalCase "ws_1" (mintedAt "ds_1" 1).stamps
        [namedRow "ec_1" "late refund"] = .ok cases' ∧
      SameContent cases cases' ∧
        computeManifestHash digest cases ≠ computeManifestHash digest cases' := by
  obtain ⟨digest, hinj⟩ := @exists_injective_digest Unit _
  refine ⟨digest, hinj, [namedCase "ec_1" "late refund" 0 none],
    [namedCase "ec_1" "late refund" 1 none], rfl, rfl, List.Perm.refl _, fun h => ?_⟩
  have hdumps := List.perm_singleton.mp ((computeManifestHash_eq_iff hinj).mp h)
  exact absurd (congrArg CaseDump.createdAt (List.cons.inj hdumps).1) (by decide)

end Selfevals.Api.ManifestIdentity
