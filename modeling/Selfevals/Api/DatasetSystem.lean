import Selfevals.Api.DatasetWriter
import Selfevals.Lib.Run
import Selfevals.Runner.LaunchDatasets

/-!
# Datasets and launches over one store

The operations that write cases and datasets, one after another: a dataset is created, appended to
or frozen, an experiment is launched. A label carries what its operation is given, the ids and times
it makes and the listing its query returns; `launched` remembers the launches that went through,
with the cases each was launched with.

`Op.EachCase P` says that every case the operation writes meets `P` in the store it is written to.
-/

namespace Selfevals.Api.DatasetSystem

open Lib.Effects Lib.JsonValue Schemas.Base Schemas.Datasets Schemas.Experiments Storage
  Storage.DatasetStore Repo.Datasets Api.DatasetWriter Runner.LaunchDatasets

/-- An experiment that was launched, with the ids of its cases. -/
structure Launched where
  workspaceId : String
  experimentId : String
  caseIds : List String
deriving DecidableEq, Repr

/-- The tables of datasets and cases, and the objects in memory. -/
structure World (κ : Type) where
  store : Store κ := {}
  launched : List Launched := []

/-- What the API and the loader do to datasets. -/
inductive Op (κ : Type)
  | create (workspaceId : String) (minted : Minted) (body : CreateDatasetRequest)
  | append (workspaceId datasetId : String) (minted : Minted) (caseData : Object)
    (createVersionIfFrozen : Bool)
  | freeze (workspaceId datasetId : String) (listed : List (EvalCase κ))
  | launch (now : Time) (listed : List (EvalCase κ)) (spec : LaunchSpec κ)

variable {κ : Type}

/-- The environment's part: an id that is made is new, and a listing is one of the store. -/
def Op.Possible (s : Store κ) : Op κ → Prop
  | .create _ minted _ => s.datasets.find? minted.datasetId = none
  | .append _ _ minted _ _ => s.datasets.find? minted.datasetId = none
  | .freeze workspaceId _ listed => IsListing s.cases workspaceId listed
  | .launch _ listed spec => IsListing s.cases spec.workspaceId listed

instance [DecidableEq κ] (s : Store κ) (op : Op κ) : Decidable (op.Possible s) := by
  cases op <;> unfold Op.Possible
  · exact decidable_of_iff _ Option.isNone_iff_eq_none
  · exact decidable_of_iff _ Option.isNone_iff_eq_none
  · unfold IsListing; infer_instance
  · unfold IsListing; infer_instance

section Step
variable (digest : Payload κ → String) (models : Models κ)

/-- The operation; of a launch, what is launched. -/
def Op.perform : Op κ → Scope κ (Option Launched)
  | .create workspaceId minted body => do
    let _ ← createDataset digest models workspaceId minted body
    return none
  | .append workspaceId datasetId minted caseData createVersionIfFrozen => do
    let _ ← appendCaseToDataset digest models workspaceId datasetId minted caseData
      createVersionIfFrozen
    return none
  | .freeze workspaceId datasetId listed => do
    freezeDataset digest workspaceId datasetId listed
    return none
  | .launch now listed spec => do
    let spec ← buildLoop digest now listed spec
    return some ⟨spec.workspaceId, spec.experiment.id, spec.cases.map (·.id)⟩

/-- An operation that raises leaves what it has written. -/
def step [DecidableEq κ] (w : World κ) (op : Op κ) : Option (World κ) :=
  if op.Possible w.store then
    match (op.perform digest models).run w.store with
    | (.ok result, s) => some { store := s, launched := w.launched ++ result.toList }
    | (.error _, s) => some { w with store := s }
  else none

/-- Every case that the operation writes meets `P`, in the store it is written to. -/
def Op.EachCase (P : Store κ → EvalCase κ → Prop) (s : Store κ) : Op κ → Prop
  | .create workspaceId minted body =>
    ∀ args cases, createInput models workspaceId minted body = .ok (args, cases) →
      EachPut P workspaceId cases s
  | .append workspaceId datasetId minted caseData createVersionIfFrozen =>
    ∀ d existing c, appendInput models workspaceId datasetId (minted.stamps 0) caseData
      createVersionIfFrozen s = .ok (d, existing, c) → EachPut P workspaceId [c] s
  | .freeze _ _ _ => True
  | .launch _ listed spec =>
    ∀ spec' split, ((resolveDatasetSource listed spec).run s).1 = .ok (spec', split) →
      ∀ t, s.put spec.workspaceId (.experiment spec'.experiment) = .ok t →
        EachPut P spec.workspaceId (stampSpec spec').cases t

instance {models : Models κ} {P : Store κ → EvalCase κ → Prop} [∀ s c, Decidable (P s c)]
    (s : Store κ) (op : Op κ) : Decidable (op.EachCase models P s) := by
  cases op with
  | create workspaceId minted body =>
    exact match h : createInput models workspaceId minted body with
      | .error _ => isTrue fun _ _ h' => nomatch h.symm.trans h'
      | .ok (_, cases) => decidable_of_iff (EachPut P workspaceId cases s)
        ⟨fun hP _ _ h' => by cases h.symm.trans h'; exact hP, fun hP => hP _ _ h⟩
  | append workspaceId datasetId minted caseData createVersionIfFrozen =>
    exact match h : appendInput models workspaceId datasetId (minted.stamps 0) caseData
        createVersionIfFrozen s with
      | .error _ => isTrue fun _ _ _ h' => nomatch h.symm.trans h'
      | .ok (_, _, c) => decidable_of_iff (EachPut P workspaceId [c] s)
        ⟨fun hP _ _ _ h' => by cases h.symm.trans h'; exact hP, fun hP => hP _ _ _ h⟩
  | freeze => exact isTrue trivial
  | launch now listed spec =>
    exact match h : ((resolveDatasetSource listed spec).run s).1 with
      | .error _ => isTrue fun _ _ h' => nomatch h.symm.trans h'
      | .ok (spec', _) =>
        match hput : s.put spec.workspaceId (.experiment spec'.experiment) with
        | .error _ => isTrue fun _ _ h' t ht => by
          cases h.symm.trans h'
          exact nomatch hput.symm.trans ht
        | .ok t => decidable_of_iff (EachPut P spec.workspaceId (stampSpec spec').cases t)
          ⟨fun hP _ _ h' t' ht' => by
            cases h.symm.trans h'
            cases hput.symm.trans ht'
            exact hP, fun hP => hP _ _ h t hput⟩

/-- The operation may write a dataset that is not frozen under an id, in the scope of a workspace.
-/
def Op.WritesUnfrozen (s : Store κ) (scope id : String) : Op κ → Prop
  | .create workspaceId minted _ => scope = workspaceId ∧ id = minted.datasetId
  | .append workspaceId datasetId minted _ _ => scope = workspaceId ∧ (id = minted.datasetId ∨
    id = datasetId ∧ ∃ d, s.datasets.find? datasetId = some d ∧ d.status ≠ .frozen)
  | .freeze _ _ _ => False
  | .launch _ _ spec => scope = spec.workspaceId ∧ id = inlineDatasetId spec.experiment.id ∧
    spec.cases ≠ [] ∧ ∃ source, spec.datasetSource = .inline source

variable {digest models} [DecidableEq κ] {w w' : World κ} {op : Op κ}

theorem step_eq_some (h : step digest models w op = some w') :
    op.Possible w.store ∧ w'.store = ((op.perform digest models).run w.store).2 ∧
      w'.launched = w.launched ++
        ((((op.perform digest models).run w.store).1.toOption).bind id).toList := by
  unfold step at h
  split_ifs at h with hpossible
  refine ⟨hpossible, ?_⟩
  split at h
  · next result s hrun =>
    obtain rfl := Option.some.inj h
    rw [hrun]
    exact ⟨rfl, rfl⟩
  · next e s hrun =>
    obtain rfl := Option.some.inj h
    rw [hrun]
    exact ⟨rfl, (List.append_nil _).symm⟩

omit [DecidableEq κ] in
theorem launched_of_perform {s : Store κ} {l : Launched}
    (h : l ∈ (((op.perform digest models).run s).1.toOption).bind id) :
    ∃ now listed spec spec', op = .launch now listed spec ∧
      (buildLoop digest now listed spec).run s =
        (.ok spec', ((op.perform digest models).run s).2) ∧
      l = ⟨spec'.workspaceId, spec'.experiment.id, spec'.cases.map (·.id)⟩ := by
  cases op with
  | launch now listed spec =>
    unfold Op.perform at h ⊢
    rw [run_bind_pure] at h ⊢
    cases hrun : (buildLoop digest now listed spec).run s with
    | mk result t =>
      rw [hrun] at h
      cases result with
      | error e => cases h
      | ok spec' => exact ⟨now, listed, spec, spec', rfl, by rw [hrun], (Option.some.inj h).symm⟩
  | create | append | freeze =>
    unfold Op.perform at h
    rw [run_bind_pure] at h
    dsimp only at h
    generalize Prod.fst _ = result at h
    cases result <;> cases h

end Step

/-! ### What an operation respects -/

/-- A relation that every write of an experiment respects, and every write of a case that meets `P`.
-/
structure Respects (P : Store κ → EvalCase κ → Prop) (R : Store κ → Store κ → Prop) : Prop where
  refl : ∀ s, R s s
  trans : ∀ s t u, R s t → R t u → R s u
  experiment : ∀ {s t : Store κ} {workspaceId e},
    s.put workspaceId (.experiment e) = .ok t → R s t
  case : ∀ {s t : Store κ} {workspaceId c}, P s c → s.put workspaceId (.case c) = .ok t → R s t

/-- The relation is respected by every write of a dataset with an id, not frozen, from where the
relation leads to. -/
def RespectsDataset (R : Store κ → Store κ → Prop) (s : Store κ) (workspaceId id : String) : Prop :=
  ∀ t u (d : Dataset), R s t → d.id = id → d.status ≠ .frozen →
    t.put workspaceId (.dataset d) = .ok u → R t u

section Rules
variable {digest : Payload κ → String} {models : Models κ} {s : Store κ} {workspaceId : String}
variable {P : Store κ → EvalCase κ → Prop} {R : Store κ → Store κ → Prop}

theorem Respects.of_bind {α β : Type} (h : Respects P R) {m : Scope κ α} {f : α → Scope κ β}
    (hm : R s (m.run s).2)
    (hf : ∀ a t, m.run s = (.ok a, t) → R s t → R t ((f a).run t).2) : R s ((m >>= f).run s).2 := by
  refine rel_bind h.trans hm fun a t hrun => hf a t hrun ?_
  rw [hrun] at hm
  exact hm

theorem Respects.of_putEntity (h : Respects P R) {entity : Put κ}
    (hput : ∀ t, s.put workspaceId entity = .ok t → R s t) :
    R s ((putEntity workspaceId entity).run s).2 := by
  rw [putEntity_run]
  cases hok : s.put workspaceId entity with
  | ok t => exact hput t hok
  | error e => exact h.refl s

theorem Respects.of_putCases (h : Respects P R) {cases : List (EvalCase κ)}
    (heach : EachPut P workspaceId cases s) : R s ((putCases workspaceId cases).run s).2 :=
  rel_putCases h.refl h.trans (fun _ _ _ hP hput => h.case hP hput) cases s heach

theorem Respects.of_persistDataset (h : Respects P R) {args : DatasetArgs}
    {cases : List (EvalCase κ)}
    (hcases : R s ((putCases workspaceId cases).run s).2) (hstatus : args.status ≠ .frozen)
    (hdataset : RespectsDataset R s workspaceId args.datasetId) :
    R s ((persistDataset digest workspaceId args cases).run s).2 := by
  refine h.of_bind hcases fun _ t _ hst => ?_
  rw [run_tryQuery_bind]
  cases hbuild : buildDataset digest workspaceId args cases with
  | error e => exact h.refl t
  | ok d =>
    obtain ⟨-, hid, -, -, -, hd⟩ := buildDataset_eq_ok digest hbuild
    refine h.of_bind (h.of_putEntity fun u hput => hdataset t u d hst hid ?_ hput)
      fun _ u _ _ => h.refl u
    rw [hd]
    exact hstatus

theorem Respects.of_createDataset (h : Respects P R) {minted : Minted} {body : CreateDatasetRequest}
    (heach : (Op.create workspaceId minted body).EachCase models P s)
    (hdataset : RespectsDataset R s workspaceId minted.datasetId) :
    R s ((createDataset digest models workspaceId minted body).run s).2 := by
  unfold createDataset
  rw [run_tryQuery_bind]
  cases hinput : createInput models workspaceId minted body with
  | error e => exact h.refl s
  | ok input =>
    obtain ⟨args, cases⟩ := input
    obtain ⟨hid, hstatus⟩ := createInput_eq_ok hinput
    refine h.of_persistDataset (h.of_putCases (heach args cases hinput)) ?_ ?_
    · rw [hstatus]; simp
    · rw [hid]; exact hdataset

theorem Respects.of_appendCaseToDataset (h : Respects P R) {datasetId : String} {minted : Minted}
    {caseData : Object} {createVersionIfFrozen : Bool}
    (heach : (Op.append workspaceId datasetId minted caseData createVersionIfFrozen).EachCase
      models P s)
    (hnew : RespectsDataset R s workspaceId minted.datasetId)
    (hold : ∀ d, s.datasets.find? datasetId = some d → d.status ≠ .frozen →
      RespectsDataset R s workspaceId datasetId) :
    R s ((appendCaseToDataset digest models workspaceId datasetId minted caseData
      createVersionIfFrozen).run s).2 := by
  unfold appendCaseToDataset
  rw [run_tryQuery_bind]
  cases hinput : appendInput models workspaceId datasetId (minted.stamps 0) caseData
    createVersionIfFrozen s with
  | error e => exact h.refl s
  | ok input =>
    obtain ⟨d, existing, c⟩ := input
    obtain ⟨hfind, -, hexisting, -⟩ := input_of_appendInput hinput
    have hput : R s ((putCases workspaceId [c]).run s).2 :=
      h.of_putCases (heach d existing c hinput)
    dsimp only
    split_ifs with hfrozen
    · -- a new dataset: the cases of the frozen one are written again as they are
      refine h.of_bind
        (h.of_persistDataset ?_ (by simp [successorArgs]) hnew) fun _ u _ _ => h.refl u
      rw [putCases_append_stored hexisting]
      exact hput
    · refine h.of_bind (h.of_putEntity fun t ht => ?_) fun _ t _ hst => ?_
      · exact h.case ((heach d existing c hinput) t ht).1 ht
      · rw [run_tryQuery_bind]
        cases hext : extended digest existing c d with
        | error e => exact h.refl t
        | ok d' =>
          obtain ⟨hid, hstatus⟩ := extended_eq_ok digest hext
          have hdid : d.id = datasetId := (Tables.Table.find?_eq_some.mp hfind).2
          refine h.of_bind (h.of_putEntity fun u hu => ?_) fun _ u _ _ => h.refl u
          refine hold d hfind hfrozen t u d' hst (hid.trans hdid) ?_ hu
          rw [hstatus]
          exact hfrozen

theorem Respects.of_materializeInlineDataset (h : Respects P R) {now : Time} {spec : LaunchSpec κ}
    (hdataset : ∀ source, spec.datasetSource = .inline source → spec.cases ≠ [] →
      RespectsDataset R s spec.workspaceId (inlineDatasetId spec.experiment.id)) :
    R s ((materializeInlineDataset digest now spec).run s).2 := by
  unfold materializeInlineDataset
  split
  · exact h.refl s
  · exact h.refl s
  · next source first rest hsource hcases =>
    rw [run_bind, run_query]
    dsimp only
    rw [run_tryQuery_bind]
    cases hbuild : buildDataset digest spec.workspaceId (inlineArgs now spec source first)
      spec.cases with
    | error e => exact h.refl s
    | ok d =>
      obtain ⟨-, hid, -, -, -, hstatus⟩ := buildDataset_eq_ok digest hbuild
      refine h.of_bind (h.of_putEntity fun t hput => ?_) fun _ t _ _ => h.refl t
      refine hdataset source hsource (by simp [hcases]) s t _ (h.refl s) ?_ ?_ hput
      · rw [(atVersionOf_eq _ d).1, hid]; rfl
      · rw [(atVersionOf_eq _ d).2, hstatus]; simp [inlineArgs]

theorem Respects.of_buildLoop (h : Respects P R) {now : Time} {listed : List (EvalCase κ)}
    {spec : LaunchSpec κ} (heach : (Op.launch now listed spec).EachCase models P s)
    (hdataset : ∀ source, spec.datasetSource = .inline source → spec.cases ≠ [] →
      RespectsDataset R s spec.workspaceId (inlineDatasetId spec.experiment.id)) :
    R s ((buildLoop digest now listed spec).run s).2 := by
  unfold buildLoop
  rw [run_bind]
  cases hresolve : (resolveDatasetSource listed spec).run s with
  | mk result t =>
    obtain rfl : t = s := by rw [← resolveDatasetSource_store listed spec s, hresolve]
    cases result with
    | error e => exact h.refl t
    | ok resolved =>
      obtain ⟨spec', split⟩ := resolved
      obtain ⟨hws, hid, hsource, hcases⟩ := resolveDatasetSource_eq_ok hresolve
      have hput := heach spec' split (congrArg Prod.fst hresolve)
      dsimp only
      rw [hws]
      refine h.of_bind (h.of_putEntity fun u hu => h.experiment hu) fun _ u hu htu => ?_
      refine h.of_bind (h.of_putCases ?_) fun _ v _ huv => ?_
      · show EachPut P spec'.workspaceId _ u
        rw [hws]
        exact hput u (putEntity_eq_ok.mp hu)
      · refine h.of_materializeInlineDataset fun source hinline hne => ?_
        have hinline' : spec.datasetSource = .inline source := hsource.symm.trans hinline
        have hne' : spec.cases ≠ [] := by
          rw [← hcases source hinline']
          exact fun hnil => hne (by simp [stampSpec, hnil])
        intro x y d hvx hdid hstatus hxy
        refine hdataset source hinline' hne' x y d ?_ (hdid.trans ?_) hstatus ?_
        · exact h.trans _ _ _ (h.trans _ _ _ htu huv) hvx
        · rw [← hid]; rfl
        · rw [← hws]; exact hxy

/-- **What an operation other than a freeze does to the store**, a relation respects that its writes
respect. -/
theorem Respects.of_perform (h : Respects P R) {op : Op κ} (heach : op.EachCase models P s)
    (hdataset : ∀ scope id, op.WritesUnfrozen s scope id → RespectsDataset R s scope id)
    (hfreeze : ∀ workspaceId datasetId listed, op = .freeze workspaceId datasetId listed →
      R s ((freezeDataset digest workspaceId datasetId listed).run s).2) :
    R s ((op.perform digest models).run s).2 := by
  cases op with
  | create workspaceId minted body =>
    exact h.of_bind (h.of_createDataset heach (hdataset _ _ ⟨rfl, rfl⟩)) fun _ t _ _ => h.refl t
  | append workspaceId datasetId minted caseData createVersionIfFrozen =>
    refine h.of_bind (h.of_appendCaseToDataset heach (hdataset _ _ ⟨rfl, Or.inl rfl⟩)
      fun d hd hstatus => hdataset _ _ ⟨rfl, Or.inr ⟨rfl, d, hd, hstatus⟩⟩) fun _ t _ _ => h.refl t
  | freeze workspaceId datasetId listed =>
    exact h.of_bind (hfreeze _ _ _ rfl) fun _ t _ _ => h.refl t
  | launch now listed spec =>
    exact h.of_bind (h.of_buildLoop heach fun source hinline hne =>
      hdataset _ _ ⟨rfl, rfl, hne, source, hinline⟩) fun _ t _ _ => h.refl t

end Rules

/-! ### Cases that are known by a name -/

/-- Models that read a case from the `id`, `workspace_id` and `name` of its row. -/
def namedModels : Models Unit where
  evalCase row :=
    match dictGet row "id", dictGet row "workspace_id", dictGet row "name" with
    | .str id, .str workspaceId, .str name => .ok {
        id
        workspaceId
        content := {
          name
          taxonomy := {
            level := .finalResponse
            featurePrimary := "refunds"
            sourceType := .handcrafted
            datasetType := .regression }
          rest := () } }
    | _, _, _ => .error "missing fields"
  splitAllocation _ := .error "no split"

def namedRow (id name : String) : Json := .obj [("id", .str id), ("name", .str name)]

/-- What the `n`-th request makes. -/
def mintedAt (datasetId : String) (now : Time) : Minted where
  datasetId := datasetId
  now := now
  stamps i := ⟨s!"ec_new_{i}", now, now⟩

/-- A regression dataset is created from rows. -/
def createRegression (datasetId : String) (now : Time) (rows : List Json) : Op Unit :=
  .create "ws_1" (mintedAt datasetId now)
    { name := "refunds"
      datasetType := "regression"
      cases := rows }

/-- The case of a row, as it is stored when it is created. -/
def namedCase (id name : String) (now : Time) (experimentId : Option String) : EvalCase Unit where
  id := id
  workspaceId := "ws_1"
  createdAt := now
  updatedAt := now
  experimentId := experimentId
  content := {
    name := name
    taxonomy := {
      level := .finalResponse
      featurePrimary := "refunds"
      sourceType := .handcrafted
      datasetType := .regression }
    rest := () }

/-- The experiment `id` is launched over a stored dataset. -/
def launchOver (id datasetId : String) (now : Time) (listed : List (EvalCase Unit)) : Op Unit :=
  .launch now listed
    { workspaceId := "ws_1"
      experiment := { Experiment.minimal with id := id }
      cases := []
      datasetSource := .ref ⟨⟨datasetId, none⟩⟩ }

end Selfevals.Api.DatasetSystem
