import Selfevals.Api.DatasetSystem

/-!
# The cases of an experiment

A case row names one experiment, and every launch over a shared dataset stamps its own. An
experiment keeps its cases listed as long as no case it was launched with is written for another.
-/

namespace Selfevals.Api.ExperimentCases

open Lib.Effects Lib.Run Schemas.Base Schemas.Datasets Storage.DatasetStore Storage.Entity
  Repo.Datasets Runner.LaunchDatasets Api.DatasetWriter Api.DatasetSystem

variable {κ : Type}

/-- The case belongs to every experiment that was launched with it. -/
def KeepsOwner (launched : List Launched) (_ : Store κ) (c : EvalCase κ) : Prop :=
  ∀ l ∈ launched, c.id ∈ l.caseIds → c.experimentId = some l.experimentId
deriving Decidable

/-- The operation writes no case of a launched experiment for another experiment. -/
def KeepsOwners (models : Models κ) (w : World κ) (op : Op κ) : Prop :=
  op.EachCase models (KeepsOwner w.launched) w.store
deriving Decidable

/-- Every case that an experiment was launched with is stored as its own. -/
def Owned (launched : List Launched) (s : Store κ) : Prop :=
  ∀ l ∈ launched, ∀ id ∈ l.caseIds, ∃ c, s.cases.find? id = some c ∧
    c.workspaceId = l.workspaceId ∧ c.experimentId = some l.experimentId

/-- `eval_cases_for_experiment` returns all the cases the experiment was launched with. -/
def Lists (s : Store κ) (l : Launched) : Prop :=
  ∀ id ∈ l.caseIds, id ∈ (evalCasesForExperiment s.cases l.workspaceId l.experimentId).map (·.id)

theorem Owned.lists {launched : List Launched} {s : Store κ} (h : Owned launched s) {l : Launched}
    (hl : l ∈ launched) : Lists s l := by
  intro id hid
  obtain ⟨c, hfind, hws, hexp⟩ := h l hl id hid
  have hcid : c.id = id := (Storage.Tables.Table.find?_eq_some.mp hfind).2
  exact List.mem_map.mpr
    ⟨c, mem_evalCasesForExperiment.mpr ⟨by rw [hcid]; exact hfind, hws, hexp⟩, hcid⟩

theorem owned_append {l₁ l₂ : List Launched} {s : Store κ} (h₁ : Owned l₁ s) (h₂ : Owned l₂ s) :
    Owned (l₁ ++ l₂) s := fun l hl =>
  (List.mem_append.mp hl).elim (h₁ l) (h₂ l)

/-! ### Writes -/

theorem owned_put_case {launched : List Launched} {s t : Store κ} {workspaceId : String}
    {c : EvalCase κ} (hc : KeepsOwner launched s c) (hput : s.put workspaceId (.case c) = .ok t)
    (hs : Owned launched s) : Owned launched t := by
  obtain ⟨hcheck, -, hfind⟩ := put_case hput
  intro l hl id hid
  obtain ⟨row, hrow, hws, hexp⟩ := hs l hl id hid
  by_cases heq : id = c.id
  · subst heq
    rw [hrow] at hcheck hfind
    obtain ⟨hcws, hrowws⟩ := checkPut_eq_ok hcheck
    exact ⟨upsert (some row) c, by rw [hfind, if_pos rfl], hcws.trans (hrowws.symm.trans hws),
      hc l hl hid⟩
  · exact ⟨row, by rw [hfind, if_neg heq, hrow], hws, hexp⟩

theorem owned_respects (launched : List Launched) :
    Respects (κ := κ) (KeepsOwner launched) fun s t => Owned launched s → Owned launched t where
  refl _ h := h
  trans _ _ _ hst htu h := htu (hst h)
  experiment hput h := by
    unfold Owned
    rw [(put_experiment hput).1]
    exact h
  case := owned_put_case

theorem owned_put_dataset {launched : List Launched} {s t : Store κ} {workspaceId : String}
    {d : Dataset} (hput : s.put workspaceId (.dataset d) = .ok t) (hs : Owned launched s) :
    Owned launched t := by
  unfold Owned
  rw [(put_dataset hput).2.1]
  exact hs

theorem owned_freeze {launched : List Launched} (digest : Payload κ → String)
    (workspaceId datasetId : String) (listed : List (EvalCase κ)) {s : Store κ}
    (hs : Owned launched s) :
    Owned launched ((freezeDataset digest workspaceId datasetId listed).run s).2 := by
  have hrespects := owned_respects (κ := κ) launched
  unfold freezeDataset
  refine hrespects.of_bind id (fun d t hget hst => ?_) hs
  refine hrespects.of_bind id fun frozen u _ htu => ?_
  exact hrespects.of_putEntity fun v hput => owned_put_dataset hput

/-! ### Launches -/

section Launch
variable {digest : Payload κ → String}

theorem materializeInlineDataset_eq_ok {now : Time} {spec spec' : LaunchSpec κ} {s t : Store κ}
    (h : (materializeInlineDataset digest now spec).run s = (.ok spec', t)) :
    spec'.workspaceId = spec.workspaceId ∧ spec'.experiment.id = spec.experiment.id ∧
      spec'.cases = spec.cases ∧ t.cases = s.cases := by
  unfold materializeInlineDataset at h
  split at h
  · obtain ⟨hok, rfl⟩ := Prod.mk.inj h
    obtain rfl := Except.ok.inj hok
    exact ⟨rfl, rfl, rfl, rfl⟩
  · obtain ⟨hok, rfl⟩ := Prod.mk.inj h
    obtain rfl := Except.ok.inj hok
    exact ⟨rfl, rfl, rfl, rfl⟩
  · obtain ⟨prior, u, hprior, h₁⟩ := run_bind_eq_ok.mp h
    obtain ⟨-, rfl⟩ := run_query_eq_ok.mp hprior
    obtain ⟨d, v, hbuild, h₂⟩ := run_bind_eq_ok.mp h₁
    obtain ⟨-, rfl⟩ := run_tryQuery_eq_ok.mp hbuild
    obtain ⟨⟨⟩, w, hput, h₃⟩ := run_bind_eq_ok.mp h₂
    obtain ⟨hok, rfl⟩ := Prod.mk.inj h₃
    obtain rfl := Except.ok.inj hok
    exact ⟨rfl, rfl, rfl, (put_dataset (putEntity_eq_ok.mp hput)).2.1⟩

theorem owned_of_launch {now : Time} {listed : List (EvalCase κ)} {spec spec' : LaunchSpec κ}
    {s t : Store κ} (h : (buildLoop digest now listed spec).run s = (.ok spec', t)) :
    Owned [⟨spec'.workspaceId, spec'.experiment.id, spec'.cases.map (·.id)⟩] t := by
  unfold buildLoop at h
  obtain ⟨⟨resolved, split⟩, u, hresolve, h⟩ := run_bind_eq_ok.mp h
  obtain ⟨⟨⟩, v, hexperiment, h⟩ := run_bind_eq_ok.mp h
  obtain ⟨⟨⟩, w, hput, h⟩ := run_bind_eq_ok.mp h
  obtain ⟨hws, hid, hcases, htable⟩ := materializeInlineDataset_eq_ok h
  intro l hl id hcase
  obtain rfl := List.mem_singleton.mp hl
  dsimp only at hcase ⊢
  rw [hcases] at hcase
  obtain ⟨c, hc, rfl⟩ := List.mem_map.mp hcase
  rw [htable, hws, hid]
  let Stamped : EvalCase κ → Prop := fun r => r.workspaceId = resolved.workspaceId ∧
    r.experimentId = some resolved.experiment.id
  suffices hstamped : ∀ c' ∈ resolved.cases.map (stampCase resolved.experiment.id), ∀ existing,
      checkPut resolved.workspaceId existing c' = .ok () → Stamped (upsert existing c') from
    stored_of_putCases hstamped hput (Or.inl ⟨c, hc, rfl⟩)
  intro c' hc' existing hcheck
  obtain ⟨c₀, -, rfl⟩ := List.mem_map.mp hc'
  refine ⟨?_, ?_⟩
  · have hws' := checkPut_workspaceId hcheck
    cases existing <;> exact hws'
  · rw [stampCase_eq]
    cases existing <;> rfl

end Launch

/-! ### Runs -/

section Runs
variable [DecidableEq κ] {digest : Payload κ → String} {models : Models κ}

theorem owned_step {w w' : World κ} {op : Op κ} (hw : Owned w.launched w.store)
    (hop : KeepsOwners models w op) (hstep : step digest models w op = some w') :
    Owned w'.launched w'.store := by
  obtain ⟨-, hstore, hlaunched⟩ := step_eq_some hstep
  have hold : Owned w.launched w'.store := by
    rw [hstore]
    exact (owned_respects w.launched).of_perform hop
      (fun _ _ _ _ _ _ _ _ _ hput => owned_put_dataset hput)
      (fun workspaceId datasetId listed _ => owned_freeze digest workspaceId datasetId listed) hw
  rw [hlaunched]
  refine owned_append hold fun l hl => ?_
  obtain ⟨now, listed, spec, spec', rfl, hrun, rfl⟩ :=
    launched_of_perform (Option.mem_toList.mp hl)
  rw [hstore]
  exact owned_of_launch hrun _ (List.mem_singleton_self _)

/-- **Every experiment keeps its cases listed**, in every run in which no operation writes a case of
one launched experiment for another. -/
theorem cases_stay_listed (s : Store κ) {ops : List (Op κ)} {w : World κ}
    (hguarded : Guarded (step digest models) (KeepsOwners models) { store := s } ops)
    (hexec : exec (step digest models) { store := s } ops = some w) :
    ∀ l ∈ w.launched, Lists w.store l := by
  have hempty : Owned ({ store := s } : World κ).launched s := fun l hl => nomatch hl
  have hw : Owned w.launched w.store :=
    inv_of_guarded (I := fun w => Owned w.launched w.store)
      (fun _ _ _ hI hG hs => owned_step hI hG hs) hempty hguarded hexec
  exact fun l hl => hw.lists hl

end Runs

/-! ### Two launches over one dataset -/

/-- Two datasets with a case each. -/
def twoDatasets : List (Op Unit) :=
  [createRegression "ds_1" 0 [namedRow "ec_1" "late refund"],
    createRegression "ds_2" 1 [namedRow "ec_2" "no refund"]]

/-- An experiment is launched over each, and the first one again. -/
def launchApart : List (Op Unit) :=
  [launchOver "exp_1" "ds_1" 2
      [namedCase "ec_2" "no refund" 1 none, namedCase "ec_1" "late refund" 0 none],
    launchOver "exp_2" "ds_2" 3
      [namedCase "ec_2" "no refund" 1 none, namedCase "ec_1" "late refund" 0 (some "exp_1")],
    launchOver "exp_1" "ds_1" 4 [namedCase "ec_2" "no refund" 1 (some "exp_2"),
      namedCase "ec_1" "late refund" 0 (some "exp_1")]]

theorem cases_stay_listed_apart : ∃ w,
    exec (step (fun _ => "") namedModels) {} (twoDatasets ++ launchApart) = some w ∧
      w.launched.length = 3 ∧ ∀ l ∈ w.launched, Lists w.store l :=
  have hguarded : Guarded (step (fun _ => "") namedModels) (KeepsOwners namedModels) {}
      (twoDatasets ++ launchApart) := by decide +kernel
  ⟨_, rfl, rfl, cases_stay_listed {} hguarded rfl⟩

/-- A second experiment over the same dataset takes its case from the first. -/
theorem relaunched_takes_cases : ∃ w l,
    exec (step (fun _ => "") namedModels) {} (twoDatasets ++
      [launchOver "exp_1" "ds_1" 2
        [namedCase "ec_2" "no refund" 1 none, namedCase "ec_1" "late refund" 0 none],
      launchOver "exp_2" "ds_1" 3 [namedCase "ec_2" "no refund" 1 none,
        namedCase "ec_1" "late refund" 0 (some "exp_1")]]) = some w ∧
      l ∈ w.launched ∧
      evalCasesForExperiment w.store.cases l.workspaceId l.experimentId = [] ∧
      ¬ Lists w.store l :=
  ⟨_, ⟨"ws_1", "exp_1", ["ec_1"]⟩, rfl, by decide +kernel, rfl,
    fun h => absurd (h "ec_1" (by decide)) (by decide +kernel)⟩

end Selfevals.Api.ExperimentCases
