import Selfevals.Optimization.IterationLoop

/-!
# Persisted trees

Breakdown trees, funnels and confusion reports are persisted as JSON objects. An object is read key
by key: one that is missing has a default, which for a list or a dict is the empty one. A value that
is not of its field's type reads as `none`, like one that raises.
-/

namespace Selfevals.Reporter.PersistedTrees

open Graders.Base Graders.Confusion Lib.JsonValue Lib.Mapping Optimization.Aggregator
  Optimization.IterationLoop Schemas.Iterations

/-! ### Values -/

def asNumber : Json → Option ℚ
  | .float q => some q
  | .int n => some n
  | _ => none

def asCount : Json → Option ℕ
  | .int (.ofNat n) => some n
  | _ => none

def asObject : Json → Option Object
  | .obj fields => some fields
  | _ => none

def asStrings : Json → Option (List String)
  | .arr items => items.mapM Json.asStr
  | _ => none

section Nullable
variable {α : Type}

/-- `None`, or a value. -/
def nullable (write : α → Json) (value : Option α) : Json := (value.map write).getD .null

/-- A value that may be null. -/
def readNullable (read : Json → Option α) (v : Json) : Option (Option α) :=
  if v.isNull then some none else (read v).map some

/-- `data.get(key)` with a default, which is `none` here. -/
def readOpt (read : Json → Option α) (fields : Object) (key : String) : Option (Option α) :=
  match fields.lookup key with
  | none => some none
  | some v => (read v).map some

theorem readNullable_nullable (read : Json → Option α) (write : α → Json)
    (h : ∀ a, read (write a) = some a) (hnull : ∀ a, (write a).isNull = false)
    (value : Option α) : readNullable read (nullable write value) = some value := by
  cases value with
  | none => rfl
  | some a =>
    unfold readNullable nullable
    rw [Option.map_some, Option.getD_some, hnull, if_neg Bool.false_ne_true, h]
    rfl

end Nullable

/-! ### Dicts of values -/

section Dicts
variable {α : Type}

/-- A dict as JSON. -/
def dictJson (write : α → Json) (d : Dict String α) : Json :=
  .obj (d.items.map fun item => (item.1, write item.2))

/-- `dict(…)`, of a dict. -/
def asDict (read : Json → Option α) (v : Json) : Option (Dict String α) := do
  let items ← (← asObject v).mapM fun field => (read field.2).map fun a => (field.1, a)
  return .ofItems items

/-- `data.get(key, {})`, as a dict. -/
def readDict (read : Json → Option α) (fields : Object) (key : String) :
    Option (Dict String α) :=
  match fields.lookup key with
  | none => some .empty
  | some v => asDict read v

theorem mapM_fields {read : Json → Option α} {write : α → Json}
    (h : ∀ a, read (write a) = some a) (items : List (String × α)) :
    ((items.map fun item => (item.1, write item.2)).mapM fun field : String × Json =>
      (read field.2).map fun a => (field.1, a)) = some items := by
  induction items with
  | nil => rfl
  | cons item items ih =>
    rw [List.map_cons, List.mapM_cons, ih, h]
    rfl

theorem asDict_dictJson {read : Json → Option α} {write : α → Json}
    (h : ∀ a, read (write a) = some a) (d : Dict String α) :
    asDict read (dictJson write d) = some d := by
  show (do
    let items ← (d.items.map fun item => (item.1, write item.2)).mapM fun field : String × Json =>
      (read field.2).map fun a => (field.1, a)
    return Dict.ofItems items) = some d
  rw [mapM_fields h]
  exact congrArg some (Dict.ofItems_items d)

theorem readDict_of_lookup (read : Json → Option α) (write : α → Json)
    (h : ∀ a, read (write a) = some a) {fields : Object} {key : String} {d : Dict String α}
    (hlookup : fields.lookup key = some (dictJson write d)) :
    readDict read fields key = some d := by
  unfold readDict
  rw [hlookup]
  exact asDict_dictJson h d

end Dicts

/-! ### Breakdown trees -/

mutual

/-- The object of a payload. -/
def breakdownObject : BreakdownDict → Object
  | .mk key label score weight reason failureModes children =>
    [("key", .str key), ("label", nullable .str label), ("score", nullable .float score)] ++
      optField "weight" (weight.map .float) ++ optField "reason" (reason.map .str) ++
      [("failure_modes", .arr (failureModes.map .str)),
        ("children", .arr (breakdownObjects children))]

def breakdownObjects : List BreakdownDict → List Json
  | [] => []
  | child :: children => .obj (breakdownObject child) :: breakdownObjects children

end

mutual

/-- The payload that an object is. -/
def breakdownPayload : Json → Option BreakdownDict
  | .obj fields => do
    let children ← childrenUnder fields
    let key ← (fields.lookup "key").bind Json.asStr
    let label ← readNullable Json.asStr (dictGet fields "label")
    let score ← readNullable asNumber (dictGet fields "score")
    let weight ← readOpt asNumber fields "weight"
    let reason ← readOpt Json.asStr fields "reason"
    let failureModes ← readOpt asStrings fields "failure_modes"
    return { key, label, score, weight, reason, failureModes := failureModes.getD [], children }
  | _ => none

/-- `data.get("children", [])`, each child read. -/
def childrenUnder : Object → Option (List BreakdownDict)
  | [] => some []
  | (key, v) :: fields => if key = "children" then childItems v else childrenUnder fields

def childItems : Json → Option (List BreakdownDict)
  | .arr items => breakdownPayloads items
  | _ => none

def breakdownPayloads : List Json → Option (List BreakdownDict)
  | [] => some []
  | item :: items => do
    let child ← breakdownPayload item
    let children ← breakdownPayloads items
    return child :: children

end

/-- `BreakdownNode.to_dict`. -/
def breakdownToDict (node : BreakdownNode) : Object := breakdownObject node.toDict

/-- `BreakdownNode.from_dict`. -/
def breakdownFromDict (data : Object) : Option BreakdownNode :=
  (breakdownPayload (.obj data)).bind BreakdownNode.fromDict

theorem childrenUnder_eq (fields : Object) : childrenUnder fields =
    match fields.lookup "children" with
    | none => some []
    | some v => childItems v := by
  induction fields with
  | nil => rw [childrenUnder]; rfl
  | cons field fields ih =>
    obtain ⟨key, v⟩ := field
    rw [childrenUnder, List.lookup_cons]
    by_cases h : key = "children"
    · simp [h]
    · have hne : ("children" == key) = false := by simpa using Ne.symm h
      rw [if_neg h, ih, hne]

section Lookup
variable (key : String) (label : Option String) (score weight : Option ℚ) (reason : Option String)
  (failureModes : List String) (children : List BreakdownDict)

theorem lookup_breakdownObject :
    let fields := breakdownObject (.mk key label score weight reason failureModes children)
    fields.lookup "key" = some (.str key) ∧ fields.lookup "label" = some (nullable .str label) ∧
      fields.lookup "score" = some (nullable .float score) ∧
      fields.lookup "weight" = weight.map .float ∧ fields.lookup "reason" = reason.map .str ∧
      fields.lookup "failure_modes" = some (.arr (failureModes.map .str)) ∧
      fields.lookup "children" = some (.arr (breakdownObjects children)) := by
  rw [breakdownObject]
  simp [List.lookup_append, List.lookup_cons]

end Lookup

theorem asStrings_arr (ss : List String) : asStrings (.arr (ss.map .str)) = some ss :=
  Json.mapM_asStr ss

mutual

theorem breakdownPayload_object : ∀ payload : BreakdownDict,
    breakdownPayload (.obj (breakdownObject payload)) = some payload
  | .mk key label score weight reason failureModes children => by
    have hchildren := breakdownPayloads_objects children
    obtain ⟨hkey, hlabel, hscore, hweight, hreason, hmodes, hkids⟩ :=
      lookup_breakdownObject key label score weight reason failureModes children
    have hlabelRead := readNullable_nullable Json.asStr .str (fun _ => rfl) (fun _ => rfl) label
    have hscoreRead := readNullable_nullable asNumber .float (fun _ => rfl) (fun _ => rfl) score
    rw [breakdownPayload, childrenUnder_eq, hkids]
    simp only [childItems, hchildren, hkey, dictGet, hlabel, hscore, readOpt, hweight, hreason,
      hmodes, Option.getD_some, hlabelRead, hscoreRead, asStrings_arr]
    cases weight <;> cases reason <;> rfl

theorem breakdownPayloads_objects : ∀ payloads : List BreakdownDict,
    breakdownPayloads (breakdownObjects payloads) = some payloads
  | [] => by rw [breakdownObjects, breakdownPayloads]
  | payload :: payloads => by
    rw [breakdownObjects, breakdownPayloads, breakdownPayload_object payload,
      breakdownPayloads_objects payloads]
    rfl

end

/-- **A breakdown tree reads back as it was.** -/
theorem breakdownFromDict_toDict (node : BreakdownNode) :
    breakdownFromDict (breakdownToDict node) = some node := by
  unfold breakdownFromDict breakdownToDict
  rw [breakdownPayload_object]
  exact Graders.Base.fromDict_toDict node

/-! ### Funnels -/

/-- A count, as an integer. -/
def countJson (n : ℕ) : Json := .int n

mutual

/-- The JSON object of a funnel node. -/
def funnelObject : FunnelDict → Object
  | .mk key count meanScore totalWeight labelCounts failureModeCounts children =>
    [("key", .str key)] ++ optField "count" (count.map countJson) ++
      [("mean_score", nullable .float meanScore)] ++
      optField "total_weight" (totalWeight.map .float) ++
      [("label_counts", dictJson countJson labelCounts),
        ("failure_mode_counts", dictJson countJson failureModeCounts),
        ("children", .obj (funnelObjects children))]

def funnelObjects : List (String × FunnelDict) → Object
  | [] => []
  | (key, child) :: children => (key, .obj (funnelObject child)) :: funnelObjects children

end

mutual

/-- The funnel node that a JSON object holds. -/
def funnelPayload : Json → Option FunnelDict
  | .obj fields => do
    let children ← funnelsUnder fields
    let key ← (fields.lookup "key").bind Json.asStr
    let count ← readOpt asCount fields "count"
    let meanScore ← readNullable asNumber (dictGet fields "mean_score")
    let totalWeight ← readOpt asNumber fields "total_weight"
    let labelCounts ← readDict asCount fields "label_counts"
    let failureModeCounts ← readDict asCount fields "failure_mode_counts"
    return { key, count, meanScore, totalWeight, labelCounts, failureModeCounts, children }
  | _ => none

/-- `data.get("children") or {}`, each child read. -/
def funnelsUnder : Object → Option (List (String × FunnelDict))
  | [] => some []
  | (key, v) :: fields => if key = "children" then funnelItems v else funnelsUnder fields

def funnelItems : Json → Option (List (String × FunnelDict))
  | .obj fields => funnelPayloads fields
  | v => if v.truthy then none else some []

def funnelPayloads : Object → Option (List (String × FunnelDict))
  | [] => some []
  | (key, v) :: fields => do
    let child ← funnelPayload v
    let children ← funnelPayloads fields
    return (key, child) :: children

end

/-- `FunnelNode.to_dict`. -/
def funnelToDict (node : FunnelNode) : Object := funnelObject (FunnelNode.toDict node)

/-- `FunnelNode.from_dict`. -/
def funnelFromDict (data : Object) : Option FunnelNode :=
  (funnelPayload (.obj data)).map FunnelNode.fromDict

theorem funnelsUnder_eq (fields : Object) : funnelsUnder fields =
    match fields.lookup "children" with
    | none => some []
    | some v => funnelItems v := by
  induction fields with
  | nil => rw [funnelsUnder]; rfl
  | cons field fields ih =>
    obtain ⟨key, v⟩ := field
    rw [funnelsUnder, List.lookup_cons]
    by_cases h : key = "children"
    · simp [h]
    · have hne : ("children" == key) = false := by simpa using Ne.symm h
      rw [if_neg h, ih, hne]

section Lookup
variable (key : String) (count : Option ℕ) (meanScore totalWeight : Option ℚ)
  (labelCounts failureModeCounts : Dict String ℕ) (children : List (String × FunnelDict))

theorem lookup_funnelObject :
    let fields := funnelObject
      (.mk key count meanScore totalWeight labelCounts failureModeCounts children)
    fields.lookup "key" = some (.str key) ∧ fields.lookup "count" = count.map countJson ∧
      fields.lookup "mean_score" = some (nullable .float meanScore) ∧
      fields.lookup "total_weight" = totalWeight.map .float ∧
      fields.lookup "label_counts" = some (dictJson countJson labelCounts) ∧
      fields.lookup "failure_mode_counts" = some (dictJson countJson failureModeCounts) ∧
      fields.lookup "children" = some (.obj (funnelObjects children)) := by
  rw [funnelObject]
  simp [List.lookup_append, List.lookup_cons]

end Lookup

mutual

theorem funnelPayload_object : ∀ payload : FunnelDict,
    funnelPayload (.obj (funnelObject payload)) = some payload
  | .mk key count meanScore totalWeight labelCounts failureModeCounts children => by
    have hchildren := funnelPayloads_objects children
    obtain ⟨hkey, hcount, hmean, hweight, hlabels, hmodes, hkids⟩ := lookup_funnelObject key count
      meanScore totalWeight labelCounts failureModeCounts children
    have hmeanRead := readNullable_nullable asNumber .float (fun _ => rfl) (fun _ => rfl) meanScore
    have hlabelsRead := readDict_of_lookup asCount countJson (fun _ => rfl) hlabels
    have hmodesRead := readDict_of_lookup asCount countJson (fun _ => rfl) hmodes
    rw [funnelPayload, funnelsUnder_eq, hkids]
    simp only [funnelItems, hchildren, hkey, dictGet, readOpt, hcount, hmean, hweight,
      Option.getD_some, hmeanRead, hlabelsRead, hmodesRead]
    cases count <;> cases totalWeight <;> rfl

theorem funnelPayloads_objects : ∀ payloads : List (String × FunnelDict),
    funnelPayloads (funnelObjects payloads) = some payloads
  | [] => by rw [funnelObjects, funnelPayloads]
  | (key, payload) :: payloads => by
    rw [funnelObjects, funnelPayloads, funnelPayload_object payload,
      funnelPayloads_objects payloads]
    rfl

end

/-- **A funnel reads back as it was.** -/
theorem funnelFromDict_toDict (node : FunnelNode) :
    funnelFromDict (funnelToDict node) = some node := by
  unfold funnelFromDict funnelToDict
  rw [funnelPayload_object]
  exact congrArg some (Optimization.IterationLoop.fromDict_toDict node)

/-! ### Confusion reports -/

/-- `to_nested`. -/
def toNested (confusion : Dict (String × String) ℕ) : Dict String (Dict String ℕ) :=
  confusion.items.foldl (fun nested item =>
    nested.set item.1.1 (((nested.get? item.1.1).getD .empty).set item.1.2 item.2)) .empty

/-- The cells of the rows, in their order. -/
def ofNested (matrix : Dict String (Dict String ℕ)) : Dict (String × String) ℕ :=
  .ofItems (matrix.items.flatMap fun row => row.2.items.map fun cell => ((row.1, cell.1), cell.2))

/-- `ConfusionReport.to_dict`. -/
def confusionToDict (report : ConfusionReport) : Object := [
  ("n_pairs", countJson report.nPairs),
  ("accuracy", .float report.accuracy),
  ("macro_f1", nullable .float report.macroF1),
  ("labels", .arr (report.labels.map .str)),
  ("matrix", dictJson (dictJson countJson) (toNested report.confusion)),
  ("per_label_precision", dictJson (nullable .float) report.perLabelPrecision),
  ("per_label_recall", dictJson (nullable .float) report.perLabelRecall),
  ("per_label_f1", dictJson (nullable .float) report.perLabelF1)]

/-- `ConfusionReport.from_dict`. -/
def confusionFromDict (data : Object) : Option ConfusionReport := do
  let matrix ← readDict (asDict asCount) data "matrix"
  let nPairs ← readOpt asCount data "n_pairs"
  let accuracy ← readOpt asNumber data "accuracy"
  let macroF1 ← readNullable asNumber (dictGet data "macro_f1")
  let labels ← readOpt asStrings data "labels"
  let perLabelPrecision ← readDict (readNullable asNumber) data "per_label_precision"
  let perLabelRecall ← readDict (readNullable asNumber) data "per_label_recall"
  let perLabelF1 ← readDict (readNullable asNumber) data "per_label_f1"
  return {
    nPairs := nPairs.getD 0
    accuracy := accuracy.getD 0
    macroF1
    labels := labels.getD []
    confusion := ofNested matrix
    perLabelPrecision
    perLabelRecall
    perLabelF1 }

/-- **The rows of a matrix hold its cells.** -/
theorem get?_toNested (confusion : Dict (String × String) ℕ) (expected predicted : String) :
    ((toNested confusion).get? expected).bind (·.get? predicted) =
      confusion.get? (expected, predicted) := by
  -- a nested dict and a flat one that agree still do when the same cell is set in both
  have hfold : ∀ (items : List ((String × String) × ℕ)) (nested : Dict String (Dict String ℕ))
      (flat : Dict (String × String) ℕ),
      (∀ e p, (nested.get? e).bind (·.get? p) = flat.get? (e, p)) →
      ((items.foldl (fun nested item =>
        nested.set item.1.1 (((nested.get? item.1.1).getD .empty).set item.1.2 item.2))
          nested).get? expected).bind (·.get? predicted) =
        (items.foldl (fun d item => d.set item.1 item.2) flat).get? (expected, predicted) := by
    intro items
    induction items with
    | nil => exact fun nested flat h => h expected predicted
    | cons item items ih =>
      intro nested flat h
      refine ih _ _ fun e p => ?_
      rw [Dict.get?_set, Dict.get?_set]
      by_cases he : e = item.1.1
      · subst he
        rw [if_pos rfl, Option.bind_some, Dict.get?_set]
        by_cases hp : p = item.1.2
        · subst hp
          rw [if_pos rfl, if_pos rfl]
        · have hrow : ((nested.get? item.1.1).getD .empty).get? p = flat.get? (item.1.1, p) := by
            rw [← h]
            cases nested.get? item.1.1 <;> rfl
          rw [if_neg hp, if_neg fun heq => hp (congrArg Prod.snd heq), hrow]
      · rw [if_neg he, if_neg fun heq => he (congrArg Prod.fst heq), h]
  have hcells := hfold confusion.items .empty .empty fun _ _ => rfl
  exact hcells.trans (congrArg (·.get? (expected, predicted)) (Dict.ofItems_items confusion))

theorem get?_ofNested (matrix : Dict String (Dict String ℕ)) (expected predicted : String) :
    (ofNested matrix).get? (expected, predicted) =
      (matrix.get? expected).bind (·.get? predicted) := by
  have hnodup : ((matrix.items.flatMap fun row => row.2.items.map fun cell =>
      ((row.1, cell.1), cell.2)).map Prod.fst).Nodup := by
    rw [List.map_flatMap, List.nodup_flatMap]
    constructor
    · intro row _
      rw [List.map_map]
      have hcells : (row.2.items.map fun cell => (row.1, cell.1)) =
          (row.2.items.map Prod.fst).map (Prod.mk row.1) := by rw [List.map_map]; rfl
      show (row.2.items.map fun cell => (row.1, cell.1)).Nodup
      rw [hcells]
      exact row.2.nodup.map (Prod.mk_right_injective row.1)
    · refine (List.pairwise_map.mp matrix.nodup).imp fun {row row'} hne => ?_
      rw [Function.onFun, List.disjoint_left]
      intro cell hcell hcell'
      obtain ⟨item, hitem, rfl⟩ := List.mem_map.mp hcell
      obtain ⟨item', hitem', heq⟩ := List.mem_map.mp hcell'
      obtain ⟨c, -, rfl⟩ := List.mem_map.mp hitem
      obtain ⟨c', -, rfl⟩ := List.mem_map.mp hitem'
      exact hne (congrArg Prod.fst heq).symm
  have hitems : (ofNested matrix).items = _ := congrArg Dict.items (Dict.ofItems_items ⟨_, hnodup⟩)
  refine Option.ext fun n => ?_
  rw [← Dict.mem_items_iff, hitems, Option.bind_eq_some_iff, List.mem_flatMap]
  constructor
  · rintro ⟨⟨e, row⟩, hrow, hcell⟩
    obtain ⟨⟨p, c⟩, hitem, heq⟩ := List.mem_map.mp hcell
    cases heq
    exact ⟨row, (matrix.mem_items_iff _ _).mp hrow, (row.mem_items_iff _ _).mp hitem⟩
  · rintro ⟨row, hrow, hcell⟩
    exact ⟨(expected, row), (matrix.mem_items_iff _ _).mpr hrow,
      List.mem_map.mpr ⟨(predicted, n), (row.mem_items_iff _ _).mpr hcell, rfl⟩⟩

theorem ofNested_toNested (confusion : Dict (String × String) ℕ) :
    (ofNested (toNested confusion)).Same confusion := fun (expected, predicted) =>
  (get?_ofNested _ expected predicted).trans (get?_toNested confusion expected predicted)

theorem lookup_confusionToDict (report : ConfusionReport) :
    let fields := confusionToDict report
    fields.lookup "n_pairs" = some (countJson report.nPairs) ∧
      fields.lookup "accuracy" = some (.float report.accuracy) ∧
      fields.lookup "macro_f1" = some (nullable .float report.macroF1) ∧
      fields.lookup "labels" = some (.arr (report.labels.map .str)) ∧
      fields.lookup "matrix" = some (dictJson (dictJson countJson) (toNested report.confusion)) ∧
      fields.lookup "per_label_precision" =
        some (dictJson (nullable .float) report.perLabelPrecision) ∧
      fields.lookup "per_label_recall" = some (dictJson (nullable .float) report.perLabelRecall) ∧
      fields.lookup "per_label_f1" = some (dictJson (nullable .float) report.perLabelF1) := by
  unfold confusionToDict
  simp [List.lookup_cons]

/-- **A confusion report reads back** with the same cells, in the order of the rows. -/
theorem confusionFromDict_toDict (report : ConfusionReport) :
    ∃ report', confusionFromDict (confusionToDict report) = some report' ∧ report'.Same report := by
  obtain ⟨hpairs, haccuracy, hmacro, hlabels, hmatrix, hprecision, hrecall, hf1⟩ :=
    lookup_confusionToDict report
  have hmatrixRead := readDict_of_lookup (asDict asCount) (dictJson countJson)
    (asDict_dictJson fun _ => rfl) hmatrix
  have hnullable := readNullable_nullable asNumber .float (fun _ => rfl) fun _ => rfl
  have hprecisionRead := readDict_of_lookup (readNullable asNumber) (nullable .float) hnullable
    hprecision
  have hrecallRead := readDict_of_lookup (readNullable asNumber) (nullable .float) hnullable hrecall
  have hf1Read := readDict_of_lookup (readNullable asNumber) (nullable .float) hnullable hf1
  refine ⟨{ report with confusion := ofNested (toNested report.confusion) }, ?_, ?_⟩
  · unfold confusionFromDict
    rw [hmatrixRead, hprecisionRead, hrecallRead, hf1Read]
    simp only [readOpt, hpairs, haccuracy, hlabels, dictGet, hmacro, Option.getD_some, hnullable,
      asStrings_arr]
    rfl
  · exact ⟨rfl, rfl, rfl, rfl, ofNested_toNested _, .refl _, .refl _, .refl _⟩

/-- **Persisted trees read back.** Confusion reports are compared as Python compares them, the cells
in any order. -/
theorem persisted_trees :
    (∀ node, breakdownFromDict (breakdownToDict node) = some node) ∧
      (∀ node, funnelFromDict (funnelToDict node) = some node) ∧
      ∀ report, ∃ report', confusionFromDict (confusionToDict report) = some report' ∧
        report'.Same report :=
  ⟨breakdownFromDict_toDict, funnelFromDict_toDict, confusionFromDict_toDict⟩

end Selfevals.Reporter.PersistedTrees
