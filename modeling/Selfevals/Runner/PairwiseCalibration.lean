import Mathlib.Data.String.Basic
import Selfevals.Lib.Mapping
import Selfevals.Lib.Sql

/-!
# Calibration of pairwise judges

Where an LLM and a human judged the same pair by the same version of a rubric, `computeCalibration`
counts whether they agree. Two verdicts are of one pair whichever side is written first, but what
they prefer is compared as it is written.
-/

namespace Selfevals.Runner.PairwiseCalibration

open Lib.Mapping Lib.Sql

/-! ### Verdicts -/

/-- The side that is preferred, or none. -/
inductive Preferred
  | a | b | tie
deriving DecidableEq, Repr

/-- Who judged. -/
inductive JudgeKind
  | llm | human
deriving DecidableEq, Repr

/-- A side of a pair, by what it names. -/
structure PairRef where
  traceId : Option String := none
  contentSnapshot : Option String := none
deriving DecidableEq, Repr

/-- A verdict that was stored. -/
structure PairwiseVerdict where
  aRef : PairRef
  bRef : PairRef
  preferred : Preferred
  judgeKind : JudgeKind
  rubricVersion : Option ℕ := none
  experimentId : Option String := none
  caseId : Option String := none
deriving DecidableEq, Repr

/-- `x or y` of an optional string. -/
def orElse (x y : Option String) : Option String := if x.getD "" = "" then y else x

def side (r : PairRef) : String := (orElse r.traceId (orElse r.contentSnapshot (some ""))).getD ""

/-- `_pair_key`. -/
def pairKey (v : PairwiseVerdict) : String × String :=
  let a := side v.aRef
  let b := side v.bRef
  if a ≤ b then (a, b) else (b, a)

/-- A filter that is given must be met. -/
def meets {α : Type} [DecidableEq α] (filter : Option α) (value : Option α) : Bool :=
  filter = none || filter = value

@[simp] theorem meets_none {α : Type} [DecidableEq α] (value : Option α) :
  meets none value = true := rfl

/-- `list_verdicts`. -/
def listVerdicts (stored : List PairwiseVerdict) (experimentId caseId : Option String := none)
    (judgeKind : Option JudgeKind := none) : List PairwiseVerdict :=
  stored.filter fun v =>
    meets experimentId v.experimentId && meets caseId v.caseId && meets judgeKind (some v.judgeKind)

/-! ### Calibration -/

/-- How often two judges agree. -/
structure CalibrationCell where
  rubricVersion : Option ℕ
  comparedPairs : ℕ
  agreements : ℕ
  disagreements : ℕ
deriving DecidableEq, Repr

/-- How a judge agrees with humans. -/
structure CalibrationReport where
  comparedPairs : ℕ
  agreements : ℕ
  disagreements : ℕ
  byRubricVersion : List CalibrationCell := []
deriving DecidableEq, Repr

/-- `d[k]` of a `defaultdict(dict)`, changed in place. -/
def update {κ κ' α : Type} [DecidableEq κ] (d : Dict κ (Dict κ' α)) (k : κ)
    (f : Dict κ' α → Dict κ' α) : Dict κ (Dict κ' α) :=
  d.set k (f ((d.get? k).getD .empty))

/-- What each kind of judge preferred, by pair and rubric version. -/
abbrev Judged := Dict (String × String) (Dict (Option ℕ) (Dict JudgeKind Preferred))

/-- One more verdict. -/
def record (d : Judged) (v : PairwiseVerdict) : Judged :=
  update d (pairKey v) fun versions =>
    update versions v.rubricVersion fun judged => judged.set v.judgeKind v.preferred

/-- The verdicts, gathered by pair and judge. -/
def byPair (verdicts : List PairwiseVerdict) : Judged := verdicts.foldl record .empty

/-- Whether the two kinds of judge agree, if both judged. -/
def agreed (judged : Dict JudgeKind Preferred) : Option Bool := do
  return decide ((← judged.get? .llm) = (← judged.get? .human))

/-- The comparisons of the two loops: a rubric version each, and whether the judges agreed. -/
def comparisons (d : Judged) : List (Option ℕ × Bool) :=
  d.values.flatMap fun versions =>
    versions.items.filterMap fun item => (agreed item.2).map fun same => (item.1, same)

/-- The report of the comparisons. The numbers come before `None`. -/
def report (compared : List (Option ℕ × Bool)) : CalibrationReport :=
  let perVersionAgree := Dict.count ((compared.filter fun c => c.2).map Prod.fst)
  let perVersionDisagree := Dict.count ((compared.filter fun c => !c.2).map Prod.fst)
  let versions := (perVersionAgree.keys ++ perVersionDisagree.keys).dedup
  let cells := (orderBy (fun x : Option ℕ => toLex (x.isNone, x.getD 0)) versions).map fun rv =>
    let agree := (perVersionAgree.get? rv).getD 0
    let disagree := (perVersionDisagree.get? rv).getD 0
    { rubricVersion := rv, comparedPairs := agree + disagree, agreements := agree
      disagreements := disagree : CalibrationCell }
  let totalAgree := perVersionAgree.values.sum
  let totalDisagree := perVersionDisagree.values.sum
  { comparedPairs := totalAgree + totalDisagree, agreements := totalAgree
    disagreements := totalDisagree, byRubricVersion := cells }

/-- `compute_calibration`, over the verdicts that are stored. -/
def computeCalibration (stored : List PairwiseVerdict) (experimentId : Option String) :
    CalibrationReport :=
  report (comparisons (byPair (listVerdicts stored experimentId)))

/-! ### Mirrored verdicts -/

def Preferred.mirror : Preferred → Preferred
  | .a => .b
  | .b => .a
  | .tie => .tie

/-- The verdict with its sides exchanged. -/
def PairwiseVerdict.mirror (v : PairwiseVerdict) : PairwiseVerdict :=
  { v with aRef := v.bRef, bRef := v.aRef, preferred := v.preferred.mirror }

@[simp] theorem mirror_judgeKind (v : PairwiseVerdict) : v.mirror.judgeKind = v.judgeKind := rfl
@[simp] theorem mirror_rubricVersion (v : PairwiseVerdict) :
  v.mirror.rubricVersion = v.rubricVersion := rfl
/-- Some of the verdicts, with their sides exchanged. -/
def mirrored (mask : ℕ → Bool) (stored : List PairwiseVerdict) : List PairwiseVerdict :=
  stored.mapIdx fun i v => if mask i then v.mirror else v

/-- The last verdict of a kind on a pair by a rubric version. -/
def deciding (verdicts : List PairwiseVerdict) (pair : String × String) (rubricVersion : Option ℕ)
    (kind : JudgeKind) : Option PairwiseVerdict :=
  (verdicts.filter fun v =>
    pairKey v = pair && v.rubricVersion = rubricVersion && v.judgeKind = kind).getLast?

/-- Wherever an LLM is compared with a human, one of the two verdicts is a tie. -/
def TieInEach (verdicts : List PairwiseVerdict) : Prop :=
  ∀ pair rubricVersion llm human, deciding verdicts pair rubricVersion .llm = some llm →
    deciding verdicts pair rubricVersion .human = some human →
      llm.preferred = .tie ∨ human.preferred = .tie

/-! ### The report of the comparisons -/

theorem versionKey_injective : Function.Injective fun x :
    Option ℕ => toLex (x.isNone, x.getD 0) := by
  rintro (_ | m) (_ | n) h
  · rfl
  · exact absurd (congrArg (fun p => (ofLex p).1) h) (by simp)
  · exact absurd (congrArg (fun p => (ofLex p).1) h) (by simp)
  · exact congrArg some (congrArg (fun p => (ofLex p).2) h)

/-- **The order of the comparisons does not show** in the report. -/
theorem report_perm {compared compared' : List (Option ℕ × Bool)} (h : compared.Perm compared') :
    report compared = report compared' := by
  have hagree := Dict.count_same ((h.filter fun c => c.2).map Prod.fst)
  have hdisagree := Dict.count_same ((h.filter fun c => !c.2).map Prod.fst)
  have hversions := (hagree.perm_keys.append hdisagree.perm_keys).dedup
  have hordered := orderBy_congr versionKey_injective hversions
  have hsum := (hagree.perm_items.map Prod.snd).sum_eq
  have hsum' := (hdisagree.perm_items.map Prod.snd).sum_eq
  unfold report
  dsimp only
  rw [hordered, Dict.values, hsum, Dict.values, hsum']
  congr 1
  exact List.map_congr_left fun rv _ => by rw [hagree, hdisagree]

theorem agreements_report (compared : List (Option ℕ × Bool)) :
    (report compared).agreements = compared.countP fun c => c.2 := by
  show (Dict.count _).values.sum = _
  rw [Dict.sum_values_count, List.length_map, List.countP_eq_length_filter]

/-! ### What is compared -/

/-- What a kind of judge preferred. -/
def read (d : Judged) (pair : String × String) (rv : Option ℕ) (kind : JudgeKind) :
    Option Preferred := do
  (← (← d.get? pair).get? rv).get? kind

theorem get?_update {κ κ' α : Type} [DecidableEq κ] (d : Dict κ (Dict κ' α)) (k : κ)
    (f : Dict κ' α → Dict κ' α) (k' : κ) :
    (update d k f).get? k' = if k' = k then some (f ((d.get? k).getD .empty)) else d.get? k' :=
  Dict.get?_set _ _ _ _

theorem get?_getD_empty {κ α : Type} [DecidableEq κ] (d : Option (Dict κ α)) (k : κ) :
    (d.getD .empty).get? k = d.bind fun e => e.get? k := by
  cases d <;> rfl

theorem read_record (d : Judged) (v : PairwiseVerdict) (pair : String × String) (rv : Option ℕ)
    (kind : JudgeKind) : read (record d v) pair rv kind =
      if pairKey v = pair ∧ v.rubricVersion = rv ∧ v.judgeKind = kind then some v.preferred
      else read d pair rv kind := by
  unfold read record
  simp only [get?_update, Option.bind_eq_bind]
  by_cases hpair : pair = pairKey v
  · subst hpair
    by_cases hrv : rv = v.rubricVersion
    · subst hrv
      by_cases hkind : kind = v.judgeKind
      · subst hkind
        simp [get?_update]
      · have hne : v.judgeKind ≠ kind := fun h => hkind h.symm
        simp [get?_update, Dict.get?_set, get?_getD_empty, Option.bind_assoc, hkind, hne]
    · have hne : v.rubricVersion ≠ rv := fun h => hrv h.symm
      simp [get?_update, get?_getD_empty, Option.bind_assoc, hrv, hne]
  · have hne : pairKey v ≠ pair := fun h => hpair h.symm
    simp [hpair, hne]

/-- **What is compared** is the last verdict of each kind. -/
theorem get?_byPair (verdicts : List PairwiseVerdict) (pair : String × String) (rv : Option ℕ)
    (kind : JudgeKind) : read (byPair verdicts) pair rv kind =
      (deciding verdicts pair rv kind).map PairwiseVerdict.preferred := by
  induction verdicts using List.reverseRecOn with
  | nil => rfl
  | append_singleton verdicts v ih =>
    rw [byPair, List.foldl_append, List.foldl_cons, List.foldl_nil, read_record]
    change (if _ then _ else read (byPair verdicts) pair rv kind) = _
    rw [ih, deciding, deciding, List.filter_append, List.getLast?_append]
    by_cases hslot : pairKey v = pair ∧ v.rubricVersion = rv ∧ v.judgeKind = kind
    · obtain ⟨rfl, rfl, rfl⟩ := hslot
      simp
    · have hnil : [v].filter (fun v =>
        pairKey v = pair && v.rubricVersion = rv && v.judgeKind = kind) =
          [] := by
        simpa [and_assoc] using hslot
      rw [if_neg hslot, hnil]
      rfl

/-- Whether the judges agree on a pair by a rubric version, if both judged. -/
def compared (d : Judged) (slot : (String × String) × Option ℕ) : Option Bool := do
  return decide ((← read d slot.1 slot.2 .llm) = (← read d slot.1 slot.2 .human))

/-- The pairs and rubric versions that were judged. -/
def slots (d : Judged) : List ((String × String) × Option ℕ) :=
  d.items.flatMap fun item => item.2.keys.map fun rv => (item.1, rv)

theorem nodup_slots (d : Judged) : (slots d).Nodup := by
  refine List.nodup_flatMap.mpr ⟨fun item _ => ?_, ?_⟩
  · exact item.2.nodup.map fun rv rv' h => (Prod.mk.inj h).2
  · refine (List.pairwise_map.mp d.nodup).imp fun {item item'} hne => ?_
    refine List.disjoint_left.mpr fun slot h h' => hne ?_
    obtain ⟨rv, -, rfl⟩ := List.mem_map.mp h
    obtain ⟨rv', -, heq⟩ := List.mem_map.mp h'
    exact (Prod.mk.inj heq).1.symm

theorem comparisons_eq (d : Judged) : comparisons d =
    (slots d).filterMap fun slot => (compared d slot).map fun same => (slot.2, same) := by
  unfold comparisons slots Dict.values
  rw [List.flatMap_map, List.filterMap_flatMap]
  refine List.flatMap_congr fun item hitem => ?_
  rw [Dict.keys, List.map_map, List.filterMap_map]
  refine List.filterMap_congr fun judged hjudged => ?_
  have hget : d.get? item.1 = some item.2 := (d.mem_items_iff _ _).mp hitem
  have hget' : item.2.get? judged.1 = some judged.2 := (item.2.mem_items_iff _ _).mp hjudged
  simp [compared, read, agreed, hget, hget']

theorem mem_slots_of_isSome {d : Judged} {slot : (String × String) × Option ℕ}
    (h : (compared d slot).isSome) : slot ∈ slots d := by
  obtain ⟨pair, rv⟩ := slot
  cases hpair : d.get? pair with
  | none => simp [compared, read, hpair] at h
  | some versions =>
    cases hrv : versions.get? rv with
    | none => simp [compared, read, hpair, hrv] at h
    | some judged =>
      refine List.mem_flatMap.mpr ⟨(pair, versions), (d.mem_items_iff _ _).mpr hpair, ?_⟩
      exact List.mem_map.mpr ⟨rv, (versions.mem_keys_iff rv).mpr (by rw [hrv]; rfl), rfl⟩

/-- The slots at which a comparison is made are those of any other judgements that are compared
there. -/
theorem perm_compared {d d' : Judged}
    (h : ∀ slot, (compared d slot).isSome ↔ (compared d' slot).isSome) :
    ((slots d).filter fun slot => (compared d slot).isSome).Perm
      ((slots d').filter fun slot => (compared d' slot).isSome) := by
  refine (List.perm_ext_iff_of_nodup ((nodup_slots d).filter _) ((nodup_slots d').filter _)).mpr ?_
  intro slot
  rw [List.mem_filter, List.mem_filter]
  constructor
  · rintro ⟨-, hslot⟩
    exact ⟨mem_slots_of_isSome ((h slot).mp hslot), (h slot).mp hslot⟩
  · rintro ⟨-, hslot⟩
    exact ⟨mem_slots_of_isSome ((h slot).mpr hslot), (h slot).mpr hslot⟩

theorem comparisons_eq_filter (d : Judged) : comparisons d =
    ((slots d).filter fun slot => (compared d slot).isSome).filterMap fun slot =>
      (compared d slot).map fun same => (slot.2, same) := by
  rw [comparisons_eq, List.filterMap_filter]
  refine List.filterMap_congr fun slot _ => ?_
  cases compared d slot <;> rfl

/-- **Equal comparisons make equal reports**, in whatever order they were judged. -/
theorem report_congr {d d' : Judged} (h : ∀ slot, compared d slot = compared d' slot) :
    report (comparisons d) = report (comparisons d') := by
  refine report_perm ?_
  have hsome : ∀ slot, (compared d slot).isSome ↔ (compared d' slot).isSome :=
    fun slot => by rw [h slot]
  rw [comparisons_eq_filter d, comparisons_eq_filter d']
  have hfun : (fun slot => (compared d slot).map fun same => (slot.2, same)) =
      fun slot => (compared d' slot).map fun same => (slot.2, same) := by
    funext slot
    rw [h slot]
  rw [hfun]
  exact (perm_compared hsome).filterMap _

theorem agreements_eq (d : Judged) : (report (comparisons d)).agreements =
    ((slots d).filter fun slot => (compared d slot).isSome).countP fun slot =>
      compared d slot = some true := by
  rw [agreements_report, comparisons_eq_filter, List.countP_filterMap]
  refine List.countP_congr fun slot _ => ?_
  cases hsame : compared d slot with
  | none => simp
  | some same => simp

/-- **One comparison that flips shows in the report.** -/
theorem report_ne {d d' : Judged} {slot : (String × String) × Option ℕ} {same : Bool}
    (hslot : compared d slot = some same) (hslot' : compared d' slot = some !same)
    (h : ∀ other, other ≠ slot → compared d other = compared d' other) :
    report (comparisons d) ≠ report (comparisons d') := by
  intro heq
  have hsome : ∀ other, (compared d other).isSome ↔ (compared d' other).isSome := by
    intro other
    by_cases hother : other = slot
    · subst hother
      rw [hslot, hslot']
      simp
    · rw [h other hother]
  have hagree := congrArg CalibrationReport.agreements heq
  rw [agreements_eq, agreements_eq, ← (perm_compared hsome).countP_eq] at hagree
  have hmem : slot ∈ (slots d).filter fun slot => (compared d slot).isSome :=
    List.mem_filter.mpr ⟨mem_slots_of_isSome (by rw [hslot]; rfl), by rw [hslot]; rfl⟩
  have hnodup := (nodup_slots d).filter fun slot => (compared d slot).isSome
  generalize (slots d).filter (fun slot => (compared d slot).isSome) = judged at hagree hmem hnodup
  -- all other slots count the same
  rw [(List.perm_cons_erase hmem).countP_eq, (List.perm_cons_erase hmem).countP_eq,
    List.countP_cons,
    List.countP_cons] at hagree
  have hrest : (judged.erase slot).countP (fun s => compared d s = some true) =
      (judged.erase slot).countP fun s => compared d' s = some true := by
    refine List.countP_congr fun other hother => ?_
    rw [h other ((hnodup.mem_erase_iff.mp hother).1)]
  rw [hrest, hslot, hslot'] at hagree
  cases same <;> simp at hagree

/-! ### Mirroring -/

@[simp] theorem pairKey_mirror (v : PairwiseVerdict) : pairKey v.mirror = pairKey v := by
  unfold pairKey PairwiseVerdict.mirror
  dsimp only
  split_ifs with hba hab hab
  · rw [le_antisymm hba hab]
  · rfl
  · rfl
  · exact absurd (le_of_not_ge hba) hab

/-- A verdict at its place, as the mask has it. -/
def shown (mask : ℕ → Bool) (entry : PairwiseVerdict × ℕ) : PairwiseVerdict :=
  if mask entry.2 then entry.1.mirror else entry.1

theorem mirrored_eq (mask : ℕ → Bool) (stored : List PairwiseVerdict) :
    mirrored mask stored = stored.zipIdx.map (shown mask) := by
  rw [mirrored, List.mapIdx_eq_zipIdx_map]
  rfl

theorem mirrored_none (stored : List PairwiseVerdict) :
    mirrored (fun _ => false) stored = stored := by
  rw [mirrored_eq]
  exact List.zipIdx_map_fst 0 stored

section Entries
variable (stored : List PairwiseVerdict) (experimentId : Option String)

/-- The verdicts of an experiment, with the places at which they are stored. -/
def entries : List (PairwiseVerdict × ℕ) :=
  stored.zipIdx.filter fun entry => meets experimentId entry.1.experimentId

theorem listVerdicts_mirrored (mask : ℕ → Bool) :
    listVerdicts (mirrored mask stored) experimentId =
      (entries stored experimentId).map (shown mask) := by
  rw [mirrored_eq, listVerdicts, List.filter_map, entries]
  congr 1
  refine List.filter_congr fun entry _ => ?_
  simp only [Function.comp_apply, shown, meets_none, Bool.and_true]
  split_ifs <;> rfl

/-- The last entry of a kind on a pair by a rubric version. -/
def lastEntry (pair : String × String) (rv : Option ℕ) (kind : JudgeKind) :
    Option (PairwiseVerdict × ℕ) :=
  ((entries stored experimentId).filter fun entry =>
    pairKey entry.1 = pair && entry.1.rubricVersion = rv && entry.1.judgeKind = kind).getLast?

theorem deciding_mirrored (mask : ℕ → Bool) (pair : String × String) (rv : Option ℕ)
    (kind : JudgeKind) : deciding (listVerdicts (mirrored mask stored) experimentId) pair rv kind =
      (lastEntry stored experimentId pair rv kind).map (shown mask) := by
  rw [deciding, listVerdicts_mirrored, List.filter_map, List.getLast?_map, lastEntry]
  refine congrArg (fun entries => (List.getLast? entries).map (shown mask))
    (List.filter_congr fun entry _ => ?_)
  simp only [Function.comp_apply, shown]
  split_ifs
  · rw [pairKey_mirror, mirror_rubricVersion, mirror_judgeKind]
  · rfl

theorem deciding_eq (pair : String × String) (rv : Option ℕ) (kind : JudgeKind) :
    deciding (listVerdicts stored experimentId) pair rv kind =
      (lastEntry stored experimentId pair rv kind).map Prod.fst := by
  have h := deciding_mirrored stored experimentId (fun _ => false) pair rv kind
  rwa [mirrored_none] at h

theorem compared_mirrored (mask : ℕ → Bool) (slot : (String × String) × Option ℕ) :
    compared (byPair (listVerdicts (mirrored mask stored) experimentId)) slot = do
      let llm ← lastEntry stored experimentId slot.1 slot.2 .llm
      let human ← lastEntry stored experimentId slot.1 slot.2 .human
      return decide ((shown mask llm).preferred = (shown mask human).preferred) := by
  rw [compared, get?_byPair, get?_byPair, deciding_mirrored, deciding_mirrored]
  cases lastEntry stored experimentId slot.1 slot.2 .llm with
  | none => rfl
  | some llm => cases lastEntry stored experimentId slot.1 slot.2 .human <;> rfl

variable {stored experimentId}

theorem lastEntry_spec {pair : String × String} {rv : Option ℕ} {kind : JudgeKind}
    {entry : PairwiseVerdict × ℕ} (h : lastEntry stored experimentId pair rv kind = some entry) :
    stored[entry.2]? = some entry.1 ∧ pairKey entry.1 = pair ∧ entry.1.rubricVersion = rv ∧
      entry.1.judgeKind = kind := by
  obtain ⟨hmem, hslot⟩ := List.mem_filter.mp (List.mem_of_getLast? h)
  have hstored := List.mem_zipIdx_iff_getElem?.mp (List.mem_of_mem_filter hmem)
  simp only [Bool.and_eq_true, decide_eq_true_eq] at hslot
  exact ⟨hstored, hslot.1.1, hslot.1.2, hslot.2⟩

theorem eq_of_lastEntry {pair pair' : String × String} {rv rv' : Option ℕ} {kind kind' : JudgeKind}
    {entry entry' : PairwiseVerdict × ℕ} (h : lastEntry stored experimentId pair rv kind =
      some entry)
    (h' : lastEntry stored experimentId pair' rv' kind' = some entry') (hplace : entry.2 =
      entry'.2) :
    pair = pair' ∧ rv = rv' ∧ kind = kind' := by
  obtain ⟨hstored, rfl, rfl, rfl⟩ := lastEntry_spec h
  obtain ⟨hstored', rfl, rfl, rfl⟩ := lastEntry_spec h'
  rw [hplace, hstored'] at hstored
  rw [Option.some.inj hstored]
  exact ⟨rfl, rfl, rfl⟩

end Entries

theorem preferred_shown (mask : ℕ → Bool) (entry : PairwiseVerdict × ℕ) :
    (shown mask entry).preferred =
      if mask entry.2 then entry.1.preferred.mirror else entry.1.preferred := by
  unfold shown
  split_ifs <;> rfl

theorem shown_eq_tie_iff (mask : ℕ → Bool) (entry : PairwiseVerdict × ℕ) :
    (shown mask entry).preferred = .tie ↔ entry.1.preferred = .tie := by
  rw [preferred_shown]
  split_ifs
  · cases entry.1.preferred <;> simp [Preferred.mirror]
  · rfl

theorem shown_eq_iff_of_tie {entry entry' : PairwiseVerdict × ℕ}
    (h : entry.1.preferred = .tie ∨ entry'.1.preferred = .tie) (mask mask' : ℕ → Bool) :
    (shown mask entry).preferred = (shown mask entry').preferred ↔
      (shown mask' entry).preferred = (shown mask' entry').preferred := by
  obtain h | h := h
  · rw [(shown_eq_tie_iff mask entry).mpr h, (shown_eq_tie_iff mask' entry).mpr h,
      eq_comm (a := Preferred.tie), eq_comm (a := Preferred.tie), shown_eq_tie_iff,
        shown_eq_tie_iff]
  · rw [(shown_eq_tie_iff mask entry').mpr h, (shown_eq_tie_iff mask' entry').mpr h,
      shown_eq_tie_iff,
      shown_eq_tie_iff]

theorem mirror_eq_iff {p q : Preferred} (hp : p ≠ .tie) (hq : q ≠ .tie) : p.mirror = q ↔ p ≠ q := by
  cases p <;> cases q <;> simp_all [Preferred.mirror]

/-- **Which side is written first does not matter** exactly where, in each comparison, one verdict
is a tie. -/
theorem computeCalibration_mirror_iff (stored : List PairwiseVerdict)
    (experimentId : Option String) :
    (∀ mask, computeCalibration (mirrored mask stored) experimentId =
        computeCalibration stored experimentId) ↔
      TieInEach (listVerdicts stored experimentId) := by
  constructor
  · intro hall pair rv llm human hllm hhuman
    by_contra hnot
    push Not at hnot
    obtain ⟨hllmTie, hhumanTie⟩ := hnot
    rw [deciding_eq] at hllm hhuman
    obtain ⟨entry, hentry, rfl⟩ := Option.map_eq_some_iff.mp hllm
    obtain ⟨entry', hentry', rfl⟩ := Option.map_eq_some_iff.mp hhuman
    have hplaces : entry'.2 ≠ entry.2 := fun h => nomatch (eq_of_lastEntry hentry' hentry h).2.2
    -- mirroring the one verdict flips the one comparison
    have hslot := compared_mirrored stored experimentId (fun _ => false) (pair, rv)
    have hslot' := compared_mirrored stored experimentId (fun i => i == entry.2) (pair, rv)
    rw [mirrored_none] at hslot
    simp only [hentry, hentry', Option.bind_eq_bind, Option.bind_some,
      preferred_shown] at hslot hslot'
    rw [if_pos (beq_self_eq_true _), if_neg (by simpa using hplaces)] at hslot'
    refine report_ne hslot ?_ (fun other hother => ?_) (hall fun i => i == entry.2).symm
    · rw [hslot']
      simp [mirror_eq_iff hllmTie hhumanTie]
    · rw [compared_mirrored]
      have hother' := compared_mirrored stored experimentId (fun _ => false) other
      rw [mirrored_none] at hother'
      rw [hother']
      -- the mirrored verdict is not compared there
      have hshown : ∀ {kind e}, lastEntry stored experimentId other.1 other.2 kind = some e →
          shown (fun _ => false) e = shown (fun i => i == entry.2) e := by
        intro kind e he
        have hplace : e.2 ≠ entry.2 := fun h =>
          hother (Prod.ext (eq_of_lastEntry he hentry h).1 (eq_of_lastEntry he hentry h).2.1)
        simp [shown, hplace]
      cases hllm' : lastEntry stored experimentId other.1 other.2 .llm with
      | none => rfl
      | some llm =>
        cases hhuman' : lastEntry stored experimentId other.1 other.2 .human with
        | none => rfl
        | some human =>
          simp only [Option.bind_eq_bind, Option.bind_some, hshown hllm', hshown hhuman']
  · intro hties mask
    refine report_congr fun slot => ?_
    have hslot := compared_mirrored stored experimentId (fun _ => false) slot
    rw [mirrored_none] at hslot
    rw [hslot, compared_mirrored]
    cases hllm : lastEntry stored experimentId slot.1 slot.2 .llm with
    | none => rfl
    | some llm =>
      cases hhuman : lastEntry stored experimentId slot.1 slot.2 .human with
      | none => rfl
      | some human =>
        have htie := hties slot.1 slot.2 llm.1 human.1 (by rw [deciding_eq, hllm]; rfl)
          (by rw [deciding_eq, hhuman]; rfl)
        exact congrArg some (decide_eq_decide.mpr (shown_eq_iff_of_tie htie mask fun _ => false))

/-- An LLM and a human, who prefer the same of two traces. -/
def sameChoice : List PairwiseVerdict :=
  [{ aRef := { traceId := some "s" }, bRef := { traceId := some "t" }, preferred := .a,
      judgeKind := .llm },
    { aRef := { traceId := some "s" }, bRef := { traceId := some "t" }, preferred := .a
      judgeKind := .human }]

/-- With the sides of the one verdict exchanged, the two disagree. -/
theorem not_computeCalibration_mirror :
    ¬∀ (stored : List PairwiseVerdict) (experimentId : Option String) (mask : ℕ → Bool),
      computeCalibration (mirrored mask stored) experimentId =
        computeCalibration stored experimentId := by
  intro h
  have hagree : (computeCalibration sameChoice none).agreements = 1 := by decide +kernel
  have hdisagree :
      (computeCalibration (mirrored (fun i => i == 1) sameChoice) none).agreements = 0 := by
    decide +kernel
  rw [h sameChoice none fun i => i == 1, hagree] at hdisagree
  exact absurd hdisagree (by decide)

end Selfevals.Runner.PairwiseCalibration
