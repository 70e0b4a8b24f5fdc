import Selfevals.Lib.Effects
import Selfevals.Lib.PointerChains
import Selfevals.Lib.Run
import Selfevals.Schemas.FailureModes
import Selfevals.Storage.Tables

/-!
# Operations on the taxonomy

`promote`, `retire`, `merge` and `edit` load modes of a workspace, change them and save them. A
merge hands the examples of a mode to another and points the mode at it; a reader follows
`superseded_by`.
-/

namespace Selfevals.Api.FailureModeOps

open Lib.Effects Lib.PointerChains Lib.Run Schemas.Base Schemas.Enums Schemas.Experiments
  Schemas.FailureModes Storage Storage.Entity

/-- The table of failure modes. -/
abbrev Modes := Tables.Table FailureMode

/-- What a lifecycle operation raises. -/
inductive OpError
  /-- `FailureModeNotFoundError`. -/
  | notFound (message : String)
  /-- `FailureModeOpError`. -/
  | rejected (message : String)
  /-- `ValidationError`, on an assignment to a field. -/
  | invalid (field : String)
  | storage (e : StorageError)
deriving DecidableEq, Repr

/-- What `_view` shows of a mode. -/
structure FailureModeResponse where
  id : String
  slug : String
  title : String
  definition : String
  status : String
  parentModeId : Option String
  proposedBy : String
  exampleCount : ℕ
  firstSeenIteration : Option ℕ
  supersededBy : Option String
  createdAt : Time
  updatedAt : Time
deriving DecidableEq, Repr

/-- `_view`. -/
def view (fm : FailureMode) : FailureModeResponse where
  id := fm.id
  slug := fm.slug
  title := fm.title
  definition := fm.definition
  status := Coded.value fm.status
  parentModeId := fm.parentModeId
  proposedBy := fm.proposedBy
  exampleCount := fm.examples.length
  firstSeenIteration := fm.firstSeenIteration
  supersededBy := fm.supersededBy
  createdAt := fm.createdAt
  updatedAt := fm.updatedAt

/-- The mode that a scope of the workspace finds under an id. -/
def get (workspaceId : String) (t : Modes) (fmId : String) : Option FailureMode :=
  (t.find? fmId).filter fun fm => fm.workspaceId = workspaceId

section Ops
variable (workspaceId : String)

/-- `_load`. -/
def load (fmId : String) : Scoped Modes OpError FailureMode :=
  tryQuery fun t =>
    match get workspaceId t fmId with
    | some fm => .ok fm
    | none => .error (.notFound ("failure mode " ++ fmId ++ " not found"))

/-- `_save`. -/
def save (fm : FailureMode) : Scoped Modes OpError Unit :=
  tryWrite fun t => (t.put workspaceId fm).mapError .storage

/-- `promote_failure_mode`: a candidate becomes active. -/
def promoteFailureMode (fmId : String) : Scoped Modes OpError FailureModeResponse := do
  let fm ← load workspaceId fmId
  if fm.status = .official then
    return view fm
  else
    let fm := { fm with status := .official }
    save workspaceId fm
    return view fm

/-- `retire_failure_mode`. -/
def retireFailureMode (fmId : String) : Scoped Modes OpError FailureModeResponse := do
  let fm ← load workspaceId fmId
  let fm := { fm with status := .retired }
  save workspaceId fm
  return view fm

/-- `merge_failure_modes`: one mode goes into another. -/
def mergeFailureModes (fmId intoId : String) : Scoped Modes OpError FailureModeResponse := do
  if fmId = intoId then
    raise (.rejected "cannot merge a mode into itself")
  else
    let src ← load workspaceId fmId
    let dst ← load workspaceId intoId
    -- the examples go to the destination, and the source is retired with a pointer to it
    let dst := { dst with examples := dst.examples ++ src.examples }
    let src := { src with supersededBy := some dst.id, status := .retired }
    save workspaceId dst
    save workspaceId src
    return view dst

/-- An assignment to a text field. -/
def assign (field : String) (value : Option String) (old : String) : Scoped Modes OpError String :=
  match value with
  | none => pure old
  | some new => if NonEmpty new then pure new else raise (.invalid field)

/-- `edit_failure_mode`: its title, its definition. -/
def editFailureMode (fmId : String) (title definition : Option String) :
    Scoped Modes OpError FailureModeResponse := do
  let fm ← load workspaceId fmId
  let title ← assign "title" title fm.title
  let definition ← assign "definition" definition fm.definition
  let fm := { fm with title, definition }
  save workspaceId fm
  return view fm

end Ops

/-- The lifecycle operations. -/
inductive Op
  | promote (fmId : String)
  | retire (fmId : String)
  | merge (fmId intoId : String)
  | edit (fmId : String) (title definition : Option String)
deriving DecidableEq, Repr

/-- One operation in a workspace. -/
def Op.apply (workspaceId : String) : Op → Scoped Modes OpError FailureModeResponse
  | .promote fmId => promoteFailureMode workspaceId fmId
  | .retire fmId => retireFailureMode workspaceId fmId
  | .merge fmId intoId => mergeFailureModes workspaceId fmId intoId
  | .edit fmId title definition => editFailureMode workspaceId fmId title definition

/-- One operation; what it has written when it raises stays. -/
def step (workspaceId : String) (t : Modes) (op : Op) : Option Modes :=
  some ((op.apply workspaceId).run t).2

/-! ### Chains -/

section Chains
variable (workspaceId : String) (t : Modes)

/-- The mode that supersedes one. -/
def next (fmId : String) : Option String := (get workspaceId t fmId).bind (·.supersededBy)

/-- **The taxonomy is well formed**: `superseded_by` leads from every mode to one that is there and
is not superseded. -/
def WellFormed : Prop :=
  ∀ fmId, (get workspaceId t fmId).isSome → ∃ e fm, Reaches (next workspaceId t) fmId e ∧
    get workspaceId t e = some fm ∧ fm.supersededBy = none

/-- A pointer leads to a mode that is there. -/
def PointersStored : Prop :=
  ∀ fmId b, next workspaceId t fmId = some b → (get workspaceId t b).isSome

/-- The traces of all the examples of the taxonomy. -/
def exampleTraces : Set String :=
  {traceId | ∃ fmId fm, get workspaceId t fmId = some fm ∧ ∃ ex ∈ fm.examples, ex.traceId = traceId}

end Chains

section Spec
variable {workspaceId : String} {t : Modes}

theorem get_eq_some {fmId : String} {fm : FailureMode} :
    get workspaceId t fmId = some fm ↔ t.find? fmId = some fm ∧ fm.workspaceId = workspaceId := by
  simp [get, Option.filter_eq_some_iff]

theorem id_of_get {fmId : String} {fm : FailureMode} (h : get workspaceId t fmId = some fm) :
    fm.id = fmId :=
  (Tables.Table.find?_eq_some.mp (get_eq_some.mp h).1).2

theorem wellFormed_iff_ends (h : PointersStored workspaceId t) :
    WellFormed workspaceId t ↔ ∀ fmId, Ends (next workspaceId t) fmId := by
  have hstored : ∀ {a e}, Reaches (next workspaceId t) a e → (get workspaceId t a).isSome →
      (get workspaceId t e).isSome := by
    intro a e hreach ha
    induction hreach with
    | here => exact ha
    | step hab _ ih => exact ih (h _ _ hab)
  constructor
  · intro hwf fmId
    cases hget : get workspaceId t fmId with
    | none => exact ends_of_none (by rw [next, hget]; rfl)
    | some fm =>
      obtain ⟨e, end', hreach, hend, hnone⟩ := hwf fmId (by rw [hget]; rfl)
      exact ⟨e, hreach, by rw [next, hend]; exact hnone⟩
  · intro hends fmId hsome
    obtain ⟨e, hreach, hnone⟩ := hends fmId
    obtain ⟨fm, hfm⟩ := Option.isSome_iff_exists.mp (hstored hreach hsome)
    refine ⟨e, fm, hreach, hfm, ?_⟩
    rwa [next, hfm] at hnone

theorem save_spec {fm : FailureMode} (fm' : FailureMode)
    (hget : get workspaceId t fm.id = some fm) (hbase : fm'.toBaseEntity = fm.toBaseEntity) :
    ∃ t', (save workspaceId fm').run t = (.ok (), t') ∧
      get workspaceId t' = Function.update (get workspaceId t) fm.id (some fm') := by
  obtain ⟨hfind, rfl⟩ := get_eq_some.mp hget
  have hid : fm'.id = fm.id := congrArg BaseEntity.id hbase
  have hws : fm'.workspaceId = fm.workspaceId := congrArg BaseEntity.workspaceId hbase
  have hput : t.put fm.workspaceId fm' = .ok (t.set (upsert (some fm) fm')) := by
    unfold Tables.Table.put
    rw [show (Entity.base fm').id = fm.id from hid, hfind, ← hws,
      show fm'.workspaceId = (Entity.base fm').workspaceId from rfl,
      putEntity_of_same hws (congrArg BaseEntity.version hbase)]
    rfl
  have hupsert : upsert (some fm) fm' = fm' := by
    show ({ fm' with createdAt := fm.createdAt } : FailureMode) = fm'
    rw [← congrArg BaseEntity.createdAt hbase]
  refine ⟨t.set fm', ?_, funext fun a => ?_⟩
  · simp only [save, tryWrite, hput, hupsert]
    rfl
  · unfold get
    rw [Tables.Table.find?_set, show (Entity.base fm').id = fm.id from hid]
    by_cases ha : a = fm.id
    · subst ha
      rw [if_pos rfl, Function.update_self]
      simp [hws]
    · rw [if_neg ha, Function.update_of_ne ha]

/-- What an operation may change of a mode, for a reader of pointers and examples. -/
def shape (workspaceId : String) (t : Modes) (fmId : String) :
    Option (Option String × List FailureModeExample) :=
  (get workspaceId t fmId).map fun fm => (fm.supersededBy, fm.examples)

theorem isSome_shape (fmId : String) :
    (shape workspaceId t fmId).isSome = (get workspaceId t fmId).isSome := Option.isSome_map

theorem next_eq_shape : next workspaceId t = fun a => (shape workspaceId t a).bind Prod.fst := by
  funext a
  unfold next shape
  cases get workspaceId t a <;> rfl

theorem mem_exampleTraces {traceId : String} : traceId ∈ exampleTraces workspaceId t ↔
    ∃ fmId p, shape workspaceId t fmId = some p ∧ ∃ ex ∈ p.2, ex.traceId = traceId := by
  constructor
  · rintro ⟨fmId, fm, hget, hex⟩
    exact ⟨fmId, _, by rw [shape, hget]; rfl, hex⟩
  · rintro ⟨fmId, p, hshape, hex⟩
    obtain ⟨fm, hget, rfl⟩ := Option.map_eq_some_iff.mp hshape
    exact ⟨fmId, fm, hget, hex⟩

theorem load_of_get {fmId : String} {fm : FailureMode} (h : get workspaceId t fmId = some fm)
    {α : Type} (f : FailureMode → Scoped Modes OpError α) :
    (load workspaceId fmId >>= f).run t = (f fm).run t := by
  rw [load, run_tryQuery_bind, h]

theorem load_of_none {fmId : String} (h : get workspaceId t fmId = none) {α : Type}
    (f : FailureMode → Scoped Modes OpError α) : ((load workspaceId fmId >>= f).run t).2 = t := by
  rw [load, run_tryQuery_bind, h]

theorem shape_save {fm fm' : FailureMode} (hget : get workspaceId t fm.id = some fm)
    (hbase : fm'.toBaseEntity = fm.toBaseEntity)
    (hshape : (fm'.supersededBy, fm'.examples) = (fm.supersededBy, fm.examples)) :
    shape workspaceId ((save workspaceId fm' >>= fun _ => pure (view fm')).run t).2 =
      shape workspaceId t := by
  obtain ⟨t', hsave, hget'⟩ := save_spec fm' hget hbase
  have hrun : ((save workspaceId fm' >>= fun _ => pure (view fm')).run t).2 = t' := by
    rw [run_bind, hsave]
    rfl
  rw [hrun]
  funext a
  unfold shape
  rw [hget']
  by_cases ha : a = fm.id
  · subst ha
    rw [Function.update_self, hget]
    exact congrArg some hshape
  · rw [Function.update_of_ne ha]

theorem run_assign {field old : String} (value : Option String) {α : Type}
    (f : String → Scoped Modes OpError α) :
    ((assign field value old >>= f).run t).2 = t ∨
      ∃ new, (assign field value old >>= f).run t = (f new).run t := by
  unfold assign
  cases value with
  | none => exact .inr ⟨old, rfl⟩
  | some new =>
    by_cases hne : NonEmpty new
    · exact .inr ⟨new, by simp [hne, run_bind]⟩
    · exact .inl (by simp [hne, run_bind])

/-- **Promotion, retirement and editing** leave pointers and examples. -/
theorem shape_of_not_merge {op : Op} (hop : ∀ fmId intoId, op ≠ .merge fmId intoId) :
    shape workspaceId ((op.apply workspaceId).run t).2 = shape workspaceId t := by
  cases op with
  | merge fmId intoId => exact absurd rfl (hop fmId intoId)
  | promote fmId =>
    unfold Op.apply promoteFailureMode
    cases hget : get workspaceId t fmId with
    | none => rw [load_of_none hget]
    | some fm =>
      obtain rfl := id_of_get hget
      rw [load_of_get hget]
      split_ifs
      · rfl
      · exact shape_save hget rfl rfl
  | retire fmId =>
    unfold Op.apply retireFailureMode
    cases hget : get workspaceId t fmId with
    | none => rw [load_of_none hget]
    | some fm =>
      obtain rfl := id_of_get hget
      rw [load_of_get hget]
      exact shape_save hget rfl rfl
  | edit fmId title definition =>
    unfold Op.apply editFailureMode
    cases hget : get workspaceId t fmId with
    | none => rw [load_of_none hget]
    | some fm =>
      obtain rfl := id_of_get hget
      rw [load_of_get hget]
      obtain hsame | ⟨newTitle, htitle⟩ := run_assign title _
      · rw [hsame]
      rw [htitle]
      obtain hsame | ⟨newDefinition, hdefinition⟩ := run_assign definition _
      · rw [hsame]
      rw [hdefinition]
      exact shape_save hget rfl rfl

/-- The merge goes through. -/
def Merges (workspaceId : String) (t : Modes) (fmId intoId : String) : Prop :=
  fmId ≠ intoId ∧ (get workspaceId t fmId).isSome ∧ (get workspaceId t intoId).isSome

/-- **A merge** sets one pointer and hands over examples. -/
theorem merge_spec {fmId intoId : String} (h : Merges workspaceId t fmId intoId) :
    ∃ src dst, shape workspaceId t fmId = some src ∧ shape workspaceId t intoId = some dst ∧
      shape workspaceId ((mergeFailureModes workspaceId fmId intoId).run t).2 =
        Function.update (Function.update (shape workspaceId t) intoId
          (some (dst.1, dst.2 ++ src.2))) fmId (some (some intoId, src.2)) := by
  obtain ⟨hne, hsrc, hdst⟩ := h
  obtain ⟨src, hsrc⟩ := Option.isSome_iff_exists.mp hsrc
  obtain ⟨dst, hdst⟩ := Option.isSome_iff_exists.mp hdst
  obtain rfl := id_of_get hsrc
  obtain rfl := id_of_get hdst
  refine ⟨_, _, by rw [shape, hsrc]; rfl, by rw [shape, hdst]; rfl, ?_⟩
  obtain ⟨t₁, hsave₁, hget₁⟩ := save_spec
    { dst with examples := dst.examples ++ src.examples } hdst rfl
  have hsrc₁ : get workspaceId t₁ src.id = some src := by
    rw [hget₁, Function.update_of_ne hne, hsrc]
  obtain ⟨t₂, hsave₂, hget₂⟩ := save_spec
    { src with supersededBy := some dst.id, status := .retired } hsrc₁ rfl
  have hrun : ((mergeFailureModes workspaceId src.id dst.id).run t).2 = t₂ := by
    unfold mergeFailureModes
    rw [if_neg hne, load_of_get hsrc, load_of_get hdst]
    dsimp only
    rw [run_bind, hsave₁]
    dsimp only
    rw [run_bind, hsave₂]
    rfl
  rw [hrun]
  funext a
  unfold shape
  rw [hget₂, hget₁]
  by_cases ha : a = src.id
  · subst ha
    rw [Function.update_self, Function.update_self]
    rfl
  · rw [Function.update_of_ne ha, Function.update_of_ne ha]
    by_cases hb : a = dst.id
    · subst hb
      rw [Function.update_self, Function.update_self]
      rfl
    · rw [Function.update_of_ne hb, Function.update_of_ne hb]

theorem run_of_not_merges {fmId intoId : String} (h : ¬Merges workspaceId t fmId intoId) :
    ((mergeFailureModes workspaceId fmId intoId).run t).2 = t := by
  unfold mergeFailureModes
  split_ifs with heq
  · rfl
  cases hsrc : get workspaceId t fmId with
  | none => rw [load_of_none hsrc]
  | some src =>
    rw [load_of_get hsrc]
    cases hdst : get workspaceId t intoId with
    | none => rw [load_of_none hdst]
    | some dst => exact absurd ⟨heq, by rw [hsrc]; rfl, by rw [hdst]; rfl⟩ h

/-! ### Examples -/

/-- **No operation loses or adds an example trace.** -/
theorem exampleTraces_step (op : Op) :
    exampleTraces workspaceId ((op.apply workspaceId).run t).2 = exampleTraces workspaceId t := by
  by_cases hop : ∀ fmId intoId, op ≠ .merge fmId intoId
  · ext traceId
    rw [mem_exampleTraces, mem_exampleTraces, shape_of_not_merge hop]
  obtain ⟨fmId, intoId, rfl⟩ : ∃ fmId intoId, op = .merge fmId intoId := by
    simpa only [ne_eq, not_forall, not_not] using hop
  show exampleTraces workspaceId ((mergeFailureModes workspaceId fmId intoId).run t).2 = _
  by_cases hmerges : Merges workspaceId t fmId intoId
  swap
  · rw [run_of_not_merges hmerges]
  obtain ⟨src, dst, hsrc, hdst, hshape⟩ := merge_spec hmerges
  have hne := hmerges.1
  ext traceId
  rw [mem_exampleTraces, mem_exampleTraces, hshape]
  constructor
  · rintro ⟨a, p, hp, ex, hex, rfl⟩
    by_cases ha : a = fmId
    · subst ha
      rw [Function.update_self] at hp
      obtain rfl := Option.some.inj hp
      exact ⟨a, src, hsrc, ex, hex, rfl⟩
    rw [Function.update_of_ne ha] at hp
    by_cases hb : a = intoId
    · subst hb
      rw [Function.update_self] at hp
      obtain rfl := Option.some.inj hp
      obtain hex | hex := List.mem_append.mp hex
      · exact ⟨a, dst, hdst, ex, hex, rfl⟩
      · exact ⟨fmId, src, hsrc, ex, hex, rfl⟩
    · rw [Function.update_of_ne hb] at hp
      exact ⟨a, p, hp, ex, hex, rfl⟩
  · rintro ⟨a, p, hp, ex, hex, rfl⟩
    by_cases ha : a = fmId
    · subst ha
      obtain rfl := Option.some.inj (hsrc.symm.trans hp)
      exact ⟨a, _, Function.update_self .., ex, hex, rfl⟩
    by_cases hb : a = intoId
    · subst hb
      obtain rfl := Option.some.inj (hdst.symm.trans hp)
      refine ⟨a, (dst.1, dst.2 ++ src.2), ?_, ex, List.mem_append_left _ hex, rfl⟩
      rw [Function.update_of_ne ha, Function.update_self]
    · refine ⟨a, p, ?_, ex, hex, rfl⟩
      rw [Function.update_of_ne ha, Function.update_of_ne hb, hp]

/-! ### Pointers -/

theorem next_merge {fmId intoId : String} (h : Merges workspaceId t fmId intoId) :
    next workspaceId ((mergeFailureModes workspaceId fmId intoId).run t).2 =
      link (next workspaceId t) fmId intoId := by
  obtain ⟨src, dst, -, hdst, hshape⟩ := merge_spec h
  rw [next_eq_shape, next_eq_shape, hshape]
  funext a
  unfold link
  by_cases ha : a = fmId
  · subst ha
    rw [Function.update_self, Function.update_self]
    rfl
  rw [Function.update_of_ne ha, Function.update_of_ne ha]
  by_cases hb : a = intoId
  · subst hb
    rw [Function.update_self, hdst]
    rfl
  · rw [Function.update_of_ne hb]

theorem next_of_not_merge {op : Op} (hop : ∀ fmId intoId, op ≠ .merge fmId intoId) :
    next workspaceId ((op.apply workspaceId).run t).2 = next workspaceId t := by
  rw [next_eq_shape, next_eq_shape, shape_of_not_merge hop]

theorem isSome_get_step (op : Op) (a : String) :
    (get workspaceId ((op.apply workspaceId).run t).2 a).isSome = (get workspaceId t a).isSome := by
  rw [← isSome_shape, ← isSome_shape]
  by_cases hop : ∀ fmId intoId, op ≠ .merge fmId intoId
  · rw [shape_of_not_merge hop]
  obtain ⟨fmId, intoId, rfl⟩ : ∃ fmId intoId, op = .merge fmId intoId := by
    simpa only [ne_eq, not_forall, not_not] using hop
  show (shape workspaceId ((mergeFailureModes workspaceId fmId intoId).run t).2 a).isSome = _
  by_cases hmerges : Merges workspaceId t fmId intoId
  · obtain ⟨src, dst, hsrc, hdst, hshape⟩ := merge_spec hmerges
    rw [hshape, Function.update_apply, Function.update_apply]
    split_ifs with ha hb
    · rw [ha, hsrc]
      rfl
    · rw [hb, hdst]
      rfl
    · rfl
  · rw [run_of_not_merges hmerges]

/-- A merge goes into a mode whose pointers do not lead back to the source. -/
def LeadsElsewhere (workspaceId : String) (t : Modes) : Op → Prop
  | .merge fmId intoId =>
    Merges workspaceId t fmId intoId → ¬Reaches (next workspaceId t) intoId fmId
  | _ => True

/-- **One operation**: pointers lead to modes that are there, and the taxonomy stays well formed
exactly when a merge leads elsewhere. -/
theorem step_spec {op : Op} (hstored : PointersStored workspaceId t) :
    PointersStored workspaceId ((op.apply workspaceId).run t).2 ∧
      (WellFormed workspaceId t → (WellFormed workspaceId ((op.apply workspaceId).run t).2 ↔
        LeadsElsewhere workspaceId t op)) := by
  have hsome : ∀ a, (get workspaceId ((op.apply workspaceId).run t).2 a).isSome =
      (get workspaceId t a).isSome := isSome_get_step op
  by_cases hop : ∀ fmId intoId, op ≠ .merge fmId intoId
  · have hnext : next workspaceId ((op.apply workspaceId).run t).2 = next workspaceId t :=
      next_of_not_merge hop
    have hstored' : PointersStored workspaceId ((op.apply workspaceId).run t).2 := by
      intro a b hab
      rw [hnext] at hab
      rw [hsome]
      exact hstored a b hab
    refine ⟨hstored', fun hwf => iff_of_true ?_ ?_⟩
    · rw [wellFormed_iff_ends hstored', hnext]
      exact (wellFormed_iff_ends hstored).mp hwf
    · cases op with
      | merge fmId intoId => exact absurd rfl (hop fmId intoId)
      | _ => trivial
  obtain ⟨fmId, intoId, rfl⟩ : ∃ fmId intoId, op = .merge fmId intoId := by
    simpa only [ne_eq, not_forall, not_not] using hop
  by_cases hmerges : Merges workspaceId t fmId intoId
  swap
  · have hrun : ((Op.apply workspaceId (.merge fmId intoId)).run t).2 = t :=
      run_of_not_merges hmerges
    rw [hrun]
    exact ⟨hstored, fun hwf => iff_of_true hwf fun h => absurd h hmerges⟩
  have hnext : next workspaceId ((Op.apply workspaceId (.merge fmId intoId)).run t).2 =
      link (next workspaceId t) fmId intoId := next_merge hmerges
  have hstored' : PointersStored workspaceId
      ((Op.apply workspaceId (.merge fmId intoId)).run t).2 := by
    intro a b hab
    rw [hnext, link, Function.update_apply] at hab
    rw [hsome]
    split_ifs at hab
    · exact Option.some.inj hab ▸ hmerges.2.2
    · exact hstored a b hab
  refine ⟨hstored', fun hwf => ?_⟩
  rw [wellFormed_iff_ends hstored', hnext, ends_link_iff ((wellFormed_iff_ends hstored).mp hwf)]
  exact ⟨fun h _ => h, fun h => h hmerges⟩

theorem pointersStored_of_wellFormed (h : WellFormed workspaceId t) :
    PointersStored workspaceId t := by
  intro a b hab
  have ha : (get workspaceId t a).isSome := by
    cases hget : get workspaceId t a with
    | none => simp [next, hget] at hab
    | some fm => rfl
  obtain ⟨e, fm, hreach, hend, hnone⟩ := h a ha
  have hlast : next workspaceId t e = none := by rw [next, hend]; exact hnone
  have hrest : Reaches (next workspaceId t) b e := by
    cases hreach with
    | here => rw [hab] at hlast; cases hlast
    | step hab' hrest => exact Option.some.inj (hab'.symm.trans hab) ▸ hrest
  by_contra hb
  have hstop : next workspaceId t b = none := by
    rw [next, Option.not_isSome_iff_eq_none.mp hb]
    rfl
  obtain rfl := hrest.eq_of_none hstop
  exact hb (by rw [hend]; rfl)

end Spec

/-- **The taxonomy stays well formed** along a run of operations exactly when each merge that goes
through goes into a mode whose pointers do not lead back to the source; and every merge keeps the
traces of all the examples. -/
theorem wellFormed_iff_guarded (workspaceId : String) (t : Modes) (h : WellFormed workspaceId t)
    (ops : List Op) :
    ((∀ done left t', ops = done ++ left → exec (step workspaceId) t done = some t' →
        WellFormed workspaceId t') ↔
      Guarded (step workspaceId) (LeadsElsewhere workspaceId) t ops) ∧
    ∀ (t' : Modes) (fmId intoId : String),
      exampleTraces workspaceId ((mergeFailureModes workspaceId fmId intoId).run t').2 =
        exampleTraces workspaceId t' := by
  refine ⟨?_, fun t' fmId intoId => exampleTraces_step (.merge fmId intoId)⟩
  have hexec : ∀ (ops : List Op) (t : Modes), ∃ t', exec (step workspaceId) t ops = some t' := by
    intro ops
    induction ops with
    | nil => exact fun t => ⟨t, rfl⟩
    | cons op ops ih => exact fun t => ih _
  obtain ⟨t', ht'⟩ := hexec ops t
  refine holds_iff_guarded (J := PointersStored workspaceId) (H := fun _ _ => True) ?_ ?_
    (pointersStored_of_wellFormed h) h (guarded_true _ _) ht'
  · intro t op t' hstored _ hs
    obtain rfl := Option.some.inj hs
    exact (step_spec hstored).1
  · intro t op t' hstored hwf _ hs
    obtain rfl := Option.some.inj hs
    exact (step_spec hstored).2 hwf

/-! ### Two merges in opposite directions -/

/-- A mode that has not been merged. -/
def freshMode (fmId slug : String) : FailureMode where
  id := fmId
  workspaceId := "ws_1"
  createdAt := 0
  updatedAt := 0
  slug := slug
  title := slug
  definition := slug

def twoModes : Modes where
  rows := [freshMode "fm_a" "invented_price", freshMode "fm_b" "made_up_price"]
  ids_nodup := by decide

theorem twoModes_wellFormed : WellFormed "ws_1" twoModes := by
  intro fmId hsome
  obtain ⟨fm, hfm⟩ := Option.isSome_iff_exists.mp hsome
  refine ⟨fmId, fm, .here _, hfm, ?_⟩
  have hmem := (Tables.Table.find?_eq_some.mp (get_eq_some.mp hfm).1).1
  simp only [twoModes, List.mem_cons, List.not_mem_nil, or_false] at hmem
  obtain rfl | rfl := hmem <;> rfl

/-- One merge of two fresh modes. -/
theorem wellFormed_iff_guarded_twoModes : WellFormed "ws_1" twoModes ∧
    ∀ t', exec (step "ws_1") twoModes [.merge "fm_a" "fm_b"] = some t' → WellFormed "ws_1" t' := by
  refine ⟨twoModes_wellFormed, ?_⟩
  have hguard : Guarded (step "ws_1") (LeadsElsewhere "ws_1") twoModes [.merge "fm_a" "fm_b"] := by
    refine ⟨fun _ hback => ?_, fun _ _ => trivial⟩
    have hsame : "fm_a" = "fm_b" := hback.eq_of_none rfl
    simp at hsame
  intro t' ht'
  exact (wellFormed_iff_guarded "ws_1" twoModes twoModes_wellFormed _).1.mpr hguard _ [] t'
    (List.append_nil _).symm ht'

/-- Two modes merged into each other are superseded by each other. -/
theorem merged_into_each_other : WellFormed "ws_1" twoModes ∧ ∃ t', exec (step "ws_1") twoModes
    [.merge "fm_a" "fm_b", .merge "fm_b" "fm_a"] = some t' ∧ ¬WellFormed "ws_1" t' := by
  refine ⟨twoModes_wellFormed, _, rfl, fun hwf => ?_⟩
  have hends := (wellFormed_iff_ends (pointersStored_of_wellFormed hwf)).mp hwf "fm_a"
  exact not_reaches_of_ends hends (b := "fm_b") rfl (.step (b := "fm_a") rfl (.here _))

end Selfevals.Api.FailureModeOps
