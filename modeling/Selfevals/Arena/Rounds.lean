import Selfevals.Lib.Mapping
import Selfevals.Lib.Result
import Selfevals.Lib.Run
import Selfevals.Lib.Sql
import Selfevals.Schemas.Arenas
import Selfevals.Schemas.Enums

/-!
# The rounds of an arena

`launch_round` stores the round under the arena's counter, then launches its variants one by one,
and only then raises the counter. Where a launch of a variant raises, the round stays and the
counter does not move; the next round is to have the same index, which the table refuses.

* `launchRound_cases` : what a call of `launch_round` does;
-/

namespace Selfevals.Arena.Rounds

open Lib.JsonValue Lib.Mapping Lib.Result Lib.Run Lib.Sql Schemas.Arenas Schemas.Enums

/-! ### The checks of a launch -/

/-- What `launch_round` and `refresh_round_status` raise. -/
inductive LaunchError
  /-- `arena {id} already used {used} rounds (budget.max_rounds={max})` -/
  | roundsUsed (arenaId : String) (used max : ℕ)
  /-- `variant {id} does not belong to arena {id}` -/
  | foreignVariant (variantId arenaId : String)
  /-- `variants not ready to run: {ids}` -/
  | notReady (variantIds : List String)
  /-- `arena {id} has no ready variants to launch` -/
  | noReadyVariants (arenaId : String)
  /-- `round estimated at ${estimate} exceeds budget.max_cost_usd=${max} ({basis})` -/
  | overBudget (estimate max : ℚ) (basis : String)
  /-- The `ValidationError` of a round of less than one repetition. -/
  | invalidReps (reps : ℤ)
  /-- The table has a round of this arena with this index. -/
  | uniqueViolation (arenaId : String) (index : ℕ)
  /-- Whatever `launch_experiment_run` raises. -/
  | raised (what : String)
  | notFound (id : String)
deriving DecidableEq, Repr

/-- The body of a request for a round. -/
structure LaunchRoundRequest where
  variantIds : Option (List String) := none
  reps : ℤ := 1

/-- `RunExperimentRequest(spec_inline=…, dataset_id=…, reps=…)`. -/
structure RunExperimentRequest where
  specInline : Object
  datasetId : Option String
  reps : ℤ

/-- What a launch of one variant answers. -/
structure RunExperimentResponse where
  experimentId : String
  jobId : Option String
  state : String

/-- What a call of `launch_round` meets: the ids it makes, the arena's variants, the costs of its
experiments, and how the launch of each selected variant goes. -/
structure LaunchCall where
  req : LaunchRoundRequest := {}
  roundId : String
  experimentId : ℕ → String
  variants : List ArenaVariant
  /-- `_latest_iteration_cost`, of the stored experiments. -/
  latestCost : String → Option ℚ
  launchExperimentRun : ℕ → RunExperimentRequest → Except String RunExperimentResponse

/-- What a round is expected to cost. -/
structure RoundCostEstimate where
  estimatedUsd : Option ℚ
  basis : String

/-- The known costs of the rounds' entries, by variant. -/
def perVariantCosts (rounds : List ArenaRound) (latestCost : String → Option ℚ) :
    Dict String (List ℚ) :=
  .gather ((rounds.flatMap (·.entries)).filterMap fun entry =>
    (entry.experimentId.bind latestCost).map fun cost => (entry.variantId, cost))

/-- The mean cost. -/
def average (costs : List ℚ) : ℚ := costs.sum / costs.length

/-- `estimate_round_cost`. -/
def estimateRoundCost (rounds : List ArenaRound) (latestCost : String → Option ℚ)
    (variantIds : List String) (reps : ℤ) : RoundCostEstimate :=
  let costs := perVariantCosts rounds latestCost
  let allCosts := (costs.items.map Prod.snd).flatten
  if allCosts = [] then ⟨none, "no cost history yet for this arena"⟩
  else
    let perRound vid := average ((costs.get? vid).getD allCosts)
    ⟨some (variantIds.map fun vid => perRound vid * reps).sum,
      s!"extrapolated from {allCosts.length} past round(s) across " ++
        s!"{costs.items.length} variant(s) in this arena"⟩

/-- The variants that are asked for, or else all that are ready. -/
def selectVariants (arenaId : String) (variants : List ArenaVariant) :
    Option (List String) → Except LaunchError (List ArenaVariant)
  | some ids => ids.mapM fun vid =>
    match variants.find? (·.id = vid) with
    | some variant => .ok variant
    | none => .error (.foreignVariant vid arenaId)
  | none => .ok (variants.filter (·.state = .ready))

/-- The rounds of the budget are not used up. -/
def checkRounds (arena : Arena) : Except LaunchError Unit :=
  match arena.budget.maxRounds with
  | some max => if max ≤
    arena.currentRound then .error (.roundsUsed arena.id arena.currentRound max) else .ok ()
  | none => .ok ()

/-- All variants of the round are ready, and there are some. -/
def checkReady (arenaId : String) (selected : List ArenaVariant) : Except LaunchError Unit :=
  let notReady := selected.filter (·.state ≠ .ready)
  if notReady ≠ [] then .error (.notReady (notReady.map (·.id)))
  else if selected = [] then .error (.noReadyVariants arenaId)
  else .ok ()

/-- The cost that is estimated for the round is within the budget. -/
def checkCost (arena : Arena) (rounds : List ArenaRound) (call : LaunchCall)
    (selected : List ArenaVariant) : Except LaunchError Unit :=
  match arena.budget.maxCostUsd with
  | none => .ok ()
  | some max =>
    let estimate := estimateRoundCost rounds call.latestCost (selected.map (·.id)) call.req.reps
    match estimate.estimatedUsd with
    | some usd => if max < usd then .error (.overBudget usd max estimate.basis) else .ok ()
    | none => .ok ()

/-- What `launch_round` checks before it writes: the variants it selects, unless it refuses. -/
def checkLaunch (arena : Arena) (rounds : List ArenaRound) (call : LaunchCall) :
    Except LaunchError (List ArenaVariant) := do
  checkRounds arena
  let selected ← selectVariants arena.id call.variants call.req.variantIds
  checkReady arena.id selected
  checkCost arena rounds call selected
  if call.req.reps < 1 then .error (.invalidReps call.req.reps) else .ok selected

/-! ### Launching the variants -/

/-- `_build_variant_spec`. -/
def buildVariantSpec (arena : Arena) (variant : ArenaVariant) (roundIndex : ℕ)
    (experimentId : String) : Object :=
  let experimentBlock := match arena.specTemplate.lookup "experiment" with
    | some (.obj fields) => fields
    | _ => []
  let experimentBlock := setItem "id" (.str experimentId) experimentBlock
  let experimentBlock :=
    setItem "name" (.str s!"{arena.name}/{variant.name}/r{roundIndex}") experimentBlock
  let env := variant.envOverrides.foldl (fun env item => setItem item.1 item.2 env) arena.agentEnv
  let cwd := match variant.worktreePath with
    | some path => Json.str path
    | none => .null
  let agentBlock : Object :=
    [("type", .str "cli"), ("command", .arr (arena.agentCommand.map .str)), ("cwd", cwd)]
  let agentBlock := if env = [] then agentBlock
    else setItem "env" (.obj (env.map fun item => (item.1, .str item.2))) agentBlock
  setItem "agent" (.obj agentBlock) (setItem "experiment" (.obj experimentBlock) arena.specTemplate)

/-- The request of the `k`-th variant. -/
def launchBody (arena : Arena) (call : LaunchCall) (roundIndex k : ℕ) (variant : ArenaVariant) :
    RunExperimentRequest where
  specInline := buildVariantSpec arena variant roundIndex (call.experimentId k)
  datasetId := arena.datasetId
  reps := call.req.reps

/-- The launch of one variant in a round. -/
def launchVariant (arena : Arena) (call : LaunchCall) (roundIndex k : ℕ) (variant : ArenaVariant) :
    Except LaunchError RoundEntry :=
  match call.launchExperimentRun k (launchBody arena call roundIndex k variant) with
  | .error what => .error (.raised what)
  | .ok response => .ok ⟨variant.id, some response.experimentId, response.jobId, response.state⟩

/-- The loop over the selected variants, from the `k`-th on: their entries, unless a launch raises.
-/
def launchVariants (arena : Arena) (call : LaunchCall) (roundIndex : ℕ) :
    ℕ → List ArenaVariant → Except LaunchError (List RoundEntry)
  | _, [] => .ok []
  | k, variant :: rest => do
    let entry ← launchVariant arena call roundIndex k variant
    let entries ← launchVariants arena call roundIndex (k + 1) rest
    return entry :: entries

/-! ### The store -/

/-- An arena and the rounds that are stored of it. -/
structure Store where
  arena : Arena
  rounds : List ArenaRound

def Store.indexes (s : Store) : List ℕ := s.rounds.map (·.index)

/-- `put_entity(round_)`, under `UNIQUE (arena_id, index_)`. -/
def putRound (rounds : List ArenaRound) (round : ArenaRound) :
    Except LaunchError (List ArenaRound) :=
  if ∃ r ∈ rounds, r.id ≠ round.id ∧ r.index = round.index then
    .error (.uniqueViolation round.arenaId round.index)
  else .ok (upsertOn (·.id) rounds round)

/-- `get_round`. -/
def getRound (rounds : List ArenaRound) (roundId : String) : Except LaunchError ArenaRound :=
  match rounds.find? (·.id = roundId) with
  | some round => .ok round
  | none => .error (.notFound roundId)

/-- The round as `launch_round` first stores it. -/
def newRound (arena : Arena) (call : LaunchCall) (selected : List ArenaVariant) : ArenaRound where
  id := call.roundId
  arenaId := arena.id
  index := arena.currentRound
  reps := call.req.reps
  state := .running
  entries := selected.map fun variant => { variantId := variant.id }

/-- The last writes of `launch_round`. -/
def finishRound (s : Store) (roundId : String) (roundIndex : ℕ) (entries : List RoundEntry) :
    Store × Except LaunchError ArenaRound :=
  match getRound s.rounds roundId with
  | .error e => (s, .error e)
  | .ok stored =>
    let stored := { stored with entries }
    match putRound s.rounds stored with
    | .error e => (s, .error e)
    | .ok rounds =>
      ({ arena := { s.arena with currentRound := roundIndex + 1, state := .active }, rounds },
        .ok stored)

/-- `launch_round`. -/
def launchRound (s : Store) (call : LaunchCall) : Store × Except LaunchError ArenaRound :=
  match checkLaunch s.arena s.rounds call with
  | .error e => (s, .error e)
  | .ok selected =>
    match putRound s.rounds (newRound s.arena call selected) with
    | .error e => (s, .error e)
    | .ok rounds =>
      -- what was put stays put if a launch raises
      match launchVariants s.arena call s.arena.currentRound 0 selected with
      | .error e => ({ s with rounds }, .error e)
      | .ok entries => finishRound { s with rounds } call.roundId s.arena.currentRound entries

/-- `_TERMINAL_EXPERIMENT_STATES`. -/
def terminalExperimentStates : List ExperimentState := [.completed, .aborted, .superseded]

/-- The state of an entry's experiment, if it has one that exists. -/
def experimentOf (experiments : String → Option ExperimentState) (entry : RoundEntry) :
    Option ExperimentState :=
  entry.experimentId.bind fun id => if id = "" then none else experiments id

/-- `refresh_round_status`. -/
def refreshRoundStatus (s : Store) (roundId : String)
    (experiments : String → Option ExperimentState) :
    Store × Except LaunchError ArenaRound :=
  match getRound s.rounds roundId with
  | .error e => (s, .error e)
  | .ok round =>
    let entries := round.entries.map fun entry =>
      { entry with status := ((experimentOf experiments entry).map Coded.value).getD entry.status }
    let allTerminal := round.entries.all fun entry =>
      (experimentOf experiments entry).any (· ∈ terminalExperimentStates)
    let state := if allTerminal ∧ round.state = .running then .completed else round.state
    let round := { round with entries, state }
    match putRound s.rounds round with
    | .error e => (s, .error e)
    | .ok rounds => ({ s with rounds }, .ok round)

/-- Launches of rounds, and runs that end. -/
inductive Op
  | launch (call : LaunchCall)
  | refresh (roundId : String) (experiments : String → Option ExperimentState)

/-- One call. The id that `launch_round` makes is a new one. -/
def step (s : Store) : Op → Option Store
  | .launch call => if call.roundId ∈ s.rounds.map (·.id) then none else some (launchRound s call).1
  | .refresh roundId experiments => some (refreshRoundStatus s roundId experiments).1

/-! ### What is claimed of a run -/

/-- An arena that was just created. -/
def created (arena : Arena) : Store := ⟨{ arena with currentRound := 0 }, []⟩

/-- The rounds have the indexes below the counter, each once. -/
def Numbered (s : Store) : Prop := s.indexes.Nodup ∧ ∀ i, i ∈ s.indexes ↔ i < s.arena.currentRound

/-- **Round integrity**: in every state of the run the rounds are numbered by the counter, and a
`launch_round` that raises leaves the arena and its rounds as they were. -/
def Intact (s : Store) (ops : List Op) : Prop :=
  ∀ done left t, ops = done ++ left → exec step s done = some t →
    Numbered t ∧ ∀ call later e, left = .launch call :: later → (launchRound t call).2 = .error e →
      (launchRound t call).1 = t

/-- No launch of a selected variant raises. -/
def Launches (arena : Arena) (call : LaunchCall) (selected : List ArenaVariant) : Prop :=
  ∀ k variant, selected[k]? = some variant → ∃ response,
    call.launchExperimentRun k (launchBody arena call arena.currentRound k variant) = .ok response

/-- A `launch_round` that passes its checks launches every variant. -/
def LaunchesAll (s : Store) : Op → Prop
  | .launch call => ∀ selected, checkLaunch s.arena s.rounds call = .ok selected →
      Launches s.arena call selected
  | .refresh _ _ => True

/-! ### One call -/

theorem launchVariant_ok_iff (arena : Arena) (call : LaunchCall) (roundIndex k : ℕ)
    (variant : ArenaVariant) :
    (∃ entry, launchVariant arena call roundIndex k variant = .ok entry) ↔
      ∃ response, call.launchExperimentRun k (launchBody arena call roundIndex k variant) =
        .ok response := by
  unfold launchVariant
  cases call.launchExperimentRun k (launchBody arena call roundIndex k variant) <;> simp

theorem launchVariants_ok_iff (arena : Arena) (call : LaunchCall) (roundIndex k : ℕ)
    (selected : List ArenaVariant) :
    (∃ entries, launchVariants arena call roundIndex k selected = .ok entries) ↔
      ∀ i variant, selected[i]? = some variant →
        ∃ entry, launchVariant arena call roundIndex (k + i) variant = .ok entry := by
  induction selected generalizing k with
  | nil => simp [launchVariants]
  | cons variant rest ih =>
    constructor
    · rintro ⟨entries, h⟩ i v hv
      obtain ⟨entry, hentry, h⟩ := bind_eq_ok.mp h
      obtain ⟨later, hlater, -⟩ := bind_eq_ok.mp h
      cases i with
      | zero =>
        obtain rfl : variant = v := by simpa using hv
        exact ⟨entry, hentry⟩
      | succ i =>
        have hshift : k + (i + 1) = k + 1 + i := by omega
        rw [hshift]
        exact (ih (k + 1)).mp ⟨later, hlater⟩ i v hv
    · intro h
      obtain ⟨entry, hentry⟩ := h 0 variant rfl
      obtain ⟨later, hlater⟩ := (ih (k + 1)).mpr fun i v hv => by
        have hshift : k + 1 + i = k + (i + 1) := by omega
        rw [hshift]
        exact h (i + 1) v hv
      exact ⟨entry :: later, bind_eq_ok.mpr ⟨entry, hentry, bind_eq_ok.mpr ⟨later, hlater, rfl⟩⟩⟩

theorem launches_iff (arena : Arena) (call : LaunchCall) (selected : List ArenaVariant) :
    (∃ entries, launchVariants arena call arena.currentRound 0 selected = .ok entries) ↔
      Launches arena call selected := by
  rw [launchVariants_ok_iff]
  refine forall₃_congr fun i variant _ => ?_
  rw [Nat.zero_add]
  exact launchVariant_ok_iff arena call arena.currentRound i variant

/-- The primary key and the unique constraint of the table. -/
structure Keyed (rounds : List ArenaRound) : Prop where
  ids : (rounds.map (·.id)).Nodup
  indexes : (rounds.map (·.index)).Nodup

section Put
variable {rounds rounds' : List ArenaRound} {round stored : ArenaRound}

theorem putRound_of_new (hid : round.id ∉ rounds.map (·.id)) :
    putRound rounds round =
      if round.index ∈ rounds.map (·.index) then .error (.uniqueViolation round.arenaId round.index)
      else .ok (rounds ++ [round]) := by
  have htaken : (∃ r ∈ rounds, r.id ≠ round.id ∧ r.index = round.index) ↔
      round.index ∈ rounds.map (·.index) := by
    rw [List.mem_map]
    constructor
    · rintro ⟨r, hr, -, hindex⟩
      exact ⟨r, hr, hindex⟩
    · rintro ⟨r, hr, hindex⟩
      exact ⟨r, hr, fun heq => hid (heq ▸ List.mem_map_of_mem hr), hindex⟩
  unfold putRound
  rw [upsertOn_of_new hid]
  exact if_congr htaken rfl rfl

/-- **A stored round is written again** under its id and index, and no other changes these. -/
theorem putRound_of_stored (hkeyed : Keyed rounds) (hstored : stored ∈ rounds)
    (hid : round.id = stored.id) (hindex : round.index = stored.index) :
    ∃ rounds', putRound rounds round = .ok rounds' ∧
      rounds'.map (·.id) = rounds.map (·.id) ∧ rounds'.map (·.index) = rounds.map (·.index) := by
  have hfree : ¬∃ r ∈ rounds, r.id ≠ round.id ∧ r.index = round.index := by
    rintro ⟨r, hr, hne, heq⟩
    have hsame := eq_of_key hkeyed.indexes hr hstored (heq.trans hindex)
    exact hne (hsame ▸ hid.symm)
  have hmem : round.id ∈ rounds.map (·.id) := hid ▸ List.mem_map_of_mem hstored
  -- only the stored round has the id
  have hcol : ∀ {β : Type} (col : ArenaRound → β), col round = col stored →
      (updateWhere (fun r => r.id = round.id) (fun _ => round) rounds).map col =
        rounds.map col := by
    intro β col hcol
    rw [updateWhere, List.map_map]
    refine List.map_congr_left fun r hr => ?_
    by_cases hr' : r.id = round.id
    · obtain rfl := eq_of_key hkeyed.ids hr hstored (hr'.trans hid)
      simp [hid, hcol]
    · simp [hr']
  refine ⟨_, if_neg hfree, ?_, ?_⟩
  · rw [upsertOn, if_pos hmem]
    exact hcol (·.id) hid
  · rw [upsertOn, if_pos hmem]
    exact hcol (·.index) hindex

theorem mem_of_getRound {roundId : String} (h : getRound rounds roundId = .ok round) :
    round ∈ rounds ∧ round.id = roundId := by
  unfold getRound at h
  split at h
  next found hfound =>
    obtain rfl := Except.ok.inj h
    exact ⟨List.mem_of_find?_eq_some hfound, by simpa using List.find?_some hfound⟩
  next => cases h

end Put

section Call
variable {s : Store} {call : LaunchCall}

theorem launchRound_refused (hid : call.roundId ∉ s.rounds.map (·.id))
    (h : (∃ e, checkLaunch s.arena s.rounds call = .error e) ∨ s.arena.currentRound ∈ s.indexes) :
    ∃ e, launchRound s call = (s, .error e) := by
  unfold launchRound
  cases hcheck : checkLaunch s.arena s.rounds call with
  | error e => exact ⟨e, rfl⟩
  | ok selected =>
    have htaken : s.arena.currentRound ∈ s.indexes := by simpa [hcheck] using h
    have hput : putRound s.rounds (newRound s.arena call selected) =
        .error (.uniqueViolation s.arena.id s.arena.currentRound) := by
      rw [putRound_of_new hid]
      exact if_pos htaken
    dsimp only
    rw [hput]
    exact ⟨_, rfl⟩

/-- **A launch in which a variant's raises** leaves the round. -/
theorem launchRound_raised (hid : call.roundId ∉ s.rounds.map (·.id)) {selected : List ArenaVariant}
    (hcheck : checkLaunch s.arena s.rounds call = .ok selected)
    (hfree : s.arena.currentRound ∉ s.indexes) (h : ¬Launches s.arena call selected) :
    ∃ e, launchRound s call =
      ({ s with rounds := s.rounds ++ [newRound s.arena call selected] }, .error e) := by
  have hput : putRound s.rounds (newRound s.arena call selected) =
      .ok (s.rounds ++ [newRound s.arena call selected]) := by
    rw [putRound_of_new hid]
    exact if_neg hfree
  unfold launchRound
  rw [hcheck]
  dsimp only
  rw [hput]
  dsimp only
  cases hresult : launchVariants s.arena call s.arena.currentRound 0 selected with
  | error e => exact ⟨e, rfl⟩
  | ok entries => exact absurd ((launches_iff s.arena call selected).mp ⟨entries, hresult⟩) h

/-- **A launch that goes through** stores one more round, under the counter, and raises the counter.
-/
theorem launchRound_launched (hkeyed : Keyed s.rounds) (hid : call.roundId ∉ s.rounds.map (·.id))
    {selected : List ArenaVariant} (hcheck : checkLaunch s.arena s.rounds call = .ok selected)
    (hfree : s.arena.currentRound ∉ s.indexes) (h : Launches s.arena call selected) :
    ∃ round, (launchRound s call).2 = .ok round ∧
      (launchRound s call).1.arena.currentRound = s.arena.currentRound + 1 ∧
      (launchRound s call).1.rounds.map (·.id) = s.rounds.map (·.id) ++ [call.roundId] ∧
      (launchRound s call).1.indexes = s.indexes ++ [s.arena.currentRound] := by
  have hput : putRound s.rounds (newRound s.arena call selected) =
      .ok (s.rounds ++ [newRound s.arena call selected]) := by
    rw [putRound_of_new hid]
    exact if_neg hfree
  obtain ⟨entries, hentries⟩ := (launches_iff s.arena call selected).mpr h
  have hids : (s.rounds ++ [newRound s.arena call selected]).map (·.id) =
      s.rounds.map (·.id) ++ [call.roundId] := by simp [newRound]
  have hindexes : (s.rounds ++ [newRound s.arena call selected]).map (·.index) =
      s.indexes ++ [s.arena.currentRound] := by simp [newRound, Store.indexes]
  have hkeyed' : Keyed (s.rounds ++ [newRound s.arena call selected]) := by
    constructor
    · rw [hids, ← List.concat_eq_append]
      exact List.Nodup.concat hid hkeyed.ids
    · rw [hindexes, ← List.concat_eq_append]
      exact List.Nodup.concat hfree hkeyed.indexes
  -- the new round is the one that is read back
  have hget : getRound (s.rounds ++ [newRound s.arena call selected]) call.roundId =
      .ok (newRound s.arena call selected) := by
    have hnone : s.rounds.find? (·.id = call.roundId) = none := by
      refine List.find?_eq_none.mpr fun r hr heq => hid ?_
      rw [← of_decide_eq_true heq]
      exact List.mem_map_of_mem hr
    simp [getRound, List.find?_append, hnone, newRound]
  let finished : ArenaRound := { newRound s.arena call selected with entries }
  have hid' : finished.id = (newRound s.arena call selected).id := rfl
  have hindex' : finished.index = (newRound s.arena call selected).index := rfl
  obtain ⟨rounds', hput', hids', hindexes'⟩ := putRound_of_stored hkeyed'
    (List.mem_append_right _ (List.mem_singleton_self _)) hid' hindex'
  have hresult : launchRound s call =
      ({ arena := { s.arena with currentRound := s.arena.currentRound + 1, state := .active }
         rounds := rounds' }, .ok finished) := by
    unfold launchRound
    rw [hcheck]
    dsimp only
    rw [hput]
    dsimp only
    rw [hentries]
    dsimp only
    rw [finishRound, hget]
    show (match putRound (s.rounds ++ [newRound s.arena call selected]) finished with
      | .error e => _
      | .ok rounds => _) = _
    rw [hput']
  rw [hresult]
  exact ⟨_, rfl, rfl, hids'.trans hids, hindexes'.trans hindexes⟩

theorem refreshRoundStatus_kept (hkeyed : Keyed s.rounds) (roundId : String)
    (experiments : String → Option ExperimentState) :
    (refreshRoundStatus s roundId experiments).1.arena = s.arena ∧
      (refreshRoundStatus s roundId experiments).1.rounds.map (·.id) = s.rounds.map (·.id) ∧
      (refreshRoundStatus s roundId experiments).1.indexes = s.indexes := by
  unfold refreshRoundStatus
  cases hget : getRound s.rounds roundId with
  | error e => exact ⟨rfl, rfl, rfl⟩
  | ok round =>
    dsimp only
    generalize hround : ({ round with entries := _, state := _ } : ArenaRound) = round'
    have hid : round'.id = round.id := by rw [← hround]
    have hindex : round'.index = round.index := by rw [← hround]
    obtain ⟨rounds', hput, hids, hindexes⟩ :=
      putRound_of_stored hkeyed (mem_of_getRound hget).1 hid hindex
    rw [hput]
    exact ⟨rfl, hids, hindexes⟩

end Call

/-! ### Runs -/

section Runs
variable {s s' : Store} {op : Op}

theorem step_launch {call : LaunchCall} (h : step s (.launch call) = some s') :
    call.roundId ∉ s.rounds.map (·.id) ∧ s' = (launchRound s call).1 := by
  simp only [step] at h
  split_ifs at h with hid
  exact ⟨hid, (Option.some.inj h).symm⟩

/-- **What a step does**: it keeps the counter, the ids and the indexes, it adds the round under the
counter, or it adds it and raises the counter. -/
theorem step_cases (hkeyed : Keyed s.rounds) (h : step s op = some s') :
    (s'.arena.currentRound = s.arena.currentRound ∧ s'.rounds.map (·.id) = s.rounds.map (·.id) ∧
        s'.indexes = s.indexes) ∨
      (s.arena.currentRound ∉ s.indexes ∧
        (s'.arena.currentRound = s.arena.currentRound ∧ ¬LaunchesAll s op ∨
          s'.arena.currentRound = s.arena.currentRound + 1) ∧
        (∃ id ∉ s.rounds.map (·.id), s'.rounds.map (·.id) = s.rounds.map (·.id) ++ [id]) ∧
        s'.indexes = s.indexes ++ [s.arena.currentRound]) := by
  cases op with
  | launch call =>
    obtain ⟨hid, rfl⟩ := step_launch h
    by_cases hfree : s.arena.currentRound ∈ s.indexes
    · obtain ⟨e, hrefused⟩ := launchRound_refused hid (.inr hfree)
      rw [hrefused]
      exact .inl ⟨rfl, rfl, rfl⟩
    · cases hcheck : checkLaunch s.arena s.rounds call with
      | error e =>
        obtain ⟨e, hrefused⟩ := launchRound_refused hid (.inl ⟨e, hcheck⟩)
        rw [hrefused]
        exact .inl ⟨rfl, rfl, rfl⟩
      | ok selected =>
        by_cases hall : Launches s.arena call selected
        · obtain ⟨round, -, hcounter, hids, hindexes⟩ :=
            launchRound_launched hkeyed hid hcheck hfree hall
          exact .inr ⟨hfree, .inr hcounter, ⟨_, hid, hids⟩, hindexes⟩
        · obtain ⟨e, hraised⟩ := launchRound_raised hid hcheck hfree hall
          rw [hraised]
          refine .inr ⟨hfree, .inl ⟨rfl, fun h => hall (h selected hcheck)⟩, ⟨_, hid, ?_⟩, ?_⟩
          · simp [newRound]
          · simp [newRound, Store.indexes]
  | refresh roundId experiments =>
    obtain rfl := Option.some.inj h
    obtain ⟨harena, hids, hindexes⟩ := refreshRoundStatus_kept hkeyed roundId experiments
    exact .inl ⟨congrArg Arena.currentRound harena, hids, hindexes⟩

theorem keyed_step (hkeyed : Keyed s.rounds) (h : step s op = some s') : Keyed s'.rounds := by
  rcases step_cases hkeyed h with ⟨-, hids, hindexes⟩ | ⟨hfree, -, ⟨id, hid, hids⟩, hindexes⟩
  · constructor
    · rw [hids]
      exact hkeyed.ids
    · rw [← Store.indexes, hindexes]
      exact hkeyed.indexes
  · constructor
    · rw [hids, ← List.concat_eq_append]
      exact List.Nodup.concat hid hkeyed.ids
    · rw [← Store.indexes, hindexes, ← List.concat_eq_append]
      exact List.Nodup.concat hfree hkeyed.indexes

theorem keyed_created (arena : Arena) :
    Keyed (created arena).rounds := ⟨List.nodup_nil, List.nodup_nil⟩

theorem numbered_created (arena : Arena) : Numbered (created arena) := by
  refine ⟨List.nodup_nil, fun i => ?_⟩
  simp [created, Store.indexes]

theorem numbered_step (hkeyed : Keyed s.rounds) (hnumbered : Numbered s)
    (hlaunch : LaunchesAll s op)
    (h : step s op = some s') : Numbered s' := by
  rcases step_cases hkeyed h with ⟨hcounter, -, hindexes⟩ | ⟨hfree, hcounter, -, hindexes⟩
  · unfold Numbered
    rw [hcounter, hindexes]
    exact hnumbered
  · have hraised : s'.arena.currentRound = s.arena.currentRound + 1 := by
      rcases hcounter with ⟨-, hnot⟩ | hcounter
      · exact absurd hlaunch hnot
      · exact hcounter
    refine ⟨?_, fun i => ?_⟩
    · rw [hindexes, ← List.concat_eq_append]
      exact List.Nodup.concat hfree hnumbered.1
    · rw [hindexes, hraised, List.mem_append, hnumbered.2, List.mem_singleton]
      omega

/-- **A round that is stored under the counter blocks the arena**: in every run from there no round
is added and the counter stays. -/
theorem stuck_of_written {ops : List Op} (hkeyed : Keyed s.rounds)
    (hwritten : s.arena.currentRound ∈ s.indexes) (hrun : exec step s ops = some s') :
    s'.arena.currentRound = s.arena.currentRound ∧ s'.indexes = s.indexes := by
  have hstep : ∀ t a t', (Keyed t.rounds ∧ t.arena.currentRound = s.arena.currentRound ∧
      t.indexes = s.indexes) → step t a = some t' →
      Keyed t'.rounds ∧ t'.arena.currentRound = s.arena.currentRound ∧ t'.indexes = s.indexes := by
    rintro t a t' ⟨hkeyed, hcounter, hindexes⟩ ht
    rcases step_cases hkeyed ht with ⟨hcounter', -, hindexes'⟩ | ⟨hfree, -⟩
    · exact ⟨keyed_step hkeyed ht, hcounter'.trans hcounter, hindexes'.trans hindexes⟩
    · rw [hcounter, hindexes] at hfree
      exact absurd hwritten hfree
  exact (inv_of_exec hstep ⟨hkeyed, rfl, rfl⟩ hrun).2

theorem not_kept_of_raised (hnumbered : Numbered s) {call : LaunchCall}
    (hid : call.roundId ∉ s.rounds.map (·.id)) {selected : List ArenaVariant}
    (hcheck : checkLaunch s.arena s.rounds call = .ok selected)
    (h : ¬Launches s.arena call selected) :
    ∃ e, (launchRound s call).2 = .error e ∧ (launchRound s call).1 ≠ s := by
  have hfree : s.arena.currentRound ∉ s.indexes := fun hmem =>
    absurd ((hnumbered.2 _).mp hmem) (lt_irrefl _)
  obtain ⟨e, hraised⟩ := launchRound_raised hid hcheck hfree h
  rw [hraised]
  refine ⟨e, rfl, fun heq => ?_⟩
  have hlength := congrArg (fun t => t.rounds.length) heq
  simp at hlength

end Runs

/-- **Round integrity holds in a run** if and only if no `launch_round` of it that passes its checks
meets a launch of a variant that raises. -/
theorem intact_iff {arena : Arena} {ops : List Op} {s : Store}
    (hrun : exec step (created arena) ops = some s) :
    Intact (created arena) ops ↔ Guarded step LaunchesAll (created arena) ops := by
  rw [guarded_iff]
  constructor
  · intro h done op later t hops ht
    cases op with
    | refresh roundId experiments => exact trivial
    | launch call =>
      intro selected hcheck
      by_contra hnot
      obtain ⟨hnumbered, hkept⟩ := h done (.launch call :: later) t hops ht
      rw [hops, exec_append_of ht] at hrun
      obtain ⟨t', ht', -⟩ := exec_cons_eq_some.mp hrun
      obtain ⟨e, herror, hne⟩ := not_kept_of_raised hnumbered (step_launch ht').1 hcheck hnot
      exact hne (hkept call later e rfl herror)
  · intro h done left t hops ht
    have hguarded : Guarded step LaunchesAll (created arena) done := by
      rw [guarded_iff]
      rintro pre op post u rfl hu
      exact h pre op (post ++ left) u (by rw [hops, List.append_assoc, List.cons_append]) hu
    obtain ⟨hkeyed, hnumbered⟩ : Keyed t.rounds ∧ Numbered t := by
      have hstep :
        ∀ u op u', (Keyed u.rounds ∧ Numbered u) → LaunchesAll u op → step u op = some u' →
          Keyed u'.rounds ∧ Numbered u' := fun u op u' hu hop hstep =>
        ⟨keyed_step hu.1 hstep, numbered_step hu.1 hu.2 hop hstep⟩
      exact inv_of_guarded hstep ⟨keyed_created arena, numbered_created arena⟩ hguarded ht
    refine ⟨hnumbered, ?_⟩
    rintro call later e rfl herror
    have hlaunch : LaunchesAll t (.launch call) := h done (.launch call) later t hops ht
    rw [hops, exec_append_of ht] at hrun
    obtain ⟨t', ht', -⟩ := exec_cons_eq_some.mp hrun
    have hid := (step_launch ht').1
    have hfree : t.arena.currentRound ∉ t.indexes := fun hmem =>
      absurd ((hnumbered.2 _).mp hmem) (lt_irrefl _)
    cases hcheck : checkLaunch t.arena t.rounds call with
    | error e' =>
      obtain ⟨e'', hrefused⟩ := launchRound_refused hid (.inl ⟨e', hcheck⟩)
      rw [hrefused]
    | ok selected =>
      obtain ⟨round, hround, -⟩ :=
        launchRound_launched hkeyed hid hcheck hfree (hlaunch selected hcheck)
      cases hround.symm.trans herror

section Examples

def oneVariant : ArenaVariant := { id := "var_1", name := "baseline", state := .ready }

/-- A round of one variant. -/
def callOf (result : Except String RunExperimentResponse) : LaunchCall where
  roundId := "rnd_1"
  experimentId _ := "exp_1"
  variants := [oneVariant]
  latestCost _ := none
  launchExperimentRun _ _ := result

def refunds : Arena := { id := "arn_1", name := "refunds", agentCommand := ["agent"] }

/-- Its launch goes through. -/
theorem intact_launched :
    Intact (created refunds) [.launch (callOf (.ok ⟨"exp_1", none, "queued"⟩))] := by
  refine (intact_iff rfl).mpr ⟨fun selected _ k variant _ => ⟨_, rfl⟩, fun _ _ => trivial⟩

/-- **Its launch raises**, and the round stays. -/
theorem not_all_intact : ¬∀ (arena : Arena) (ops : List Op) (s : Store),
    exec step (created arena) ops = some s → Intact (created arena) ops := by
  intro h
  have hintact := h refunds [.launch (callOf (.error "no such worktree"))] _ rfl
  have hkept := (hintact [] _ _ rfl rfl).2 (callOf (.error "no such worktree")) [] _ rfl rfl
  have hlength : 1 = 0 := congrArg (fun s => s.rounds.length) hkept
  exact absurd hlength one_ne_zero

/-- The round that stayed blocks the next launch, though it goes through. -/
theorem stuck_of_written_raised :
    let s := (launchRound (created refunds) (callOf (.error "no such worktree"))).1
    let call := { callOf (.ok ⟨"exp_1", none, "queued"⟩) with roundId := "rnd_2" }
    ∃ s', exec step s [.launch call] = some s' ∧
      s'.arena.currentRound = s.arena.currentRound ∧ s'.indexes = s.indexes := by
  intro s call
  have hstep : step (created refunds) (.launch (callOf (.error "no such worktree"))) = some s := rfl
  have hwritten : s.arena.currentRound ∈ s.indexes := by decide +kernel
  have hrun : exec step s [.launch call] = some (launchRound s call).1 := rfl
  exact ⟨_, hrun, stuck_of_written (keyed_step (keyed_created refunds) hstep) hwritten hrun⟩

end Examples

end Selfevals.Arena.Rounds
