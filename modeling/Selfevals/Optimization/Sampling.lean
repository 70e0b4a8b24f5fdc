import Mathlib.Data.Prod.Lex
import Mathlib.Data.String.Basic
import Selfevals.Lib.Apportionment
import Selfevals.Lib.Sql
import Selfevals.Schemas.Datasets

/-!
# Which cases enter the optimization loop

`optimization/sampling.py`: the cases that are not held out, all of them or a subset that is drawn
with the seed of the run. A stratified subset gives each feature its share of the seats by largest
remainders. Floats are exact rationals, and what the standard library draws is a `Sampler`.
-/

namespace Selfevals.Optimization.Sampling

open Lib.Apportionment Lib.Mapping Lib.Sql Schemas.Datasets Schemas.Experiments
open Repo.Loader.Models (SplitAllocation)

variable {κ : Type}

/-! ### Drawing -/

/-- What `random.Random` is seeded with. -/
inductive Seed
  | int (seed : ℤ)
  | text (seed : String)

/-- `random.Random(seed).sample(population, k)`: `k` of the population, each no more often than it
is there. -/
structure Sampler where
  sample : Seed → List ℕ → ℕ → List ℕ
  length_sample : ∀ seed population k, k ≤ population.length →
    (sample seed population k).length = k
  subperm_sample : ∀ seed population k, k ≤ population.length →
    (sample seed population k).Subperm population

/-- The first ones are a draw. -/
instance : Inhabited Sampler where
  default := {
    sample _ population k := population.take k
    length_sample _ _ _ h := List.length_take.trans (min_eq_left h)
    subperm_sample _ population k _ := (List.take_sublist k population).subperm }

/-! ### The code -/

/-- The cases that are optimised on, and those that are held out. -/
structure OptimizationSplit (κ : Type) where
  optimization : List (EvalCase κ)
  holdout : List (EvalCase κ)

def defaultSeed : ℤ := 0

/-- `_seed`. -/
def seedOf (run : RunSpec) : ℤ := run.seed.getD defaultSeed

/-- `_fraction`. -/
def fractionOf : Option SplitAllocation → ℚ
  | none => 1
  | some split => split.optimization

/-- `round(x)`: to the nearest, and to the even one of two. -/
def round (x : ℚ) : ℤ :=
  if Int.fract x < 1 / 2 then ⌊x⌋
  else if 1 / 2 < Int.fract x then ⌊x⌋ + 1
  else if ⌊x⌋ % 2 = 0 then ⌊x⌋ else ⌊x⌋ + 1

/-- `int(x)`: towards zero. -/
def trunc (x : ℚ) : ℤ := if 0 ≤ x then ⌊x⌋ else ⌈x⌉

/-- `_target_size`. -/
def targetSize (poolSize : ℕ) (fraction : ℚ) : ℕ :=
  if poolSize = 0 then 0
  else
    let target := round (fraction * poolSize)
    let target := if 0 < fraction ∧ target = 0 then 1 else target
    (max 0 (min (poolSize : ℤ) target)).toNat

/-- `[c for i, c in enumerate(pool) if i in chosen]`. -/
def pick {α : Type} (pool : List α) (chosen : List ℕ) : List α :=
  (pool.zipIdx.filter fun item => item.2 ∈ chosen).map Prod.fst

variable (rng : Sampler)

/-- `_random_subset`. -/
def randomSubset (pool : List (EvalCase κ)) (fraction : ℚ) (seed : ℤ) : List (EvalCase κ) :=
  let target := targetSize pool.length fraction
  if pool.length ≤ target then pool
  else pick pool (rng.sample (.int seed) (List.range pool.length) target)

/-- The coverage dimension. -/
def feature (c : EvalCase κ) : String := c.content.taxonomy.featurePrimary

/-- The positions of the cases of each feature. -/
def strataOf (pool : List (EvalCase κ)) : Dict String (List ℕ) :=
  .gather (pool.zipIdx.map fun item => (feature item.1, item.2))

/-- The floor of each share. -/
def floorCounts (fraction : ℚ) (strata : Dict String (List ℕ)) : Dict String ℤ :=
  strata.mapValues fun idxs => trunc (fraction * idxs.length)

/-- The features, those with the largest remainders first. -/
def remainders (fraction : ℚ) (strata : Dict String (List ℕ)) : List String :=
  orderBy (fun key =>
    let raw := fraction * ((strata.get? key).getD []).length
    toLex (-(raw - ((floorCounts fraction strata).get? key).getD 0), key)) strata.keys

/-- How many cases of each feature are kept. -/
def stratumCounts (fraction : ℚ) (strata : Dict String (List ℕ)) (target : ℕ) : Dict String ℤ :=
  let counts := floorCounts fraction strata
  let leftover := target - counts.values.sum
  if 0 < leftover then
    ((remainders fraction strata).take leftover.toNat).foldl (fun counts key =>
      counts.set key (min ((counts.get? key).getD 0 + 1) ((strata.get? key).getD []).length)) counts
  else counts

/-- What is drawn of one feature. -/
def drawOf (counts : Dict String ℤ) (seed : ℤ) (item : String × List ℕ) : List ℕ :=
  let take := min ((counts.get? item.1).getD 0) item.2.length
  if take ≤ 0 then [] else rng.sample (.text s!"{seed}:{item.1}") item.2 take.toNat

def chosenOf (strata : Dict String (List ℕ)) (counts : Dict String ℤ) (seed : ℤ) : List ℕ :=
  strata.items.flatMap (drawOf rng counts seed)

/-- `_stratified_subset`. -/
def stratifiedSubset (pool : List (EvalCase κ)) (fraction : ℚ) (seed : ℤ) : List (EvalCase κ) :=
  let target := targetSize pool.length fraction
  if pool.length ≤ target then pool
  else if target = 0 then []
  else
    let strata := strataOf pool
    let chosen := chosenOf rng strata (stratumCounts fraction strata target) seed
    let selected := pick pool chosen
    if selected.length < target then
      let remaining := (List.range pool.length).filter fun i => i ∉ chosen
      let extra := rng.sample (.text s!"{seed}:__topup__") remaining
        (min (target - selected.length) remaining.length)
      pick pool (chosen ++ extra)
    else selected

/-- `select_optimization_set`. -/
def selectOptimizationSet (cases : List (EvalCase κ)) (run : RunSpec)
    (splitAllocation : Option SplitAllocation) : OptimizationSplit κ :=
  let holdout := cases.filter (·.content.holdout)
  let pool := cases.filter (!·.content.holdout)
  let selected :=
    match run.sampleStrategy with
    | .full => pool
    | .randomSubset => randomSubset rng pool (fractionOf splitAllocation) (seedOf run)
    | .stratified => stratifiedSubset rng pool (fractionOf splitAllocation) (seedOf run)
  { optimization := selected, holdout }

/-! ### The target -/

section Target
variable {f : ℚ} {n : ℕ}

theorem round_bounds (x : ℚ) : ⌊x⌋ ≤ round x ∧ round x ≤ ⌈x⌉ := by
  have hceil : Int.fract x ≠ 0 → ⌊x⌋ + 1 = ⌈x⌉ :=
    fun h => (Int.ceil_eq_floor_add_one_iff_notMem x).mpr
    (fun hx => h (Int.fract_eq_zero_iff.mpr hx)) |>.symm
  have hle := Int.floor_le_ceil x
  unfold round
  split_ifs with hlow hhigh heven
  · exact ⟨le_rfl, hle⟩
  · exact ⟨by omega, (hceil (by linarith)).le⟩
  · exact ⟨le_rfl, hle⟩
  · exact ⟨by omega, (hceil (by linarith)).le⟩

/-- **The target is the fraction of the pool, rounded down or up**; the least one is a rounding up.
-/
theorem targetSize_bounds (hf : 0 ≤ f ∧ f ≤ 1) :
    ⌊f * n⌋ ≤ targetSize n f ∧ (targetSize n f : ℤ) ≤ ⌈f * n⌉ := by
  unfold targetSize
  by_cases hn : n = 0
  · simp [hn]
  have hfn : f * n ≤ n := mul_le_of_le_one_left (Nat.cast_nonneg n) hf.2
  have hpos : 0 ≤ f * n := mul_nonneg hf.1 (Nat.cast_nonneg n)
  have hfloor : 0 ≤ ⌊f * n⌋ := Int.floor_nonneg.mpr hpos
  have hceil : ⌈f * n⌉ ≤ n := Int.ceil_le.mpr (by exact_mod_cast hfn)
  obtain ⟨hlow, hhigh⟩ := round_bounds (f * n)
  rw [if_neg hn]
  dsimp only
  split_ifs with hbump
  · have hone : 0 < ⌈f * n⌉ :=
      Int.ceil_pos.mpr (mul_pos hbump.1 (by exact_mod_cast Nat.pos_of_ne_zero hn))
    omega
  · omega

theorem fraction_eq_zero_of_target (hf : 0 ≤ f) (hn : n ≠ 0) (h : targetSize n f = 0) : f = 0 := by
  by_contra hne
  have hpos : 0 < f := lt_of_le_of_ne hf (Ne.symm hne)
  have hround : 0 ≤ round (f * n) :=
    (Int.floor_nonneg.mpr (mul_nonneg hf (Nat.cast_nonneg n))).trans (round_bounds _).1
  unfold targetSize at h
  rw [if_neg hn] at h
  dsimp only at h
  split_ifs at h with hbump
  · omega
  · have hnonzero : round (f * n) ≠ 0 := fun hzero => hbump ⟨hpos, hzero⟩
    omega

end Target

/-! ### The strata -/

section Strata
variable (pool : List (EvalCase κ))

/-- The positions of the cases of a feature. -/
def positions (key : String) : List ℕ :=
  (pool.zipIdx.filter fun item => feature item.1 = key).map Prod.snd

/-- How many cases of a feature there are. -/
def sizeOf (key : String) : ℕ := pool.countP fun c => feature c = key

theorem get?_strataOf (key : String) : (strataOf pool).get? key =
    if positions pool key = [] then none else some (positions pool key) := by
  have hunder : Dict.under key (pool.zipIdx.map fun item => (feature item.1, item.2)) =
      positions pool key := by
    rw [Dict.under, List.filter_map, List.map_map]
    rfl
  rw [strataOf, Dict.get?_gather, hunder]

theorem getD_strataOf (key : String) :
    ((strataOf pool).get? key).getD [] = positions pool key := by
  rw [get?_strataOf]
  split_ifs with h
  · exact h.symm
  · rfl

theorem eq_positions_of_mem {item : String × List ℕ} (h : item ∈ (strataOf pool).items) :
    item.2 = positions pool item.1 := by
  have hget := (Dict.mem_items_iff _ item.1 item.2).mp h
  rw [← getD_strataOf, hget]
  rfl

theorem length_positions (key : String) : (positions pool key).length = sizeOf pool key := by
  rw [positions, List.length_map, ← List.countP_eq_length_filter, sizeOf]
  have hpool : (pool.zipIdx.map Prod.fst).countP (fun c => feature c = key) =
      pool.countP fun c => feature c = key := by rw [List.zipIdx_map_fst]
  rw [← hpool, List.countP_map]
  rfl

theorem nodup_positions (key : String) : (positions pool key).Nodup := by
  have hrange : (pool.zipIdx.map Prod.snd).Nodup := by
    rw [List.zipIdx_map_snd]
    exact List.nodup_range'
  exact hrange.sublist (List.filter_sublist.map _)

theorem key_eq_of_mem_positions {key key' : String} {i : ℕ} (h : i ∈ positions pool key)
    (h' : i ∈ positions pool key') : key = key' := by
  obtain ⟨⟨c, j⟩, hc, rfl⟩ := List.mem_map.mp h
  obtain ⟨⟨c', j'⟩, hc', hj⟩ := List.mem_map.mp h'
  obtain ⟨hmem, hkey⟩ := List.mem_filter.mp hc
  obtain ⟨hmem', hkey'⟩ := List.mem_filter.mp hc'
  obtain rfl : j' = j := hj
  rw [List.mk_mem_zipIdx_iff_getElem?] at hmem hmem'
  obtain rfl := Option.some.inj (hmem.symm.trans hmem')
  exact (of_decide_eq_true hkey).symm.trans (of_decide_eq_true hkey')

theorem mem_keys_strataOf {key : String} :
    key ∈ (strataOf pool).keys ↔ positions pool key ≠ [] := by
  rw [Dict.mem_keys_iff, get?_strataOf]
  split_ifs with h <;> simp [h]

theorem feature_mem_keys {c : EvalCase κ} (h : c ∈ pool) : feature c ∈ (strataOf pool).keys := by
  rw [mem_keys_strataOf, ← List.length_pos_iff, length_positions]
  exact List.countP_pos_iff.mpr ⟨c, h, by simp⟩

/-! ### What is picked -/

theorem pick_sublist {α : Type} (xs : List α) (chosen : List ℕ) : (pick xs chosen).Sublist xs := by
  have h : ((xs.zipIdx.filter fun item => item.2 ∈ chosen).map Prod.fst).Sublist
      (xs.zipIdx.map Prod.fst) := List.filter_sublist.map _
  rwa [List.zipIdx_map_fst] at h

theorem countP_pick (chosen : List ℕ) (key : String) :
    ((pick pool chosen).countP fun c => feature c = key) =
      (positions pool key).countP fun i => i ∈ chosen := by
  rw [pick, positions, List.countP_map, List.countP_map, List.countP_filter, List.countP_filter]
  refine List.countP_congr fun item _ => ?_
  simp [and_comm]

end Strata

/-! ### The counts -/

section Counts
variable (pool : List (EvalCase κ)) {f : ℚ} {target : ℕ}

/-- The fraction of a feature. -/
def share (f : ℚ) (key : String) : ℚ := f * sizeOf pool key

theorem values_floorCounts (hf : 0 ≤ f) : (floorCounts f (strataOf pool)).values =
    (strataOf pool).keys.map fun key => ⌊share pool f key⌋ := by
  have hitems : (floorCounts f (strataOf pool)).values =
      (strataOf pool).items.map fun item => trunc (f * item.2.length) := by
    show ((strataOf pool).items.filterMap _).map Prod.snd = _
    rw [List.map_filterMap]
    simp
  rw [hitems, Dict.keys, List.map_map]
  refine List.map_congr_left fun item hitem => ?_
  have hpos : 0 ≤ f * (item.2.length : ℚ) := mul_nonneg hf (Nat.cast_nonneg _)
  rw [trunc, if_pos hpos, eq_positions_of_mem pool hitem, length_positions]
  rfl

theorem getD_floorCounts (hf : 0 ≤ f) (key : String) :
    ((floorCounts f (strataOf pool)).get? key).getD 0 = ⌊share pool f key⌋ := by
  rw [floorCounts, Dict.mapValues, Dict.get?_filterMap, get?_strataOf]
  split_ifs with h
  · have hsize : sizeOf pool key = 0 := by rw [← length_positions, h]; rfl
    simp [share, hsize]
  · have hpos : 0 ≤ f * ((positions pool key).length : ℚ) := mul_nonneg hf (Nat.cast_nonneg _)
    rw [Option.bind_some, Option.getD_some, trunc, if_pos hpos, length_positions]
    rfl

theorem remainders_perm (f : ℚ) : (remainders f (strataOf pool)).Perm (strataOf pool).keys :=
  orderBy_perm _ _

theorem descending_remainders (hf : 0 ≤ f) :
    Descending (share pool f) (remainders f (strataOf pool)) := by
  refine (isOrdering_orderBy _ (List.Perm.refl (strataOf pool).keys)).2.imp fun {a b} hab => ?_
  have hrem : ∀ key, f * (((strataOf pool).get? key).getD []).length -
      (((floorCounts f (strataOf pool)).get? key).getD 0 : ℤ) = Int.fract (share pool f key) := by
    intro key
    rw [getD_floorCounts pool hf, getD_strataOf, length_positions]
    rfl
  dsimp only at hab
  rw [hrem, hrem, Prod.Lex.toLex_le_toLex] at hab
  obtain hlt | ⟨heq, -⟩ := hab
  · exact (neg_lt_neg_iff.mp hlt).le
  · exact (neg_inj.mp heq).ge

theorem get?_foldl_set (g : String → ℤ → ℤ) {ks : List String} (hks : ks.Nodup)
    (d : Dict String ℤ) (key : String) :
    (ks.foldl (fun d k => d.set k (g k ((d.get? k).getD 0))) d).get? key =
      if key ∈ ks then some (g key ((d.get? key).getD 0)) else d.get? key := by
  induction ks generalizing d with
  | nil => rfl
  | cons k ks ih =>
    obtain ⟨hk, hks⟩ := List.nodup_cons.mp hks
    rw [List.foldl_cons, ih hks, Dict.get?_set]
    by_cases hkey : key = k
    · subst hkey
      simp [hk]
    · simp [hkey]

theorem sum_share (f : ℚ) :
    ((remainders f (strataOf pool)).map (share pool f)).sum = f * pool.length := by
  rw [((remainders_perm pool f).map (share pool f)).sum_eq]
  have hsum := sum_countP_keys feature (strataOf pool).nodup (fun _ h => feature_mem_keys pool h)
  rw [← hsum]
  show ((strataOf pool).keys.map fun key => f * (sizeOf pool key : ℚ)).sum = _
  rw [List.sum_map_mul_left]
  congr 1
  rw [Nat.cast_list_sum, List.map_map]
  rfl

theorem sum_floorCounts (hf : 0 ≤ f) : (floorCounts f (strataOf pool)).values.sum =
    ((remainders f (strataOf pool)).map fun key => ⌊share pool f key⌋).sum := by
  rw [values_floorCounts pool hf]
  exact ((remainders_perm pool f).map _).sum_eq.symm

/-- The seats that are left when each feature has its floor. -/
def leftover (f : ℚ) (target : ℕ) : ℕ :=
  (target - (floorCounts f (strataOf pool)).values.sum).toNat

theorem leftover_add (hf : 0 ≤ f) (htarget : ⌊f * pool.length⌋ ≤ target) :
    (leftover pool f target : ℤ) +
      ((remainders f (strataOf pool)).map fun key => ⌊share pool f key⌋).sum = target := by
  have hle : ((remainders f (strataOf pool)).map fun key => ⌊share pool f key⌋).sum ≤
    (target : ℤ) := by
    refine le_trans (Int.le_floor.mpr ?_) htarget
    rw [← sum_share pool f, Int.cast_list_sum, List.map_map]
    exact List.sum_le_sum fun key _ => Int.floor_le (share pool f key)
  rw [leftover, sum_floorCounts pool hf]
  omega

/-- The seats of a feature. -/
def seatsOf (f : ℚ) (target : ℕ) (key : String) : ℤ :=
  seats (share pool f) (remainders f (strataOf pool)) (leftover pool f target) key

section Bounds
variable (hf : 0 ≤ f ∧ f ≤ 1) (hlow : ⌊f * pool.length⌋ ≤ target)
  (hhigh : (target : ℤ) ≤ ⌈f * pool.length⌉)
include hf hlow hhigh

theorem leftover_bound : (leftover pool f target : ℤ) +
    ((remainders f (strataOf pool)).map fun key => ⌊share pool f key⌋).sum ≤
      ⌈((remainders f (strataOf pool)).map (share pool f)).sum⌉ := by
  rw [leftover_add pool hf.1 hlow, sum_share]
  exact hhigh

theorem seatsOf_eq (key : String) :
    seatsOf pool f target key = ⌊share pool f key⌋ ∨
      seatsOf pool f target key = ⌈share pool f key⌉ :=
  seats_eq_floor_or_ceil (descending_remainders pool hf.1) (leftover_bound pool hf hlow hhigh) key

theorem seatsOf_bounds (key : String) :
    0 ≤ seatsOf pool f target key ∧ seatsOf pool f target key ≤ sizeOf pool key := by
  have hpos : 0 ≤ share pool f key := mul_nonneg hf.1 (Nat.cast_nonneg _)
  have hle : share pool f key ≤ (sizeOf pool key : ℤ) :=
    mul_le_of_le_one_left (Nat.cast_nonneg _) hf.2
  have hfloor : 0 ≤ ⌊share pool f key⌋ := Int.floor_nonneg.mpr hpos
  have hceil : ⌈share pool f key⌉ ≤ sizeOf pool key := Int.ceil_le.mpr hle
  have hbetween := Int.floor_le_ceil (share pool f key)
  obtain h | h := seatsOf_eq pool hf hlow hhigh key <;> omega

/-- **The seats add up to the target.** -/
theorem sum_seatsOf : ((strataOf pool).keys.map (seatsOf pool f target)).sum = target := by
  have hnodup : (remainders f (strataOf pool)).Nodup :=
    (remainders_perm pool f).nodup_iff.mpr (strataOf pool).nodup
  have henough : leftover pool f target ≤ (remainders f (strataOf pool)).length := by
    have hbound := leftover_bound pool hf hlow hhigh
    have hceil := ceil_sum_sub_floors_le (share pool f) (remainders f (strataOf pool))
    have hcount := List.countP_le_length (p := fun key => decide (0 < Int.fract (share pool f key)))
      (l := remainders f (strataOf pool))
    omega
  rw [← ((remainders_perm pool f).map (seatsOf pool f target)).sum_eq]
  have hsum : ((remainders f (strataOf pool)).map (seatsOf pool f target)).sum = _ :=
    sum_seats hnodup henough
  rw [hsum, add_comm]
  exact leftover_add pool hf.1 hlow

/-- **What the code counts are the seats.** -/
theorem getD_stratumCounts (key : String) :
    ((stratumCounts f (strataOf pool) target).get? key).getD 0 = seatsOf pool f target key := by
  have hnodup : ((remainders f (strataOf pool)).take (leftover pool f target)).Nodup :=
    ((remainders_perm pool f).nodup_iff.mpr (strataOf pool).nodup).sublist (List.take_sublist _ _)
  unfold stratumCounts
  dsimp only
  split_ifs with hleft
  · have hget := get?_foldl_set
      (fun key count => min (count + 1) (((strataOf pool).get? key).getD []).length) hnodup
      (floorCounts f (strataOf pool)) key
    refine (congrArg (Option.getD · 0) hget).trans ?_
    rw [getD_floorCounts pool hf.1, getD_strataOf, length_positions]
    have hmax := (seatsOf_bounds pool hf hlow hhigh key).2
    unfold seatsOf seats at hmax ⊢
    split_ifs at hmax ⊢ with hmem
    · rw [Option.getD_some, min_eq_left hmax]
    · rw [getD_floorCounts pool hf.1, add_zero]
  · have hzero : leftover pool f target = 0 := by
      unfold leftover
      omega
    rw [getD_floorCounts pool hf.1, seatsOf, seats, hzero]
    simp

/-! ### What is drawn -/

variable (rng : Sampler) (seed : ℤ)

theorem drawOf_spec {item : String × List ℕ} (hitem : item ∈ (strataOf pool).items) :
    (drawOf rng (stratumCounts f (strataOf pool) target) seed item).Subperm item.2 ∧
      ((drawOf rng (stratumCounts f (strataOf pool) target) seed item).length : ℤ) =
        seatsOf pool f target item.1 := by
  obtain ⟨hpos, hmax⟩ := seatsOf_bounds pool hf hlow hhigh item.1
  have hlength : item.2.length = sizeOf pool item.1 := by
    rw [eq_positions_of_mem pool hitem, length_positions]
  unfold drawOf
  dsimp only
  rw [getD_stratumCounts pool hf hlow hhigh, hlength, min_eq_left hmax]
  split_ifs with hnone
  · exact ⟨List.nil_subperm, by simp; omega⟩
  · have hle : (seatsOf pool f target item.1).toNat ≤ item.2.length := by omega
    refine ⟨rng.subperm_sample _ _ _ hle, ?_⟩
    rw [rng.length_sample _ _ _ hle]
    omega

/-- **Of each feature as many cases are picked as it has seats.** -/
theorem countP_pick_chosenOf (key : String) :
    (((pick pool
      (chosenOf rng (strataOf pool) (stratumCounts f (strataOf pool) target) seed)).countP
      fun c => feature c = key : ℕ) : ℤ) = seatsOf pool f target key := by
  rw [countP_pick]
  by_cases hkey : positions pool key = []
  · have hsize : sizeOf pool key = 0 := by rw [← length_positions, hkey]; rfl
    obtain ⟨hpos, hmax⟩ := seatsOf_bounds pool hf hlow hhigh key
    rw [hkey]
    simp only [List.countP_nil, Nat.cast_zero]
    omega
  · have hitem : (key, positions pool key) ∈ (strataOf pool).items := by
      rw [Dict.mem_items_iff, get?_strataOf, if_neg hkey]
    obtain ⟨hsub, hlength⟩ := drawOf_spec pool hf hlow hhigh rng seed hitem
    -- a position of the feature is chosen only as one of its draw
    have hchosen : ∀ i ∈ positions pool key,
        i ∈ chosenOf rng (strataOf pool) (stratumCounts f (strataOf pool) target) seed ↔
          i ∈ drawOf rng (stratumCounts f (strataOf pool) target) seed (key,
            positions pool key) := by
      intro i hi
      unfold chosenOf
      rw [List.mem_flatMap]
      constructor
      · rintro ⟨item, hitem', hi'⟩
        have hmem := (drawOf_spec pool hf hlow hhigh rng seed hitem').1.subset hi'
        rw [eq_positions_of_mem pool hitem'] at hmem
        have hfst := key_eq_of_mem_positions pool hi hmem
        have heq : item = (key, positions pool key) :=
          Prod.ext hfst.symm (by rw [eq_positions_of_mem pool hitem', hfst])
        rwa [heq] at hi'
      · exact fun hi' => ⟨_, hitem, hi'⟩
    have hcount : ((positions pool key).countP fun i =>
        i ∈ chosenOf rng (strataOf pool) (stratumCounts f (strataOf pool) target) seed) =
          (positions pool key).countP fun i =>
            i ∈ drawOf rng (stratumCounts f (strataOf pool) target) seed (key,
              positions pool key) :=
      List.countP_congr fun i hi => by simp only [decide_eq_true_eq]; exact hchosen i hi
    have hnodup := nodup_positions pool key
    obtain ⟨drawn, hperm, hdrawn⟩ := hsub
    rw [hcount, countP_mem hnodup (hperm.nodup_iff.mp (hnodup.sublist hdrawn))
      fun i hi => hdrawn.subset (hperm.mem_iff.mpr hi)]
    exact hlength

theorem length_pick_chosenOf :
    (pick pool (chosenOf rng (strataOf pool) (stratumCounts f (strataOf pool) target)
      seed)).length =
      target := by
  have hsub := pick_sublist pool
    (chosenOf rng (strataOf pool) (stratumCounts f (strataOf pool) target) seed)
  have hsum := sum_countP_keys feature (strataOf pool).nodup
    fun c hc => feature_mem_keys pool (hsub.subset hc)
  have hseats := sum_seatsOf pool hf hlow hhigh
  rw [← List.map_congr_left fun key _ =>
    countP_pick_chosenOf pool hf hlow hhigh rng seed key] at hseats
  rw [← hsum]
  zify
  rw [← hseats, List.map_map]
  rfl

end Bounds

end Counts

/-! ### The split -/

section Split
variable (rng : Sampler) (pool : List (EvalCase κ)) {f : ℚ} (seed : ℤ)

theorem randomSubset_sublist (f : ℚ) : (randomSubset rng pool f seed).Sublist pool := by
  unfold randomSubset
  dsimp only
  split_ifs
  · exact List.Sublist.refl pool
  · exact pick_sublist pool _

theorem stratifiedSubset_sublist (f : ℚ) : (stratifiedSubset rng pool f seed).Sublist pool := by
  unfold stratifiedSubset
  dsimp only
  split_ifs
  · exact List.Sublist.refl pool
  · exact List.nil_sublist pool
  · exact pick_sublist pool _
  · exact pick_sublist pool _

theorem targetSize_le (n : ℕ) (hf : 0 ≤ f ∧ f ≤ 1) : targetSize n f ≤ n := by
  have hceil : ⌈f * n⌉ ≤ n :=
    Int.ceil_le.mpr (by exact_mod_cast mul_le_of_le_one_left (Nat.cast_nonneg n) hf.2)
  have hhigh := (targetSize_bounds (n := n) hf).2
  omega

theorem length_pick {α : Type} (xs : List α) {chosen : List ℕ} (hnodup : chosen.Nodup)
    (hsub : chosen ⊆ List.range xs.length) : (pick xs chosen).length = chosen.length := by
  have hpositions : (xs.zipIdx.map Prod.snd).countP (fun i => i ∈ chosen) = chosen.length := by
    rw [List.zipIdx_map_snd, ← List.range_eq_range']
    exact countP_mem List.nodup_range hnodup hsub
  rw [pick, List.length_map, ← List.countP_eq_length_filter, ← hpositions, List.countP_map]
  rfl

theorem length_randomSubset (hf : 0 ≤ f ∧ f ≤ 1) :
    (randomSubset rng pool f seed).length = targetSize pool.length f := by
  have hle := targetSize_le pool.length hf
  unfold randomSubset
  dsimp only
  split_ifs with hwhole
  · omega
  · have hrange : targetSize pool.length f ≤ (List.range pool.length).length := by
      rw [List.length_range]
      exact hle
    obtain ⟨drawn, hperm, hdrawn⟩ := rng.subperm_sample (.int seed) _ _ hrange
    rw [length_pick pool (hperm.nodup_iff.mp (List.nodup_range.sublist hdrawn))
      fun i hi => hdrawn.subset (hperm.mem_iff.mpr hi)]
    exact rng.length_sample _ _ _ hrange

theorem sizeOf_eq_ceil (hf : 0 ≤ f ∧ f ≤ 1) (h : pool.length ≤ targetSize pool.length f)
    (key : String) : (sizeOf pool key : ℤ) = ⌈f * sizeOf pool key⌉ := by
  have hhigh := (targetSize_bounds (n := pool.length) hf).2
  have hpool : (pool.length : ℚ) - 1 < f * pool.length := by
    have hceil : (pool.length : ℤ) - 1 < ⌈f * pool.length⌉ := by omega
    have hlt := Int.lt_ceil.mp hceil
    exact_mod_cast hlt
  have hsize : (sizeOf pool key : ℚ) ≤ pool.length := by
    exact_mod_cast List.countP_le_length
  refine (Int.ceil_eq_iff.mpr ⟨?_, ?_⟩).symm
  · push_cast
    nlinarith [hf.2]
  · push_cast
    exact mul_le_of_le_one_left (Nat.cast_nonneg _) hf.2

/-- **A stratified subset** has the target size, and of each feature its fraction rounded down or
up. -/
theorem stratified_spec (hf : 0 ≤ f ∧ f ≤ 1) :
    (stratifiedSubset rng pool f seed).length = targetSize pool.length f ∧
      ∀ key, (((stratifiedSubset rng pool f seed).countP fun c => feature c = key : ℕ) : ℤ) =
          ⌊f * sizeOf pool key⌋ ∨
        (((stratifiedSubset rng pool f seed).countP fun c => feature c = key : ℕ) : ℤ) =
          ⌈f * sizeOf pool key⌉ := by
  obtain ⟨hlow, hhigh⟩ := targetSize_bounds (n := pool.length) hf
  have hle := targetSize_le pool.length hf
  have hlength := length_pick_chosenOf pool hf hlow hhigh rng seed
  unfold stratifiedSubset
  dsimp only
  split_ifs with hwhole hzero hshort
  · exact ⟨by omega, fun key => Or.inr (sizeOf_eq_ceil pool hf hwhole key)⟩
  · have hfzero := fraction_eq_zero_of_target hf.1 (by omega) hzero
    refine ⟨hzero.symm, fun key => Or.inl ?_⟩
    simp [hfzero]
  · exact absurd hshort (by omega)
  · refine ⟨hlength, fun key => ?_⟩
    rw [countP_pick_chosenOf pool hf hlow hhigh]
    exact seatsOf_eq pool hf hlow hhigh key

end Split

/-- What a split of the cases keeps: what is held out stays out, and the rest is as large as it
should be, in order. -/
structure Sampled (cases : List (EvalCase κ)) (run : RunSpec)
    (splitAllocation : Option SplitAllocation) (split : OptimizationSplit κ) : Prop where
  sublist : split.optimization.Sublist (cases.filter (!·.content.holdout))
  holdout : split.holdout = cases.filter (·.content.holdout)
  disjoint : split.optimization.Disjoint split.holdout
  size : run.sampleStrategy ≠ .full → split.optimization.length =
    targetSize (cases.filter (!·.content.holdout)).length (fractionOf splitAllocation)
  strata : run.sampleStrategy = .stratified → ∀ key,
    ((split.optimization.countP fun c => feature c = key : ℕ) : ℤ) =
        ⌊fractionOf splitAllocation * sizeOf (cases.filter (!·.content.holdout)) key⌋ ∨
      ((split.optimization.countP fun c => feature c = key : ℕ) : ℤ) =
        ⌈fractionOf splitAllocation * sizeOf (cases.filter (!·.content.holdout)) key⌉

theorem fractionOf_isRate (splitAllocation : Option SplitAllocation) :
    0 ≤ fractionOf splitAllocation ∧ fractionOf splitAllocation ≤ 1 := by
  cases splitAllocation with
  | none => exact ⟨zero_le_one, le_rfl⟩
  | some split => exact split.rates split.optimization List.mem_cons_self

/-- **Every split is as it should be**, whatever is drawn. -/
theorem selectOptimizationSet_sampled (rng : Sampler) (cases : List (EvalCase κ)) (run : RunSpec)
    (splitAllocation : Option SplitAllocation) :
    Sampled cases run splitAllocation (selectOptimizationSet rng cases run splitAllocation) := by
  have hf := fractionOf_isRate splitAllocation
  have hsub : (selectOptimizationSet rng cases run splitAllocation).optimization.Sublist
      (cases.filter (!·.content.holdout)) := by
    unfold selectOptimizationSet
    dsimp only
    cases run.sampleStrategy with
    | full => exact List.Sublist.refl _
    | randomSubset => exact randomSubset_sublist rng _ _ _
    | stratified => exact stratifiedSubset_sublist rng _ _ _
  refine ⟨hsub, rfl, fun c hopt hout => ?_, fun hstrategy => ?_, fun hstrategy => ?_⟩
  · have hin := (List.mem_filter.mp (hsub.subset hopt)).2
    have hheld := (List.mem_filter.mp hout).2
    rw [hheld] at hin
    cases hin
  · unfold selectOptimizationSet
    dsimp only
    cases hrun : run.sampleStrategy with
    | full => exact absurd hrun hstrategy
    | randomSubset => exact length_randomSubset rng _ _ hf
    | stratified => exact (stratified_spec rng _ _ hf).1
  · unfold selectOptimizationSet
    dsimp only
    rw [hstrategy]
    exact (stratified_spec rng _ _ hf).2

end Selfevals.Optimization.Sampling
