import Selfevals.Runner.LaunchGraders

/-!
# Which graders grade a case

The names that cases list are resolved once, all together; for each case the instances are then
filtered by the name each calls itself by. `GradedByNames` says what a case that lists names expects
of this: one grade from each distinct name, by the grader that name resolves to.

* `gradedByNames_iff` : the expectation, in terms of the names alone;
-/

namespace Selfevals.Optimization.CaseGraders

open Lib.Mapping Repo.Loader.Models Graders.Registry Runner.LaunchGraders

/-! ### Grading one case -/

/-- `getattr(g, "name", None) in wanted`. -/
def nameIn (wanted : List String) (g : Grader) : Bool :=
  match g.name with
  | some name => name ∈ wanted
  | none => false

/-- `graders_for_case`: everything where no instance matches. -/
def gradersForCase (graders : List Grader) (caseGraders : List String) : List Grader :=
  if caseGraders = [] then graders
  else
    let filtered := graders.filter (nameIn caseGraders)
    if filtered.isEmpty then graders else filtered

variable {Rep ρ : Type}

/-- The grades of `execute_and_grade_case`: gathered in one list, repetition by repetition, and cut
into rows as wide as there are active graders. -/
def gradesPerRep (grade : Grader → Rep → ρ) (graders : List Grader) (caseGraders : List String)
    (repetitions : List Rep) : List (List ρ) :=
  let activeGraders := gradersForCase graders caseGraders
  let flatGrades := repetitions.flatMap fun rep => activeGraders.map fun g => grade g rep
  let width := activeGraders.length
  (List.range repetitions.length).map fun i => (flatGrades.drop (i * width)).take width

theorem map_cut_flatMap (row : Rep → List ρ) (width : ℕ) (hwidth : ∀ rep, (row rep).length = width)
    (reps : List Rep) :
    ((List.range reps.length).map fun i => ((reps.flatMap row).drop (i * width)).take width) =
      reps.map row := by
  induction reps with
  | nil => rfl
  | cons rep reps ih =>
    have hfirst : ((row rep ++ reps.flatMap row).drop (0 * width)).take width = row rep := by
      rw [Nat.zero_mul, List.drop_zero]
      exact List.take_left' (hwidth rep)
    have hrest : ∀ i, (row rep ++ reps.flatMap row).drop ((i + 1) * width) =
        (reps.flatMap row).drop (i * width) := by
      intro i
      rw [Nat.succ_mul, Nat.add_comm, ← List.drop_drop, List.drop_left' (hwidth rep)]
    rw [List.length_cons, List.range_succ_eq_map, List.map_cons, List.map_map, List.flatMap_cons,
      hfirst, List.map_cons, ← ih]
    refine congrArg _ (List.map_congr_left fun i _ => ?_)
    show ((row rep ++ reps.flatMap row).drop ((i + 1) * width)).take width = _
    rw [hrest]

/-- **Every repetition is graded by the active graders**, in their order. -/
theorem gradesPerRep_eq (grade : Grader → Rep → ρ) (graders : List Grader)
    (caseGraders : List String) (repetitions : List Rep) :
    gradesPerRep grade graders caseGraders repetitions =
      repetitions.map fun rep => (gradersForCase graders caseGraders).map fun g => grade g rep :=
  map_cut_flatMap _ _ (fun _ => List.length_map _) repetitions

/-! ### What a case expects -/

section Resolved
variable (host : GraderHost) (registry : GraderRegistry)

/-- `n` resolves to `g`. -/
def ResolvesTo (n : String) (g : Grader) : Prop :=
  resolveGrader host registry host.recursionLimit n = .ok g

/-- However graders grade: a case that lists names gets one grade from each distinct name, by the
grader that the name resolves to, and a case that lists none gets a grade from every grader. -/
def GradedByNames (graders : List Grader) (caseGraders : List String) : Prop :=
  ∀ (Rep ρ : Type) (grade : Grader → Rep → ρ) (repetitions : List Rep),
    if caseGraders = [] then
      gradesPerRep grade graders caseGraders repetitions =
        repetitions.map fun rep => graders.map fun g => grade g rep
    else
      ∃ named, List.Forall₂ (ResolvesTo host registry) caseGraders.dedup named ∧
        List.Forall₂ (fun grades rep => grades.Perm (named.map fun g => grade g rep))
          (gradesPerRep grade graders caseGraders repetitions) repetitions

/-- The grader that `n` resolves to calls itself by one of the names. -/
def CallsItself (n : String) (names : List String) : Prop :=
  ∃ g, ResolvesTo host registry n g ∧ nameIn names g

/-- Of the names resolved, those that the case lists are those whose graders call themselves by a
name that it lists; or no grader does so, and the case lists them all. -/
def NamesMatch (referenced caseGraders : List String) : Prop :=
  (∀ n ∈ referenced, CallsItself host registry n caseGraders ↔ n ∈ caseGraders) ∨
    ∀ n ∈ referenced, ¬CallsItself host registry n caseGraders ∧ n ∈ caseGraders

end Resolved

/-! ### Names and instances -/

theorem mem_referencedNames_iff {caseGraders : List (List String)} {n : String} :
    n ∈ referencedNames caseGraders ↔ ∃ names ∈ caseGraders, n ∈ names := by
  rw [referencedNames, mem_firstSeen, List.mem_flatten]

theorem nodup_referencedNames (caseGraders : List (List String)) :
    (referencedNames caseGraders).Nodup := nodup_firstSeen _

theorem exists_map_of_forall₂ {host : GraderHost} {registry : GraderRegistry} {names : List String}
    {graders : List Grader} (h : List.Forall₂ (ResolvesTo host registry) names graders) :
    ∃ r : String → Grader, graders = names.map r ∧ ∀ n ∈ names,
      ResolvesTo host registry n (r n) := by
  refine ⟨fun n => match resolveGrader host registry host.recursionLimit n with
    | .ok g => g
    | .error _ => .mk none (.inr n) [], ?_⟩
  induction h with
  | nil => exact ⟨rfl, fun n hn => absurd hn List.not_mem_nil⟩
  | cons hn _ ih =>
    obtain ⟨hmap, hresolves⟩ := ih
    have hn' := hn
    unfold ResolvesTo at hn
    refine ⟨by simp only [List.map_cons, hn, ← hmap], List.forall_mem_cons.mpr ⟨?_, hresolves⟩⟩
    simp only [hn]
    exact hn'

/-- Of names that are all selected, the selection is a rearrangement when nothing else is selected.
-/
theorem map_perm_dedup_iff {sel names : List String} (hnodup : sel.Nodup) (r : String → Grader)
    (hin : ∀ n ∈ names, n ∈ sel) :
    (sel.map r).Perm (names.dedup.map r) ↔ ∀ n ∈ sel, n ∈ names := by
  constructor
  · intro hperm n hn
    have hincl : names.dedup.Subperm sel :=
      (List.nodup_dedup _).subperm fun n hn => hin n (List.mem_dedup.mp hn)
    have hlen : sel.length ≤ names.dedup.length := by simpa using hperm.length_eq.le
    exact List.mem_dedup.mp ((hincl.perm_of_length_le hlen).mem_iff.mpr hn)
  · intro hall
    refine List.Perm.map r ((List.perm_ext_iff_of_nodup hnodup (List.nodup_dedup _)).mpr fun n =>
      ?_)
    rw [List.mem_dedup]
    exact ⟨hall n, hin n⟩

theorem callsItself_of_resolvesTo {host : GraderHost} {registry : GraderRegistry} {n : String}
    {g : Grader} (h : ResolvesTo host registry n g) (names : List String) :
    CallsItself host registry n names ↔ nameIn names g = true := by
  constructor
  · rintro ⟨g', hg', hname⟩
    have heq : g' = g := Except.ok.inj (hg'.symm.trans h)
    rwa [heq] at hname
  · exact fun hname => ⟨g, h, hname⟩

section Active
variable {host : GraderHost} {registry : GraderRegistry} {referenced caseGraders : List String}
  {r : String → Grader}

/-- The names whose graders call themselves by a name of the case. -/
def matching (r : String → Grader) (referenced caseGraders : List String) : List String :=
  referenced.filter fun n => nameIn caseGraders (r n)

theorem gradersForCase_map (hne : caseGraders ≠ []) :
    gradersForCase (referenced.map r) caseGraders =
      (if matching r referenced caseGraders = [] then referenced
        else matching r referenced caseGraders).map r := by
  have hfilter : (referenced.map r).filter (nameIn caseGraders) =
      (matching r referenced caseGraders).map r := List.filter_map
  rw [gradersForCase, if_neg hne]
  dsimp only
  rw [hfilter]
  rcases matching r referenced caseGraders with _ | ⟨n, ns⟩
  · rfl
  · rfl

variable (hr : ∀ n ∈ referenced, ResolvesTo host registry n (r n))
include hr

theorem callsItself_iff {n : String} (hn : n ∈ referenced) :
    CallsItself host registry n caseGraders ↔ n ∈ matching r referenced caseGraders := by
  rw [matching, List.mem_filter, and_iff_right hn, callsItself_of_resolvesTo (hr n hn)]

/-- **The active graders are those that the names resolve to** exactly when the names match. -/
theorem perm_active_iff (hnodup : referenced.Nodup) (hne : caseGraders ≠ [])
    (hsub : ∀ n ∈ caseGraders, n ∈ referenced) :
    (gradersForCase (referenced.map r) caseGraders).Perm (caseGraders.dedup.map r) ↔
      NamesMatch host registry referenced caseGraders := by
  have hcalls : ∀ {n}, n ∈ referenced →
      (CallsItself host registry n caseGraders ↔ n ∈ matching r referenced caseGraders) :=
    fun hn => callsItself_iff hr hn
  have hnodup' : (matching r referenced caseGraders).Nodup := hnodup.filter _
  have hmem : ∀ n ∈ matching r referenced caseGraders, n ∈ referenced := fun n hn =>
    (List.mem_filter.mp hn).1
  rw [gradersForCase_map hne]
  by_cases hnone : matching r referenced caseGraders = []
  · have hno : ∀ n ∈ referenced, ¬CallsItself host registry n caseGraders := by
      intro n hn
      rw [hcalls hn, hnone]
      exact List.not_mem_nil
    rw [if_pos hnone, map_perm_dedup_iff hnodup r hsub]
    constructor
    · exact fun h => .inr fun n hn => ⟨hno n hn, h n hn⟩
    · rintro (h | h)
      · -- the case lists some name, whose grader calls itself by none
        obtain ⟨first, hfirst⟩ := List.exists_mem_of_ne_nil _ hne
        have hfirst' := hsub first hfirst
        exact absurd ((h first hfirst').mpr hfirst) (hno first hfirst')
      · exact fun n hn => (h n hn).2
  · rw [if_neg hnone]
    have hmatch : NamesMatch host registry referenced caseGraders ↔
        ∀ n ∈ referenced, n ∈ matching r referenced caseGraders ↔ n ∈ caseGraders := by
      obtain ⟨m, hm⟩ := List.exists_mem_of_ne_nil _ hnone
      have hleft : NamesMatch host registry referenced caseGraders ↔
          ∀ n ∈ referenced, CallsItself host registry n caseGraders ↔ n ∈ caseGraders := by
        refine ⟨fun h => h.resolve_right fun hno => ?_, .inl⟩
        exact (hno m (hmem m hm)).1 ((hcalls (hmem m hm)).mpr hm)
      rw [hleft]
      exact forall₂_congr fun n hn => iff_congr (hcalls hn) Iff.rfl
    rw [hmatch]
    constructor
    · intro hperm n hn
      have hin : ∀ m ∈ caseGraders, m ∈ matching r referenced caseGraders := by
        intro m hm
        have hactive : r m ∈ (matching r referenced caseGraders).map r :=
          hperm.mem_iff.mpr (List.mem_map_of_mem (List.mem_dedup.mpr hm))
        obtain ⟨m', hm', heq⟩ := List.mem_map.mp hactive
        have hname := (List.mem_filter.mp hm').2
        rw [heq] at hname
        exact List.mem_filter.mpr ⟨hsub m hm, hname⟩
      exact ⟨(map_perm_dedup_iff hnodup' r hin).mp hperm n, hin n⟩
    · intro h
      have hin : ∀ m ∈ caseGraders, m ∈ matching r referenced caseGraders := fun m hm =>
        (h m (hsub m hm)).mpr hm
      exact (map_perm_dedup_iff hnodup' r hin).mpr fun n hn => (h n (hmem n hn)).mp hn

end Active

theorem gradedByNames_iff {host : GraderHost} {registry : GraderRegistry}
    {referenced caseGraders : List String} {graders : List Grader} (hnodup : referenced.Nodup)
    (hgraders : List.Forall₂ (ResolvesTo host registry) referenced graders)
    (hne : caseGraders ≠ []) (hsub : ∀ n ∈ caseGraders, n ∈ referenced) :
    GradedByNames host registry graders caseGraders ↔
      NamesMatch host registry referenced caseGraders := by
  obtain ⟨r, rfl, hr⟩ := exists_map_of_forall₂ hgraders
  rw [← perm_active_iff hr hnodup hne hsub]
  have hnamed : List.Forall₂ (ResolvesTo host registry) caseGraders.dedup
      (caseGraders.dedup.map r) := by
    rw [List.forall₂_map_right_iff, List.forall₂_same]
    exact fun n hn => hr n (hsub n (List.mem_dedup.mp hn))
  have hunique : Relator.RightUnique (ResolvesTo host registry) := fun n g g' h h' =>
    Except.ok.inj (h.symm.trans h')
  constructor
  · intro h
    have hone := h Unit Grader (fun g _ => g) [()]
    rw [if_neg hne] at hone
    obtain ⟨named, hresolves, hrows⟩ := hone
    rw [gradesPerRep_eq] at hrows
    obtain ⟨hperm, -⟩ := List.forall₂_cons.mp hrows
    rw [List.map_id', List.map_id', List.right_unique_forall₂' hunique hresolves hnamed] at hperm
    exact hperm
  · intro hperm Rep ρ grade repetitions
    rw [if_neg hne]
    refine ⟨_, hnamed, ?_⟩
    rw [gradesPerRep_eq, List.forall₂_map_left_iff, List.forall₂_same]
    exact fun rep _ => hperm.map _

/-- **Each case is graded by exactly the graders it names** when, of the names resolved together,
those it lists are those whose graders call themselves by a name it lists. -/
theorem all_gradedByNames_iff (host : GraderHost) (registry : GraderRegistry)
    (caseGraders : List (List String)) (graders : List Grader)
    (hresolved : resolveCaseGraders host registry caseGraders = .ok graders) :
    (∀ names ∈ caseGraders, GradedByNames host registry graders names) ↔
      ∀ names ∈ caseGraders, names ≠ [] →
        NamesMatch host registry (referencedNames caseGraders) names := by
  refine forall₂_congr fun names hmem => ?_
  by_cases hnames : names = []
  · subst hnames
    refine ⟨fun _ h => absurd rfl h, fun _ Rep ρ grade repetitions => ?_⟩
    rw [if_pos rfl, gradesPerRep_eq]
    rfl
  · have hsub : ∀ n ∈ names, n ∈ referencedNames caseGraders := fun n hn =>
      mem_referencedNames_iff.mpr ⟨names, hmem, hn⟩
    obtain ⟨first, hfirst⟩ := List.exists_mem_of_ne_nil _ hnames
    have hreferenced : referencedNames caseGraders ≠ [] := List.ne_nil_of_mem (hsub first hfirst)
    rw [resolveCaseGraders, if_neg hreferenced, resolveGraders_eq_ok] at hresolved
    rw [gradedByNames_iff (nodup_referencedNames caseGraders) hresolved hnames hsub]
    exact ⟨fun h _ => h, fun h => h hnames⟩

/-- The built-in graders call themselves by the names these cases list. -/
theorem all_gradedByNames_builtins :
    resolveCaseGraders bareHost builtins [["deterministic", "set_match"], [], ["set_match"]] =
        .ok [.mk (some "deterministic") (.inl (.cls .deterministic)) [],
          .mk (some "set_match") (.inl (.cls .setMatch)) []] ∧
      ∀ names ∈ [["deterministic", "set_match"], [], ["set_match"]],
        GradedByNames bareHost builtins
          [.mk (some "deterministic") (.inl (.cls .deterministic)) [],
            .mk (some "set_match") (.inl (.cls .setMatch)) []] names := by
  refine ⟨rfl, (all_gradedByNames_iff bareHost builtins _ _ rfl).mpr fun names hmem _ => .inl ?_⟩
  have hreferenced : referencedNames [["deterministic", "set_match"], [], ["set_match"]] =
      ["deterministic", "set_match"] := by decide
  have hdeterministic : ResolvesTo bareHost builtins "deterministic"
      (.mk (some "deterministic") (.inl (.cls .deterministic)) []) := rfl
  have hset : ResolvesTo bareHost builtins "set_match"
      (.mk (some "set_match") (.inl (.cls .setMatch)) []) := rfl
  rw [hreferenced, List.forall_mem_cons, List.forall_mem_singleton,
    callsItself_of_resolvesTo hdeterministic, callsItself_of_resolvesTo hset]
  revert names
  decide

/-- The built-in `confusion` calls itself `classification`: a case that lists it is also graded by
what another case lists. -/
theorem not_all_gradedByNames : ¬∀ (host : GraderHost) (registry : GraderRegistry)
    (caseGraders : List (List String)) (graders : List Grader),
    resolveCaseGraders host registry caseGraders = .ok graders →
      ∀ names ∈ caseGraders, GradedByNames host registry graders names := by
  intro h
  have hcase := h bareHost builtins [["confusion"], ["deterministic"]]
    [.mk (some "classification") (.inl (.cls .classification)) [],
      .mk (some "deterministic") (.inl (.cls .deterministic)) []] rfl ["confusion"] (by decide)
    Unit Unit (fun _ _ => ()) [()]
  rw [if_neg (by decide), gradesPerRep_eq] at hcase
  obtain ⟨named, hnamed, hrows⟩ := hcase
  obtain ⟨hperm, -⟩ := List.forall₂_cons.mp hrows
  have hone : named.length = 1 := hnamed.length_eq.symm
  have htwo := hperm.length_eq
  rw [List.length_map, List.length_map, hone] at htwo
  exact absurd htwo (by decide)

end Selfevals.Optimization.CaseGraders
