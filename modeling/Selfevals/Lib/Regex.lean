import Mathlib.Tactic

/-!
# Regular expressions that backtrack

`ways r s` are the ways in which a pattern matches at the front of a text, each given by what it
leaves of the text, in the order in which a backtracking matcher tries them: an option or a
repetition takes as much as it can first, an alternative its first branch. The match is the first
way, `front r s`, and `findAll r s` are all matches from left to right, none over another.

* `findAll_match`, `findAll_skip`: what is found, and what is passed over.
-/

namespace Selfevals.Lib.Regex

/-- Regular expressions. -/
inductive Re
  | one (p : Char → Bool)
  | seq (r r' : Re)
  | alt (r r' : Re)
  | opt (r : Re)
  | star (r : Re)

/-- At most so many turns, as many as can be; a turn that takes nothing is not made. -/
def turns (f : List Char → List (List Char)) : ℕ → List Char → List (List Char)
  | 0, s => [s]
  | n + 1, s => ((f s).filter fun t => t.length < s.length).flatMap (turns f n) ++ [s]

/-- What may be left of a text after a match at its front, by preference. -/
def ways : Re → List Char → List (List Char)
  | .one _, [] => []
  | .one p, c :: s => if p c then [s] else []
  | .seq r r', s => (ways r s).flatMap (ways r')
  | .alt r r', s => ways r s ++ ways r' s
  | .opt r, s => ways r s ++ [s]
  | .star r, s => turns (ways r) s.length s

/-- What the match at the front of a text leaves. -/
def front (r : Re) (s : List Char) : Option (List Char) := (ways r s).head?

/-- All matches from the front of a text, after `k` characters of a match before. -/
def findFrom (r : Re) : ℕ → List Char → List (List Char)
  | _, [] => []
  | k + 1, _ :: s => findFrom r k s
  | 0, c :: s =>
    match front r (c :: s) with
    | some rest =>
      let found := (c :: s).take ((c :: s).length - rest.length)
      found :: findFrom r (found.length - 1) s
    | none => findFrom r 0 s

/-- `re.findall`. -/
def findAll (r : Re) (s : List Char) : List (List Char) := findFrom r 0 s

/-! ### Matching part by part -/

variable {r r' : Re} {s t : List Char} {p : Char → Bool} {c : Char}

theorem ways_one_cons : ways (.one p) (c :: s) = if p c then [s] else [] := rfl

theorem ways_seq : ways (.seq r r') s = (ways r s).flatMap (ways r') := rfl

theorem ways_alt : ways (.alt r r') s = ways r s ++ ways r' s := rfl

theorem ways_opt : ways (.opt r) s = ways r s ++ [s] := rfl

theorem ways_star : ways (.star r) s = turns (ways r) s.length s := rfl

theorem turns_succ (f : List Char → List (List Char)) (n : ℕ) :
    turns f (n + 1) s =
      ((f s).filter fun t => t.length < s.length).flatMap (turns f n) ++ [s] := rfl

theorem ways_one (h : p c = true) : ways (.one p) (c :: s) = [s] := by
  rw [ways_one_cons, if_pos h]

theorem front_one (h : p c = true) : front (.one p) (c :: s) = some s := by
  rw [front, ways_one h]
  rfl

theorem front_one_eq_none (h : p c = false) : front (.one p) (c :: s) = none := by
  simp [front, ways_one_cons, h]

theorem front_one_nil : front (.one p) [] = none := rfl

theorem front_eq_none_iff : front r s = none ↔ ways r s = [] := List.head?_eq_none_iff

/-- A pattern that can always be matched. -/
def Total (r : Re) : Prop := ∀ s, ways r s ≠ []

theorem total_opt (r : Re) : Total (.opt r) := fun s => by simp [ways_opt]

theorem total_star (r : Re) : Total (.star r) := by
  intro s
  rw [ways_star]
  cases s.length with
  | zero => exact List.cons_ne_nil s []
  | succ n => simp [turns_succ]

theorem total_seq (hr : Total r) (hr' : Total r') : Total (.seq r r') := by
  intro s
  obtain ⟨t, ht⟩ := List.exists_mem_of_ne_nil _ (hr s)
  obtain ⟨u, hu⟩ := List.exists_mem_of_ne_nil _ (hr' t)
  exact List.ne_nil_of_mem (List.mem_flatMap.mpr ⟨t, ht, hu⟩)

theorem head?_flatMap {α β : Type} {f : α → List β} (hf : ∀ a, f a ≠ []) (as : List α) :
    (as.flatMap f).head? = as.head?.bind fun a => (f a).head? := by
  cases as with
  | nil => rfl
  | cons a as =>
    obtain ⟨b, bs, hb⟩ := List.exists_cons_of_ne_nil (hf a)
    simp [hb]

/-- **A match goes part by part**, where what comes next can always be matched. -/
theorem front_seq (h : Total r') : front (.seq r r') s = (front r s).bind (front r') :=
  head?_flatMap h (ways r s)

theorem front_seq_of_ways (h : ways r s = [t]) : front (.seq r r') s = front r' t := by
  simp [front, ways_seq, h]

theorem front_seq_eq_none (h : front r s = none) : front (.seq r r') s = none := by
  rw [front_eq_none_iff] at h ⊢
  simp [ways_seq, h]

theorem front_alt : front (.alt r r') s = (front r s).or (front r' s) := by
  simp [front, ways_alt, List.head?_append]

theorem front_opt : front (.opt r) s = some ((front r s).getD s) := by
  rw [front, front, ways_opt, List.head?_append]
  cases (ways r s).head? <;> rfl

/-! ### Repetition -/

theorem length_le_of_mem_turns {f : List Char → List (List Char)} {n : ℕ} :
    ∀ {s t}, t ∈ turns f n s → t.length ≤ s.length := by
  induction n with
  | zero => intro s t h; exact (congrArg List.length (List.mem_singleton.mp h)).le
  | succ n ih =>
    intro s t h
    obtain h | h := List.mem_append.mp h
    · obtain ⟨u, hu, ht⟩ := List.mem_flatMap.mp h
      have hlt : u.length < s.length := by simpa using List.of_mem_filter hu
      exact (ih ht).trans hlt.le
    · exact (congrArg List.length (List.mem_singleton.mp h)).le

theorem length_le_of_mem_ways :
    ∀ {r : Re} {s t : List Char}, t ∈ ways r s → t.length ≤ s.length := by
  intro r
  induction r with
  | one p =>
    intro s t h
    cases s with
    | nil => exact nomatch h
    | cons c s =>
      rw [ways_one_cons] at h
      split_ifs at h
      · simp [List.mem_singleton.mp h]
      · exact nomatch h
  | seq r r' ih ih' =>
    intro s t h
    obtain ⟨u, hu, ht⟩ := List.mem_flatMap.mp h
    exact (ih' ht).trans (ih hu)
  | alt r r' ih ih' =>
    intro s t h
    obtain h | h := List.mem_append.mp h
    · exact ih h
    · exact ih' h
  | opt r ih =>
    intro s t h
    obtain h | h := List.mem_append.mp h
    · exact ih h
    · exact (congrArg List.length (List.mem_singleton.mp h)).le
  | star r _ => exact fun h => length_le_of_mem_turns h

theorem length_lt_of_mem_ways_seq (h : t ∈ ways (.seq (.one p) r) s) : t.length < s.length := by
  obtain ⟨u, hu, ht⟩ := List.mem_flatMap.mp h
  have hle := length_le_of_mem_ways ht
  cases s with
  | nil => exact nomatch hu
  | cons c s =>
    rw [ways_one_cons] at hu
    split_ifs at hu
    · rw [List.mem_singleton.mp hu] at hle
      exact Nat.lt_succ_of_le hle
    · exact nomatch hu

theorem turns_eq (f : List Char → List (List Char)) {n : ℕ} {s : List Char} (h : s.length ≤ n) :
    turns f n s = turns f s.length s := by
  induction n using Nat.strongRecOn generalizing s with
  | ind n ih =>
    obtain rfl | hlt := h.eq_or_lt
    · rfl
    obtain ⟨m, rfl⟩ := Nat.exists_eq_succ_of_ne_zero (Nat.ne_zero_of_lt hlt)
    cases hs : s.length with
    | zero => simp [turns, hs]
    | succ k =>
      simp only [turns_succ]
      congr 1
      refine List.flatMap_congr fun t ht => ?_
      have hlen : t.length < s.length := by simpa using List.of_mem_filter ht
      rw [ih m (Nat.lt_succ_self m) (by omega), ← ih k (by omega) (by omega)]

/-- **A repetition takes a turn** if it can, and goes on from there. -/
theorem front_star (h : ∀ t ∈ ways r s, t.length < s.length) :
    front (.star r) s = match front r s with
      | some t => front (.star r) t
      | none => some s := by
  have hfilter : (ways r s).filter (fun t => t.length < s.length) = ways r s :=
    List.filter_eq_self.mpr fun t ht => by simpa using h t ht
  cases hs : s.length with
  | zero =>
    have hnil : ways r s = [] := by
      by_contra hne
      obtain ⟨t, ht⟩ := List.exists_mem_of_ne_nil _ hne
      have hlt := h t ht
      omega
    rw [front_eq_none_iff.mpr hnil]
    rw [front, ways_star, hs]
    rfl
  | succ k =>
    have hturns : ways (.star r) s = (ways r s).flatMap (ways (.star r)) ++ [s] := by
      rw [ways_star, hs, turns_succ, hfilter]
      congr 1
      refine List.flatMap_congr fun t ht => ?_
      have hlt := h t ht
      exact turns_eq _ (by omega)
    rw [front, hturns, List.head?_append, head?_flatMap (total_star r)]
    unfold front
    cases (ways r s).head? with
    | none => rfl
    | some t =>
      obtain ⟨u, us, hu⟩ := List.exists_cons_of_ne_nil (total_star r t)
      simp [hu]

/-! ### Finding all matches -/

theorem findFrom_eq_drop (r : Re) (k : ℕ) (s : List Char) :
    findFrom r k s = findAll r (s.drop k) := by
  induction k generalizing s with
  | zero => rfl
  | succ k ih =>
    cases s with
    | nil => rfl
    | cons c s => exact ih s

/-- **A match is found**, and the search goes on behind it. -/
theorem findAll_match {found rest : List Char} (hne : found ≠ [])
    (h : front r (found ++ rest) = some rest) :
    findAll r (found ++ rest) = found :: findAll r rest := by
  obtain ⟨c, s, rfl⟩ := List.exists_cons_of_ne_nil hne
  have hlength : ((c :: s) ++ rest).length - rest.length = (c :: s).length := by
    rw [List.length_append, Nat.add_sub_cancel]
  have hdrop : (s ++ rest).drop ((c :: s).length - 1) = rest := by simp
  rw [List.cons_append] at h hlength ⊢
  rw [findAll, findFrom, h]
  dsimp only
  rw [hlength, ← List.cons_append, List.take_left, findFrom_eq_drop, hdrop]

theorem findAll_skip (h : front r (c :: s) = none) : findAll r (c :: s) = findAll r s := by
  unfold findAll
  rw [findFrom, h]

theorem findAll_skip_all {skipped : List Char} (h : ∀ c ∈ skipped, ∀ s, front r (c :: s) = none) :
    findAll r (skipped ++ s) = findAll r s := by
  induction skipped with
  | nil => rfl
  | cons c skipped ih =>
    rw [List.cons_append, findAll_skip (h c List.mem_cons_self _)]
    exact ih fun d hd => h d (List.mem_cons_of_mem c hd)

end Selfevals.Lib.Regex
