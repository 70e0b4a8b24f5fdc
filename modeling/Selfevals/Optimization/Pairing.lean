import Mathlib.Data.Finset.Sort
import Selfevals.Lib.OpponentDraws
import Selfevals.Runner.PairwiseTournament

/-!
# Sampled pairings

Each candidate draws its opponents from an order of the others that a hash gives it, and a pair is
listed once, however often it is drawn. A candidate meets whom it draws and who draws it, so it may
meet more than it draws: `sampled` keeps its budget exactly where all draws are mutual.
-/

namespace Selfevals.Optimization.Pairing

open Lib.Mapping Lib.OpponentDraws Lib.Sql
open Runner.PairwiseTournament (pairKey mk_pairKey pairKey_eq_iff)

/-! ### Pairings -/

section Model
variable (digest : String → String) (salt : String)

/-- `_stable_shuffle`, by the hex digest of a text. -/
def stableShuffle (items : List String) (salt : String) : List String :=
  orderBy (fun item => digest (salt ++ ":" ++ item)) items

/-- The pairs of each with those after it. -/
def pairsFrom : List String → List (String × String)
  | [] => []
  | c :: cs => cs.map (fun d => (c, d)) ++ pairsFrom cs

/-- `all_pairs`. -/
def allPairs (candidates : List String) : List (String × String) := pairsFrom (sortedSet candidates)

/-- `others[:k]`. -/
def draws (ordered : List String) (k : ℕ) (c : String) : List String :=
  (stableShuffle digest (ordered.filter (· ≠ c)) (salt ++ ":" ++ c)).take k

/-- `sampled`; what was seen is what is listed. -/
def sampled (candidates : List String) (comparisonsPerCandidate : ℤ) : List (String × String) :=
  let ordered := sortedSet candidates
  if ordered.length < 2 ∨ comparisonsPerCandidate < 1 then []
  else
    let k := min comparisonsPerCandidate.toNat (ordered.length - 1)
    firstSeen (ordered.flatMap fun c =>
      (draws digest salt ordered k c).map fun opp => pairKey (c, opp))

/-- What puts the others in order for a candidate: the digest, and of equal digests the ids. -/
def drawKey (c opp : String) :
    Lex (String × String) := toLex (digest (salt ++ ":" ++ c ++ ":" ++ opp), opp)

/-- How many others come before one, in the order for a candidate. -/
def before (candidates : List String) (c opp : String) : ℕ :=
  candidates.countP fun x => x ≠ c ∧ drawKey digest salt c x < drawKey digest salt c opp

/-- Where one is among the first `k` for another, the other is among the first `k` for it. -/
def Mutual (candidates : List String) (k : ℤ) : Prop :=
  ∀ c ∈ candidates, ∀ d ∈ candidates, c ≠ d →
    (before digest salt candidates c d : ℤ) < k → (before digest salt candidates d c : ℤ) < k

instance (candidates : List String) (k : ℤ) : Decidable (Mutual digest salt candidates k) :=
  inferInstanceAs (Decidable (∀ c ∈ candidates, ∀ d ∈ candidates, c ≠ d → _ → _))

end Model

/-! ### Ordered candidates -/

section Ordered

theorem pairwise_sortedSet (xs : List String) : (sortedSet xs).Pairwise (· < ·) := by
  have hle : (sortedSet xs).Pairwise (· ≤ ·) := List.pairwise_insertionSort _ _
  have hnodup : (sortedSet xs).Nodup := (sorted_perm _).nodup_iff.mpr xs.nodup_dedup
  exact (hle.and hnodup).imp fun h => lt_of_le_of_ne h.1 h.2

theorem sortedSet_perm {xs : List String} (h : xs.Nodup) : (sortedSet xs).Perm xs := by
  unfold sortedSet
  rw [h.dedup]
  exact sorted_perm xs

theorem pairKey_cases (c d : String) : pairKey (c, d) = (c, d) ∨ pairKey (c, d) = (d, c) := by
  unfold pairKey
  split_ifs
  · exact .inl rfl
  · exact .inr rfl

theorem pairKey_lt {c d : String} (h : c ≠ d) : (pairKey (c, d)).1 < (pairKey (c, d)).2 := by
  unfold pairKey
  split_ifs with hlt
  · exact hlt
  · exact lt_of_le_of_ne (not_lt.mp hlt) h.symm

theorem pairKey_of_lt {p : String × String} (h : p.1 < p.2) : pairKey p = p := if_pos h

theorem mem_pairsFrom {cs : List String} (h : cs.Pairwise (· < ·)) {p : String × String} :
    p ∈ pairsFrom cs ↔ p.1 ∈ cs ∧ p.2 ∈ cs ∧ p.1 < p.2 := by
  induction cs with
  | nil => exact ⟨fun h => (nomatch h), fun h => (nomatch h.1)⟩
  | cons c cs ih =>
    obtain ⟨hc, hcs⟩ := List.pairwise_cons.mp h
    rw [pairsFrom, List.mem_append, ih hcs]
    constructor
    · rintro (hp | ⟨hfst, hsnd, hlt⟩)
      · obtain ⟨d, hd, rfl⟩ := List.mem_map.mp hp
        exact ⟨List.mem_cons_self, List.mem_cons_of_mem c hd, hc d hd⟩
      · exact ⟨List.mem_cons_of_mem c hfst, List.mem_cons_of_mem c hsnd, hlt⟩
    · rintro ⟨hfst, hsnd, hlt⟩
      obtain ⟨a, b⟩ := p
      dsimp only at hfst hsnd hlt ⊢
      obtain rfl | ha := List.mem_cons.mp hfst
      · obtain rfl | hb := List.mem_cons.mp hsnd
        · exact absurd hlt (lt_irrefl b)
        · exact .inl (List.mem_map_of_mem hb)
      · obtain rfl | hb := List.mem_cons.mp hsnd
        · exact absurd hlt (hc a ha).not_gt
        · exact .inr ⟨ha, hb, hlt⟩

theorem nodup_pairsFrom {cs : List String} (h : cs.Pairwise (· < ·)) : (pairsFrom cs).Nodup := by
  induction cs with
  | nil => exact .nil
  | cons c cs ih =>
    obtain ⟨hc, hcs⟩ := List.pairwise_cons.mp h
    have hfirst : (cs.map fun d => (c, d)).Nodup :=
      List.Nodup.map (Prod.mk_right_injective c) (hcs.imp ne_of_lt)
    refine List.nodup_append'.mpr ⟨hfirst, ih hcs, fun p hp hp' => ?_⟩
    obtain ⟨d, -, rfl⟩ := List.mem_map.mp hp
    exact lt_irrefl c (hc c ((mem_pairsFrom hcs).mp hp').1)

end Ordered

/-! ### Draws -/

section Drawing
variable {digest : String → String} {salt : String} {ordered : List String} {c d : String}

theorem nodup_draws (h : ordered.Pairwise (· < ·)) (k : ℕ) (c : String) :
    (draws digest salt ordered k c).Nodup := by
  have hnodup : (ordered.filter (· ≠ c)).Nodup := (h.imp ne_of_lt).filter _
  exact ((orderBy_perm _ _).nodup_iff.mpr hnodup).sublist (List.take_sublist _ _)

/-- **Whom a candidate draws**: others with fewer than `k` before them. -/
theorem mem_draws (h : ordered.Pairwise (· < ·)) (k : ℕ) :
    d ∈ draws digest salt ordered k c ↔
      d ∈ ordered ∧ d ≠ c ∧ before digest salt ordered c d < k := by
  have hothers : (ordered.filter (· ≠ c)).Pairwise (· < ·) := h.filter _
  -- the others come in the order of their ids, so the shuffle is in the order of `drawKey`
  have hshuffle : stableShuffle digest (ordered.filter (· ≠ c)) (salt ++ ":" ++ c) =
      orderBy (drawKey digest salt c) (ordered.filter (· ≠ c)) :=
    insertionSort_tiebreak (fun item => digest (salt ++ ":" ++ c ++ ":" ++ item)) hothers
  have hinj : (drawKey digest salt c).Injective :=
    fun a b hab => congrArg (fun p => (ofLex p).2) hab
  have hperm := orderBy_perm (drawKey digest salt c) (ordered.filter (· ≠ c))
  have hlt : (orderBy (drawKey digest salt c) (ordered.filter (· ≠ c))).Pairwise
      fun a b => drawKey digest salt c a < drawKey digest salt c b := by
    have hnodup := hperm.nodup_iff.mpr (hothers.imp ne_of_lt)
    exact ((isOrdering_orderBy _ (.refl _)).2.and hnodup).imp fun hab =>
      lt_of_le_of_ne hab.1 fun heq => hab.2 (hinj heq)
  have hbefore : (orderBy (drawKey digest salt c) (ordered.filter (· ≠ c))).countP
      (fun x => drawKey digest salt c x < drawKey digest salt c d) =
      before digest salt ordered c d := by
    rw [hperm.countP_eq, List.countP_filter]
    refine List.countP_congr fun x _ => ?_
    simp [and_comm]
  unfold draws
  rw [hshuffle]
  by_cases hd : d ∈ ordered.filter (· ≠ c)
  · rw [mem_take_iff_countP hlt (hperm.mem_iff.mpr hd), hbefore]
    obtain ⟨hmem, hne⟩ := List.mem_filter.mp hd
    exact ⟨fun hk => ⟨hmem, by simpa using hne, hk⟩, fun hk => hk.2.2⟩
  · refine iff_of_false (fun htake => hd (hperm.mem_iff.mp (List.mem_of_mem_take htake))) ?_
    rintro ⟨hmem, hne, -⟩
    exact hd (List.mem_filter.mpr ⟨hmem, by simpa using hne⟩)

end Drawing

/-! ### Who meets whom -/

section Meeting
variable (digest : String → String) (salt : String) {candidates : List String} {k : ℤ}

theorem length_sortedSet (candidates : List String) :
    (sortedSet candidates).length = candidates.toFinset.card := by
  rw [sortedSet, (sorted_perm _).length_eq, List.card_toFinset]

/-- The draws of all candidates. -/
def drawsOf (candidates : List String) (k : ℤ) : Draws candidates.toFinset k.toNat where
  drawn c := (draws digest salt (sortedSet candidates)
    (min k.toNat ((sortedSet candidates).length - 1)) c).toFinset
  subset c _ := by
    intro d hd
    obtain ⟨hmem, hne, -⟩ := (mem_draws (pairwise_sortedSet _) _).mp (List.mem_toFinset.mp hd)
    exact Finset.mem_erase.mpr ⟨hne, List.mem_toFinset.mpr (mem_sortedSet.mp hmem)⟩
  card c hc := by
    have hpairwise := pairwise_sortedSet candidates
    have hlen : ((sortedSet candidates).filter (· ≠ c)).length = candidates.toFinset.card - 1 := by
      have hset : ((sortedSet candidates).filter (· ≠ c)).toFinset =
        candidates.toFinset.erase c := by
        ext x
        simp [and_comm]
      have hnodup : ((sortedSet candidates).filter (· ≠ c)).Nodup :=
        (hpairwise.imp ne_of_lt).filter _
      rw [← List.toFinset_card_of_nodup hnodup, hset, Finset.card_erase_of_mem hc]
    rw [List.toFinset_card_of_nodup (nodup_draws hpairwise _ c), draws, List.length_take,
      stableShuffle, (orderBy_perm _ _).length_eq, hlen, length_sortedSet, min_assoc, min_self]

/-- The opponents of a candidate in a list of pairs. -/
def opponentsOf (pairs : List (String × String)) (c : String) : Finset String :=
  ((pairs.filter (·.1 = c)).map Prod.snd ++ (pairs.filter (·.2 = c)).map Prod.fst).toFinset

theorem mem_opponentsOf {pairs : List (String × String)} {c d : String} :
    d ∈ opponentsOf pairs c ↔ (c, d) ∈ pairs ∨ (d, c) ∈ pairs := by
  simp [opponentsOf]

theorem mem_sampled (hk : 1 ≤ k) {p : String × String} :
    p ∈ sampled digest salt candidates k ↔
      ∃ c ∈ candidates, ∃ d ∈ (drawsOf digest salt candidates k).drawn c, pairKey (c, d) = p := by
  unfold sampled
  dsimp only
  split_ifs with hsmall
  · -- one candidate has nobody to draw
    refine iff_of_false List.not_mem_nil ?_
    rintro ⟨c, hc, d, hd, -⟩
    have hsub := (drawsOf digest salt candidates k).subset c (List.mem_toFinset.mpr hc) hd
    have hpair : ({c, d} : Finset String) ⊆ candidates.toFinset := by
      obtain ⟨-, hd⟩ := Finset.mem_erase.mp hsub
      exact Finset.insert_subset (List.mem_toFinset.mpr hc) (Finset.singleton_subset_iff.mpr hd)
    have hcard := Finset.card_le_card hpair
    rw [Finset.card_pair (Finset.ne_of_mem_erase hsub).symm, ← length_sortedSet] at hcard
    omega
  · rw [mem_firstSeen, List.mem_flatMap]
    simp only [List.mem_map, mem_sortedSet, drawsOf, List.mem_toFinset]

theorem lt_of_mem_sampled (hk : 1 ≤ k) {p : String × String}
    (hp : p ∈ sampled digest salt candidates k) : p.1 < p.2 := by
  obtain ⟨c, hc, d, hd, rfl⟩ := (mem_sampled digest salt hk).mp hp
  have hsub := (drawsOf digest salt candidates k).subset c (List.mem_toFinset.mpr hc) hd
  exact pairKey_lt (Finset.ne_of_mem_erase hsub).symm

theorem paired_iff (hk : 1 ≤ k) {c d : String} :
    ((c, d) ∈ sampled digest salt candidates k ∨ (d, c) ∈ sampled digest salt candidates k) ↔
      ∃ x ∈ candidates, ∃ y ∈ (drawsOf digest salt candidates k).drawn x, s(x, y) = s(c, d) := by
  rw [mem_sampled digest salt hk, mem_sampled digest salt hk]
  constructor
  · rintro (⟨x, hx, y, hy, hpair⟩ | ⟨x, hx, y, hy, hpair⟩)
    · exact ⟨x, hx, y, hy, by rw [← mk_pairKey (x, y), hpair]⟩
    · exact ⟨x, hx, y, hy, by rw [← mk_pairKey (x, y), hpair, Sym2.eq_swap]⟩
  · rintro ⟨x, hx, y, hy, hsym⟩
    have hkey : pairKey (x, y) = pairKey (c, d) := pairKey_eq_iff.mpr hsym
    obtain hcd | hdc := pairKey_cases c d
    · exact .inl ⟨x, hx, y, hy, hkey.trans hcd⟩
    · exact .inr ⟨x, hx, y, hy, hkey.trans hdc⟩

/-- **Whom a candidate meets**: those that it draws, and those that draw it. -/
theorem opponentsOf_sampled (hk : 1 ≤ k) {c : String} (hc : c ∈ candidates) :
    opponentsOf (sampled digest salt candidates k) c =
      (drawsOf digest salt candidates k).met c := by
  ext d
  rw [mem_opponentsOf, paired_iff digest salt hk, Draws.met, Finset.mem_union, Finset.mem_filter,
    List.mem_toFinset]
  constructor
  · rintro ⟨x, hx, y, hy, hsym⟩
    obtain ⟨rfl, rfl⟩ | ⟨rfl, rfl⟩ := Sym2.eq_iff.mp hsym
    · exact .inl hy
    · exact .inr ⟨hx, hy⟩
  · rintro (hd | ⟨hd, hdrawn⟩)
    · exact ⟨c, hc, d, hd, rfl⟩
    · exact ⟨d, hd, c, hdrawn, Sym2.eq_swap⟩

/-! ### Mutual draws -/

theorem before_perm {ordered candidates : List String} (h : ordered.Perm candidates)
    (c d : String) :
    before digest salt ordered c d = before digest salt candidates c d := h.countP_eq _

theorem before_lt (hnodup : candidates.Nodup) {c d : String} (hc : c ∈ candidates)
    (hd : d ∈ candidates) (hne : d ≠ c) :
    before digest salt candidates c d < candidates.length - 1 := by
  have hsub : (candidates.filter fun x =>
      x ≠ c ∧ drawKey digest salt c x < drawKey digest salt c d).toFinset ⊆
        (candidates.toFinset.erase c).erase d := by
    intro x hx
    obtain ⟨hmem, hx⟩ := List.mem_filter.mp (List.mem_toFinset.mp hx)
    obtain ⟨hxc, hlt⟩ := of_decide_eq_true hx
    have hxd : x ≠ d := fun heq => lt_irrefl _ (heq ▸ hlt)
    exact Finset.mem_erase.mpr ⟨hxd, Finset.mem_erase.mpr ⟨hxc, List.mem_toFinset.mpr hmem⟩⟩
  have hcard := Finset.card_le_card hsub
  have hc' := List.mem_toFinset.mpr hc
  have hd' := Finset.mem_erase.mpr ⟨hne, List.mem_toFinset.mpr hd⟩
  have hpos := Finset.card_pos.mpr ⟨d, hd'⟩
  rw [List.toFinset_card_of_nodup (hnodup.filter _), ← List.countP_eq_length_filter,
    Finset.card_erase_of_mem hd', Finset.card_erase_of_mem hc',
    List.toFinset_card_of_nodup hnodup] at hcard
  rw [Finset.card_erase_of_mem hc', List.toFinset_card_of_nodup hnodup] at hpos
  exact hcard.trans_lt (Nat.sub_lt hpos one_pos)

theorem mem_drawn_iff (hnodup : candidates.Nodup) {c d : String} (hc : c ∈ candidates)
    (hd : d ∈ candidates) :
    d ∈ (drawsOf digest salt candidates k).drawn c ↔
      d ≠ c ∧ before digest salt candidates c d < k := by
  show d ∈ (draws digest salt (sortedSet candidates) _ c).toFinset ↔ _
  have hperm := sortedSet_perm hnodup
  rw [List.mem_toFinset, mem_draws (pairwise_sortedSet _), before_perm digest salt hperm,
    hperm.length_eq]
  constructor
  · rintro ⟨-, hne, hlt⟩
    exact ⟨hne, by omega⟩
  · rintro ⟨hne, hlt⟩
    have hroom := before_lt digest salt hnodup hc hd hne
    exact ⟨mem_sortedSet.mpr hd, hne, by omega⟩

theorem mutual_iff (hnodup : candidates.Nodup) :
    (drawsOf digest salt candidates k).Mutual ↔ Mutual digest salt candidates k := by
  constructor
  · intro h c hc d hd hne hlt
    have hdrawn := (mem_drawn_iff digest salt hnodup hc hd).mpr ⟨hne.symm, hlt⟩
    have hback := h c (List.mem_toFinset.mpr hc) d (List.mem_toFinset.mpr hd) hdrawn
    exact ((mem_drawn_iff digest salt hnodup hd hc).mp hback).2
  · intro h c hc d hd hdrawn
    rw [List.mem_toFinset] at hc hd
    obtain ⟨hne, hlt⟩ := (mem_drawn_iff digest salt hnodup hc hd).mp hdrawn
    exact (mem_drawn_iff digest salt hnodup hd hc).mpr ⟨hne.symm, h c hc d hd hne.symm hlt⟩

end Meeting

/-! ### What a sampled pairing is documented to be -/

/-- A pairing in which each candidate meets up to `k` opponents. -/
structure SampledLaws (candidates : List String) (k : ℤ) (pairs : List (String × String)) :
    Prop where
  among : ∀ p ∈ pairs, p.1 ∈ candidates ∧ p.2 ∈ candidates
  no_self : ∀ p ∈ pairs, p.1 ≠ p.2
  once : (pairs.map fun p => s(p.1, p.2)).Nodup
  least : ∀ c ∈ candidates, min k (candidates.length - 1) ≤ (opponentsOf pairs c).card
  most : ∀ c ∈ candidates, (opponentsOf pairs c).card ≤ k
  full : candidates.length - 1 ≤ k → pairs.Perm (allPairs candidates)

section Laws
variable (digest : String → String) (salt : String) {candidates : List String} {k : ℤ}

theorem among_sampled (hk : 1 ≤ k) :
    ∀ p ∈ sampled digest salt candidates k, p.1 ∈ candidates ∧ p.2 ∈ candidates := by
  intro p hp
  obtain ⟨c, hc, d, hd, rfl⟩ := (mem_sampled digest salt hk).mp hp
  have hsub := (drawsOf digest salt candidates k).subset c (List.mem_toFinset.mpr hc) hd
  have hd' := List.mem_toFinset.mp (Finset.mem_of_mem_erase hsub)
  obtain heq | heq := pairKey_cases c d
  · rw [heq]
    exact ⟨hc, hd'⟩
  · rw [heq]
    exact ⟨hd', hc⟩

theorem nodup_sampled : (sampled digest salt candidates k).Nodup := by
  unfold sampled
  dsimp only
  split_ifs
  · exact .nil
  · exact nodup_firstSeen _

theorem once_sampled (hk : 1 ≤ k) :
    ((sampled digest salt candidates k).map fun p => s(p.1, p.2)).Nodup := by
  refine (nodup_sampled digest salt).map_on fun p hp q hq hpq => ?_
  have hkey := pairKey_eq_iff.mpr hpq
  rwa [pairKey_of_lt (lt_of_mem_sampled digest salt hk hp),
    pairKey_of_lt (lt_of_mem_sampled digest salt hk hq)] at hkey

theorem least_sampled (hnodup : candidates.Nodup) (hk : 1 ≤ k) :
    ∀ c ∈ candidates, min k (candidates.length - 1) ≤
      (opponentsOf (sampled digest salt candidates k) c).card := by
  intro c hc
  have hmet := Draws.min_le_card_met (D := drawsOf digest salt candidates k)
    (List.mem_toFinset.mpr hc)
  rw [List.toFinset_card_of_nodup hnodup] at hmet
  have hpos := List.length_pos_of_mem hc
  rw [opponentsOf_sampled digest salt hk hc]
  omega

theorem most_sampled_iff (hnodup : candidates.Nodup) (hk : 1 ≤ k) :
    (∀ c ∈ candidates, (opponentsOf (sampled digest salt candidates k) c).card ≤ k) ↔
      Mutual digest salt candidates k := by
  rw [← mutual_iff digest salt hnodup, ← Draws.card_met_le_iff]
  constructor
  · intro h c hc
    have hle := h c (List.mem_toFinset.mp hc)
    rw [opponentsOf_sampled digest salt hk (List.mem_toFinset.mp hc)] at hle
    omega
  · intro h c hc
    have hle := h c (List.mem_toFinset.mpr hc)
    rw [opponentsOf_sampled digest salt hk hc]
    omega

/-- **A budget for all others** gives the full round robin. -/
theorem full_sampled (hnodup : candidates.Nodup) (hk : 1 ≤ k) (hfull : candidates.length - 1 ≤ k) :
    (sampled digest salt candidates k).Perm (allPairs candidates) := by
  have hordered := pairwise_sortedSet candidates
  refine (List.perm_ext_iff_of_nodup (nodup_sampled digest salt)
    (nodup_pairsFrom hordered)).mpr fun p => ?_
  rw [mem_pairsFrom hordered, mem_sortedSet, mem_sortedSet]
  constructor
  · intro hp
    obtain ⟨hfst, hsnd⟩ := among_sampled digest salt hk p hp
    exact ⟨hfst, hsnd, lt_of_mem_sampled digest salt hk hp⟩
  · rintro ⟨hfst, hsnd, hlt⟩
    rw [mem_sampled digest salt hk]
    have hbefore := before_lt digest salt hnodup hfst hsnd hlt.ne'
    exact ⟨p.1, hfst, p.2, (mem_drawn_iff digest salt hnodup hfst hsnd).mpr ⟨hlt.ne', by omega⟩,
      pairKey_of_lt hlt⟩

end Laws

/-- **A sampled pairing** keeps its budget exactly where all draws are mutual. -/
theorem sampled_lawful_iff (digest : String → String) (salt : String) {candidates : List String}
    {k : ℤ} (hnodup : candidates.Nodup) (hk : 1 ≤ k) :
    SampledLaws candidates k (sampled digest salt candidates k) ↔
      Mutual digest salt candidates k :=
  ⟨fun h => (most_sampled_iff digest salt hnodup hk).mp h.most, fun h => {
    among := among_sampled digest salt hk
    no_self := fun _ hp => (lt_of_mem_sampled digest salt hk hp).ne
    once := once_sampled digest salt hk
    least := least_sampled digest salt hnodup hk
    most := (most_sampled_iff digest salt hnodup hk).mpr h
    full := full_sampled digest salt hnodup hk }⟩

/-- SHA-256, on the texts hashed for three candidates and the salt of `sampled`. -/
def sha256 (text : String) : String :=
  if text = "selfevals-tournament:a:b" then
    "ac704b577fee8b3dab6018fe2bc0db154a4caf892c91db3c44df7bedc556d939"
  else if text = "selfevals-tournament:a:c" then
    "10aaf0181259f60b81179827444a8c492e22d2b277c08ca4d9c1476782751753"
  else if text = "selfevals-tournament:b:a" then
    "911aee63ffaf3ba2c8ccd746ba1bdf8e59c8ced8ea53cf40d2c3390e72220df4"
  else if text = "selfevals-tournament:b:c" then
    "11dd3901fafa9dfee2430513a3c4d3fb3e190028d5f2c4ed0f3e715b492f0541"
  else if text = "selfevals-tournament:c:a" then
    "493a74ae2e880e011ef11dd162a74ef3cca9f0a019c0fa8094d42b1c0a781197"
  else "2d8a763724cd090ec52d7052ddb1fdb9fdf1a7f33622dfbe352a1685b444a856"

/-- Two candidates draw each other. -/
theorem sampled_lawful_pair :
    SampledLaws ["a", "b"] 1 (sampled sha256 "selfevals-tournament" ["a", "b"] 1) :=
  (sampled_lawful_iff sha256 "selfevals-tournament" (by decide) (by decide)).mpr
    (by decide +kernel)

/-- **Of three candidates** that draw one opponent each, the third meets both others. -/
theorem not_sampled_lawful :
    ¬SampledLaws ["a", "b", "c"] 1 (sampled sha256 "selfevals-tournament" ["a", "b", "c"] 1) := by
  intro h
  have hcard : (opponentsOf (sampled sha256 "selfevals-tournament" ["a", "b", "c"] 1) "c").card =
      2 := by
    decide +kernel
  have hmost := h.most "c" (by decide)
  rw [hcard] at hmost
  omega

end Selfevals.Optimization.Pairing
