import Selfevals.Lib.PyInt
import Selfevals.Lib.PyStr
import Selfevals.Lib.Regex

/-!
# The double-value guardrail

A response that quotes two different dollar amounts is flagged. `findAll moneyRe` finds the amounts
and `moneyToCents` tells their values. The pattern tries up to three digits and thousands with
commas first, so of an amount of four or more digits without commas it finds the first three digits.
-/

namespace Selfevals.Graders.DoubleValue

open Lib.PyInt (digitValue parseDigits parseInt parseNat maxDigits stripSpace stripSpace_eq_self)
open Lib.PyStr Lib.Regex

/-! ### The rule -/

/-- `\d`. -/
def isDigit (c : Char) : Bool := (digitValue c).isSome

def digit : Re := .one isDigit

/-- `\d{1,3}`. -/
def upToThree : Re := .seq digit (.opt (.seq digit (.opt digit)))

/-- `,\d{3}`. -/
def thousands : Re := .seq (.one (· == ',')) (.seq digit (.seq digit digit))

/-- `\.\d{1,2}`. -/
def decimals : Re := .seq (.one (· == '.')) (.seq digit (.opt digit))

/-- `\$\s?`, and then a number. -/
def dollars (number : Re) : Re := .seq (.one (· == '$')) (.seq (.opt (.one isSpace)) number)

/-- `_MONEY_RE`. -/
def moneyRe : Re :=
  .alt (dollars (.seq upToThree (.seq (.star thousands) (.opt decimals))))
    (dollars (.seq (.seq digit (.star digit)) (.opt decimals)))

/-- What a token keeps where the signs and blanks are replaced. -/
def kept (c : Char) : Bool := c ≠ '$' && c ≠ ',' && c ≠ ' '

/-- `_money_to_cents`; `none` is the `ValueError` of a number with too many digits. -/
def moneyToCents (token : String) : Option ℤ :=
  let cleaned := String.ofList (token.toList.filter kept)
  match partition '.' cleaned with
  | some (whole, frac) => do
    let frac := String.ofList ((frac.toList ++ ['0', '0']).take 2)
    let whole ← parseInt (if whole = "" then "0" else whole)
    return whole * 100 + (← parseInt frac)
  | none => do return (← parseInt cleaned) * 100

structure Violation where
  failureMode : String
  detail : String
deriving DecidableEq, Repr

/-- `FM_DOUBLE_VALUE`. -/
def fmDoubleValue : String := "guardrail_double_value"

/-- The values seen so far, and an example of each. -/
def see (acc : List ℤ × List String) (token : String) : Option (List ℤ × List String) := do
  let cents ← moneyToCents token
  return if cents ∈ acc.1 then acc else (acc.1 ++ [cents], acc.2 ++ [strip token])

/-- `_check_double_value`. -/
def checkDoubleValue (text : String) : Option (List Violation) := do
  let (seen, examples) ← ((findAll moneyRe text.toList).map String.ofList).foldlM see ([], [])
  return if 2 ≤ seen.length then [⟨fmDoubleValue, ", ".intercalate examples⟩] else []

example : checkDoubleValue "The total is $40.00, but $4 were charged." =
    some [⟨"guardrail_double_value", "$40.00, $4"⟩] := by decide +kernel

/-! ### Amounts as they are written -/

/-- The number that digits write. -/
def numberOf (digits : List Char) : ℕ :=
  digits.foldl (fun acc c => 10 * acc + (digitValue c).getD 0) 0

/-- A canonical amount: some digits, or up to three and then groups of three behind commas; and two
digits of cents, if any. -/
structure Amount where
  first : List Char
  groups : List (List Char) := []
  cents : Option (Char × Char) := none
  first_ne : first ≠ []
  first_digits : ∀ c ∈ first, isDigit c = true
  groups_digits : ∀ g ∈ groups, g.length = 3 ∧ ∀ c ∈ g, isDigit c = true
  first_length : groups ≠ [] → first.length ≤ 3
  cents_digits : ∀ p ∈ cents, isDigit p.1 = true ∧ isDigit p.2 = true

namespace Amount
variable (a : Amount)

/-- The digits before the cents. -/
def whole : List Char := a.first ++ a.groups.flatten

/-- The text of the groups. -/
def groupText (groups : List (List Char)) : List Char := groups.flatMap fun g => ',' :: g

def centsText : List Char := a.cents.elim [] fun p => ['.', p.1, p.2]

/-- The text of an amount. -/
def text : List Char := '$' :: (a.first ++ (groupText a.groups ++ a.centsText))

/-- The value in cents. -/
def value : ℕ := 100 * numberOf a.whole + a.cents.elim 0 fun p => numberOf [p.1, p.2]

/-- Four or more digits without commas. -/
def Long : Prop := a.groups = [] ∧ 3 < a.first.length

instance : Decidable a.Long := inferInstanceAs (Decidable (_ ∧ _))

/-- The head of an amount: of a long one its first three digits, else the whole amount. -/
def headText : List Char := if a.Long then '$' :: a.first.take 3 else a.text

/-- What the head leaves of an amount. -/
def tailText : List Char := if a.Long then a.first.drop 3 ++ a.centsText else []

/-- The value of the head. -/
def headValue : ℕ := if a.Long then 100 * numberOf (a.first.take 3) else a.value

end Amount

/-- A number starts here: a digit, or one behind a space. -/
def StartsNumber : List Char → Prop
  | c :: d :: _ => isDigit c = true ∨ isSpace c = true ∧ isDigit d = true
  | [c] => isDigit c = true
  | [] => False

/-- A number that was written goes on here: with a digit, or with one behind a comma or a point. -/
def GoesOn : List Char → Prop
  | c :: d :: _ => isDigit c = true ∨ (c = ',' ∨ c = '.') ∧ isDigit d = true
  | [c] => isDigit c = true
  | [] => False

/-- A text with these amounts, which are all written canonically: each `$` before a number is that
of a canonical amount, and the number ends where the amount does. -/
inductive Quotes : List Char → List Amount → Prop
  | nil : Quotes [] []
  | char {c : Char} {s : List Char} {amounts : List Amount} (h : c = '$' → ¬StartsNumber s)
      (hs : Quotes s amounts) : Quotes (c :: s) amounts
  | amount (a : Amount) {s : List Char} {amounts : List Amount} (h : ¬GoesOn s)
      (hs : Quotes s amounts) : Quotes (a.text ++ s) (a :: amounts)

/-- Two of the amounts differ in this. -/
def Differ (f : Amount → ℕ) (amounts : List Amount) :
    Prop := ∃ a ∈ amounts, ∃ b ∈ amounts, f a ≠ f b

/-! ### Digits -/

theorem exists_digitValue {c : Char} (h : isDigit c = true) : ∃ d, digitValue c = some d :=
  Option.isSome_iff_exists.mp h

theorem ne_of_isDigit {c d : Char} (h : isDigit c = true) (hd : isDigit d = false) : c ≠ d := by
  rintro rfl
  rw [hd] at h
  exact absurd h (by decide)

theorem zeros_spec : ∀ z ∈ Selfevals.Lib.PyInt.zeros, ∀ k < 10,
    13 < z + k ∧ (z + k < 0x1C ∨ 0x20 < z + k) ∧ z + k ≠ 32 ∧
      [0x85, 0xA0, 0x1680, 0x2028, 0x2029, 0x202F, 0x205F, 0x3000].contains (z + k) = false ∧
      (z + k < 0x2000 ∨ 0x200A < z + k) := by
  decide +kernel

theorem isSpace_of_isDigit {c : Char} (h : isDigit c = true) :
    isSpace c = false ∧ Selfevals.Lib.PyInt.isSpace c = false := by
  obtain ⟨z, hz, hrange⟩ : ∃ z ∈ Selfevals.Lib.PyInt.zeros, z ≤ c.toNat ∧ c.toNat < z + 10 := by
    simpa [isDigit, digitValue] using h
  obtain ⟨k, hk⟩ := Nat.exists_eq_add_of_le hrange.1
  obtain ⟨hcontrol, hseparator, hblank, hlist, hquads⟩ := zeros_spec z hz k (by omega)
  rw [← hk] at hcontrol hseparator hblank hlist hquads
  simp only [isSpace, Selfevals.Lib.PyInt.isSpace, hlist, Bool.or_eq_false_iff,
    Bool.and_eq_false_iff,
    decide_eq_false_iff_not, beq_eq_false_iff_ne]
  exact ⟨⟨⟨⟨by omega, by omega⟩, trivial⟩, by omega⟩, ⟨⟨by omega, hblank⟩, trivial⟩, by omega⟩

theorem ne_separators {c : Char} (h : isDigit c = true) :
    c ≠ '$' ∧ c ≠ ',' ∧ c ≠ '.' ∧ c ≠ ' ' ∧ c ≠ '_' ∧ c ≠ '-' ∧ c ≠ '+' := by
  refine ⟨?_, ?_, ?_, ?_, ?_, ?_, ?_⟩ <;> exact ne_of_isDigit h (by decide)

theorem parseDigits_of_digits {ds : List Char} (h : ∀ c ∈ ds, isDigit c = true) (acc : ℕ) :
    parseDigits acc true ds =
      some (ds.foldl (fun acc c => 10 * acc + (digitValue c).getD 0) acc) := by
  induction ds generalizing acc with
  | nil => rfl
  | cons c ds ih =>
    obtain ⟨hc, hds⟩ := List.forall_mem_cons.mp h
    obtain ⟨d, hd⟩ := exists_digitValue hc
    rw [parseDigits, if_neg (ne_separators hc).2.2.2.2.1, hd]
    dsimp only
    rw [ih hds, List.foldl_cons, hd]
    rfl

/-- **Digits are read as their number**, unless there are too many. -/
theorem parseInt_of_digits {ds : List Char} (hne : ds ≠ []) (h : ∀ c ∈ ds, isDigit c = true) :
    parseInt (String.ofList ds) =
      if maxDigits < ds.length then none else some (numberOf ds : ℤ) := by
  have hfilter : ds.filter (· ≠ '_') = ds :=
    List.filter_eq_self.mpr fun c hc => by simpa using (ne_separators (h c hc)).2.2.2.2.1
  have hnat : parseNat ds = if maxDigits < ds.length then none else some (numberOf ds) := by
    rw [parseNat, hfilter]
    obtain ⟨c, cs, rfl⟩ := List.exists_cons_of_ne_nil hne
    obtain ⟨hc, hcs⟩ := List.forall_mem_cons.mp h
    obtain ⟨d, hd⟩ := exists_digitValue hc
    rw [parseDigits, if_neg (ne_separators hc).2.2.2.2.1, hd]
    dsimp only
    rw [parseDigits_of_digits hcs, numberOf, List.foldl_cons, hd]
    rfl
  rw [parseInt, String.toList_ofList,
    stripSpace_eq_self fun c hc => (isSpace_of_isDigit (h c hc)).2]
  obtain ⟨c, cs, rfl⟩ := List.exists_cons_of_ne_nil hne
  obtain ⟨-, -, -, -, -, hminus, hplus⟩ := ne_separators (h c List.mem_cons_self)
  dsimp only
  rw [if_neg hminus, if_neg hplus, hnat]
  split_ifs <;> rfl

/-! ### What the pattern matches -/

section Pattern
variable {s : List Char}

theorem front_digit {c : Char} (h : isDigit c = true) : front digit (c :: s) = some s := front_one h

theorem front_upToThree {ds : List Char} (hds : ∀ c ∈ ds, isDigit c = true) (hne : ds ≠ [])
    (hlength : ds.length ≤ 3) (hnext : ds.length = 3 ∨ front digit s = none) :
    front upToThree (ds ++ s) = some s := by
  have hopt : ∀ t, front (.opt digit) t = some ((front digit t).getD t) := fun t => front_opt
  have hopt2 : ∀ t, front (.opt (.seq digit (.opt digit))) t =
      some (((front digit t).bind fun u => some ((front digit u).getD u)).getD t) := by
    intro t
    rw [front_opt, front_seq (total_opt _)]
    simp only [hopt]
  rw [upToThree, front_seq (total_opt _)]
  rcases ds with _ | ⟨a, _ | ⟨b, _ | ⟨c, _ | ⟨d, ds⟩⟩⟩⟩
  · exact absurd rfl hne
  · have hnone := hnext.resolve_left (by simp)
    simp [front_digit (hds a (by simp)), hopt2, hnone]
  · have hnone := hnext.resolve_left (by simp)
    simp [front_digit (hds a (by simp)), front_digit (hds b (by simp)), hopt2, hnone]
  · simp [front_digit (hds a (by simp)), front_digit (hds b (by simp)),
      front_digit (hds c (by simp)), hopt2]
  · simp only [List.length_cons] at hlength
    omega

theorem front_thousands {g : List Char} (hlength : g.length = 3) (hg : ∀ c ∈ g, isDigit c = true) :
    front thousands (',' :: g ++ s) = some s := by
  obtain ⟨a, b, c, rfl⟩ := List.length_eq_three.mp hlength
  have ha : ways digit (a :: b :: c :: s) = [b :: c :: s] := ways_one (hg a (by simp))
  have hb : ways digit (b :: c :: s) = [c :: s] := ways_one (hg b (by simp))
  have hcomma : ways (.one (· == ',')) (',' :: a :: b :: c :: s) = [a :: b :: c :: s] :=
    ways_one rfl
  show front thousands (',' :: a :: b :: c :: s) = some s
  rw [thousands, front_seq_of_ways hcomma, front_seq_of_ways ha, front_seq_of_ways hb]
  exact front_digit (hg c (by simp))

theorem length_lt_of_mem_thousands {s : List Char} : ∀ t ∈ ways thousands s, t.length < s.length :=
  fun _ ht => length_lt_of_mem_ways_seq ht

theorem front_groups {groups : List (List Char)}
    (hgroups : ∀ g ∈ groups, g.length = 3 ∧ ∀ c ∈ g, isDigit c = true)
    (hnext : front thousands s = none) :
    front (.star thousands) (Amount.groupText groups ++ s) = some s := by
  induction groups with
  | nil =>
    rw [Amount.groupText, List.flatMap_nil, List.nil_append, front_star length_lt_of_mem_thousands,
      hnext]
  | cons g groups ih =>
    obtain ⟨hg, hrest⟩ := List.forall_mem_cons.mp hgroups
    have hfront : front thousands (Amount.groupText (g :: groups) ++ s) =
        some (Amount.groupText groups ++ s) := by
      rw [Amount.groupText, List.flatMap_cons, List.append_assoc]
      exact front_thousands hg.1 hg.2
    rw [front_star length_lt_of_mem_thousands, hfront]
    exact ih hrest

theorem front_decimals {c d : Char} (hc : isDigit c = true) (hd : isDigit d = true) :
    front decimals ('.' :: c :: d :: s) = some s := by
  have hpoint : ways (.one (· == '.')) ('.' :: c :: d :: s) = [c :: d :: s] := ways_one rfl
  rw [decimals, front_seq_of_ways hpoint, front_seq (total_opt _), front_digit hc, Option.bind_some,
    front_opt, front_digit hd]
  rfl

theorem front_sign_eq_none {p : Char → Bool} {r : Re} (h : ∀ c t, s = c :: t → p c = true →
    front digit t = none) : front (.seq (.one p) (.seq digit r)) s = none := by
  cases s with
  | nil => exact front_seq_eq_none front_one_nil
  | cons c t =>
    cases hp : p c with
    | false => exact front_seq_eq_none (front_one_eq_none hp)
    | true =>
      rw [front_seq_of_ways (ways_one hp)]
      exact front_seq_eq_none (h c t rfl hp)

theorem front_digit_of_not {c : Char} (h : ¬isDigit c = true) : front digit (c :: s) = none :=
  front_one_eq_none (by simpa using h)

theorem front_of_not_goesOn (h : ¬GoesOn s) :
    front digit s = none ∧ front thousands s = none ∧ front decimals s = none := by
  have hsign : ∀ c t, s = c :: t → c = ',' ∨ c = '.' → front digit t = none := by
    rintro c t rfl hc
    cases t with
    | nil => exact front_one_nil
    | cons d t => exact front_digit_of_not fun hd => h (Or.inr ⟨hc, hd⟩)
  refine ⟨?_, ?_, ?_⟩
  · match s, h with
    | [], _ => exact front_one_nil
    | [c], h => exact front_digit_of_not h
    | c :: d :: t, h => exact front_digit_of_not fun hc => h (Or.inl hc)
  · exact front_sign_eq_none fun c t hs hp => hsign c t hs (Or.inl (by simpa using hp))
  · exact front_sign_eq_none fun c t hs hp => hsign c t hs (Or.inr (by simpa using hp))

theorem front_moneyRe_of_ne {c : Char} (h : c ≠ '$') : front moneyRe (c :: s) = none := by
  have hsign : front (.one (· == '$')) (c :: s) = none := front_one_eq_none (by simpa using h)
  rw [moneyRe, front_alt, dollars, dollars, front_seq_eq_none hsign, front_seq_eq_none hsign]
  rfl

theorem front_dollars_eq_none {number : Re}
    (hnumber : ∀ t, front digit t = none → front number t = none)
    (h : ¬StartsNumber s) : front (dollars number) ('$' :: s) = none := by
  have hnone :
    front number s = none ∧ ∀ c t, s = c :: t → isSpace c = true → front number t = none := by
    match s, h with
    | [], _ => exact ⟨hnumber _ front_one_nil, fun _ _ h => nomatch h⟩
    | [c], h =>
      refine ⟨hnumber _ (front_digit_of_not h), ?_⟩
      rintro _ _ ⟨⟩ -
      exact hnumber _ front_one_nil
    | c :: d :: t, h =>
      refine ⟨hnumber _ (front_digit_of_not fun hc => h (Or.inl hc)), ?_⟩
      rintro _ _ ⟨⟩ hspace
      exact hnumber _ (front_digit_of_not fun hd => h (Or.inr ⟨hspace, hd⟩))
  rw [dollars, front_seq_of_ways (ways_one rfl), front_eq_none_iff]
  refine List.flatMap_eq_nil_iff.mpr fun t ht => front_eq_none_iff.mp ?_
  obtain ht | ht := List.mem_append.mp ht
  · cases s with
    | nil => exact nomatch ht
    | cons c s =>
      rw [ways_one_cons] at ht
      split_ifs at ht with hspace
      · rw [List.mem_singleton.mp ht]
        exact hnone.2 c s rfl hspace
      · exact nomatch ht
  · rw [List.mem_singleton.mp ht]
    exact hnone.1

theorem front_moneyRe_of_not_startsNumber (h : ¬StartsNumber s) :
    front moneyRe ('$' :: s) = none := by
  rw [moneyRe, front_alt, front_dollars_eq_none _ h, front_dollars_eq_none _ h]
  · rfl
  · exact fun t ht => front_seq_eq_none (front_seq_eq_none ht)
  · exact fun t ht => front_seq_eq_none (front_seq_eq_none ht)

/-- **The first branch decides**: up to three digits, the groups behind them, and the cents. -/
theorem front_moneyRe {ds t u v : List Char} (hne : ds ≠ []) (hds : ∀ c ∈ ds, isDigit c = true)
    (hfirst : front upToThree (ds ++ s) = some t) (hgroups : front (.star thousands) t = some u)
    (hcents : front (.opt decimals) u = some v) : front moneyRe ('$' :: (ds ++ s)) = some v := by
  obtain ⟨c, cs, rfl⟩ := List.exists_cons_of_ne_nil hne
  have hspace : ways (.opt (.one isSpace)) (c :: cs ++ s) = [c :: cs ++ s] := by
    simp [ways_opt, ways_one_cons, (isSpace_of_isDigit (hds c List.mem_cons_self)).1]
  rw [moneyRe, front_alt, dollars, front_seq_of_ways (ways_one rfl), front_seq_of_ways hspace,
    front_seq (total_seq (total_star _) (total_opt _)), hfirst, Option.bind_some,
    front_seq (total_opt _), hgroups, Option.bind_some, hcents]
  rfl

end Pattern

/-! ### What is found -/

namespace Amount
variable (a : Amount) {s : List Char}

theorem text_eq : a.text = a.headText ++ a.tailText := by
  unfold headText tailText
  split_ifs with hlong
  · rw [text, hlong.1, groupText, List.flatMap_nil, List.nil_append, List.cons_append,
      ← List.append_assoc,
      List.take_append_drop]
  · rw [List.append_nil]

theorem front_cents (h : ¬GoesOn s) : front (.opt decimals) (a.centsText ++ s) = some s := by
  rw [front_opt, centsText]
  cases hcents : a.cents with
  | none =>
    rw [Option.elim_none, List.nil_append, (front_of_not_goesOn h).2.2]
    rfl
  | some p =>
    obtain ⟨hc, hd⟩ := a.cents_digits p (by rw [hcents]; rfl)
    have hfront : front decimals ('.' :: p.1 :: p.2 :: s) = some s := front_decimals hc hd
    rw [Option.elim_some]
    show some ((front decimals ('.' :: p.1 :: p.2 :: s)).getD _) = _
    rw [hfront]
    rfl

theorem front_centsText (h : ¬GoesOn s) :
    front digit (a.centsText ++ s) = none ∧ front thousands (a.centsText ++ s) = none := by
  rw [centsText]
  cases a.cents with
  | none => exact ⟨(front_of_not_goesOn h).1, (front_of_not_goesOn h).2.1⟩
  | some p =>
    exact ⟨front_one_eq_none (by decide), front_seq_eq_none (front_one_eq_none (by decide))⟩

/-- **The head of an amount is matched.** -/
theorem front_headText (h : ¬GoesOn s) :
    front moneyRe (a.headText ++ (a.tailText ++ s)) = some (a.tailText ++ s) := by
  unfold headText tailText
  split_ifs with hlong
  · -- three digits, and then another digit: no group and no cents
    have htake : (a.first.take 3).length = 3 := by
      rw [List.length_take]
      exact min_eq_left hlong.2.le
    obtain ⟨d, ds, hdrop⟩ := List.exists_cons_of_length_pos
      (by rw [List.length_drop]; exact Nat.sub_pos_of_lt hlong.2 : 0 < (a.first.drop 3).length)
    have hd : isDigit d = true :=
      a.first_digits d (List.mem_of_mem_drop (by rw [hdrop]; exact List.mem_cons_self))
    have hcomma : ((· == ',') : Char → Bool) d = false := by simpa using (ne_separators hd).2.1
    have hpoint : ((· == '.') : Char → Bool) d = false := by simpa using (ne_separators hd).2.2.1
    have hthousands : front thousands (d :: ds ++ a.centsText ++ s) = none :=
      front_seq_eq_none (front_one_eq_none hcomma)
    have hdecimals : front decimals (d :: ds ++ a.centsText ++ s) = none :=
      front_seq_eq_none (front_one_eq_none hpoint)
    have hgroups : front (.star thousands) (d :: ds ++ a.centsText ++ s) =
        some (d :: ds ++ a.centsText ++ s) := by
      rw [front_star length_lt_of_mem_thousands, hthousands]
    have hcents : front (.opt decimals) (d :: ds ++ a.centsText ++ s) =
        some (d :: ds ++ a.centsText ++ s) := by
      rw [front_opt, hdecimals]
      rfl
    have hne : a.first.take 3 ≠ [] := List.ne_nil_of_length_pos (by omega)
    have hdigits : ∀ c ∈ a.first.take 3, isDigit c = true := fun c hc =>
      a.first_digits c (List.mem_of_mem_take hc)
    rw [hdrop]
    exact front_moneyRe hne hdigits (front_upToThree hdigits hne htake.le (Or.inl htake)) hgroups
      hcents
  · have hshort : a.first.length ≤ 3 := by
      by_cases hgroups : a.groups = []
      · exact not_lt.mp fun hlt => hlong ⟨hgroups, hlt⟩
      · exact a.first_length hgroups
    have hnext : front digit (groupText a.groups ++ (a.centsText ++ s)) = none := by
      cases a.groups with
      | nil => exact (a.front_centsText h).1
      | cons g groups => exact front_one_eq_none (by decide)
    rw [List.nil_append, text, List.cons_append, List.append_assoc, List.append_assoc]
    exact front_moneyRe a.first_ne a.first_digits
      (front_upToThree a.first_digits a.first_ne hshort (Or.inr hnext))
      (front_groups a.groups_digits (a.front_centsText h).2) (a.front_cents h)

theorem ne_of_mem_tailText {c : Char} (h : c ∈ a.tailText) : c ≠ '$' := by
  unfold tailText at h
  split_ifs at h
  · obtain h | h := List.mem_append.mp h
    · exact (ne_separators (a.first_digits c (List.mem_of_mem_drop h))).1
    · rw [centsText] at h
      cases hcents : a.cents with
      | none =>
        rw [hcents] at h
        exact nomatch h
      | some p =>
        obtain ⟨hc, hd⟩ := a.cents_digits p (by rw [hcents]; rfl)
        rw [hcents] at h
        simp only [Option.elim_some, List.mem_cons, List.not_mem_nil, or_false] at h
        obtain rfl | rfl | rfl := h
        · decide
        · exact (ne_separators hc).1
        · exact (ne_separators hd).1
  · exact nomatch h

theorem headText_ne : a.headText ≠ [] := by
  unfold headText text
  split_ifs <;> exact List.cons_ne_nil _ _

end Amount

/-- **What is found** in a text are the heads of its amounts. -/
theorem findAll_moneyRe {s : List Char} {amounts : List Amount} (h : Quotes s amounts) :
    findAll moneyRe s = amounts.map Amount.headText := by
  induction h with
  | nil => rfl
  | @char c s amounts hdollar hs ih =>
    have hnone : front moneyRe (c :: s) = none := by
      by_cases hc : c = '$'
      · subst hc
        exact front_moneyRe_of_not_startsNumber (hdollar rfl)
      · exact front_moneyRe_of_ne hc
    rw [findAll_skip hnone, ih]
  | amount a hnext hs ih =>
    rw [a.text_eq, List.append_assoc, findAll_match a.headText_ne (a.front_headText hnext),
      findAll_skip_all fun c hc t =>
        front_moneyRe_of_ne (a.ne_of_mem_tailText hc), ih, List.map_cons]

/-! ### The values -/

theorem filter_kept_of_digits {ds : List Char} (h : ∀ c ∈ ds, isDigit c = true) :
    ds.filter kept = ds := by
  refine List.filter_eq_self.mpr fun c hc => ?_
  obtain ⟨hdollar, hcomma, -, hblank, -⟩ := ne_separators (h c hc)
  simp [kept, hdollar, hcomma, hblank]

section Token
variable {token : List Char} {ds : List Char} (hne : ds ≠ []) (hds : ∀ c ∈ ds, isDigit c = true)
include hne hds

theorem moneyToCents_of_whole (h : token.filter kept = ds) : moneyToCents (String.ofList token) =
    if maxDigits < ds.length then none else some ((100 * numberOf ds : ℕ) : ℤ) := by
  have hpartition : partition '.' (String.ofList ds) = none := by
    unfold partition
    rw [String.toList_ofList, if_neg fun hmem => (ne_separators (hds _ hmem)).2.2.1 rfl]
  unfold moneyToCents
  dsimp only
  rw [String.toList_ofList, h, hpartition]
  dsimp only
  rw [parseInt_of_digits hne hds]
  split_ifs
  · rfl
  · show some ((numberOf ds : ℤ) * 100) = _
    rw [mul_comm]
    push_cast
    rfl

theorem moneyToCents_of_cents {c d : Char} (hc : isDigit c = true) (hd : isDigit d = true)
    (h : token.filter kept = ds ++ ['.', c, d]) : moneyToCents (String.ofList token) =
      if maxDigits < ds.length then none
      else some ((100 * numberOf ds + numberOf [c, d] : ℕ) : ℤ) := by
  have hpoint : '.' ∉ ds := fun hmem => (ne_separators (hds _ hmem)).2.2.1 rfl
  have hbefore : ∀ x ∈ ds, decide (x ≠ '.') = true := by
    intro x hx
    have hx' : x ≠ '.' := fun heq => hpoint (heq ▸ hx)
    simpa using hx'
  have hpartition : partition '.' (String.ofList (ds ++ ['.', c, d])) =
      some (String.ofList ds, String.ofList [c, d]) := by
    unfold partition
    rw [String.toList_ofList, if_pos (by simp), List.takeWhile_append_of_pos hbefore,
      List.dropWhile_append_of_pos hbefore]
    simp
  have hwhole : String.ofList ds ≠ "" := by simpa [String.ext_iff] using hne
  have hfrac : String.ofList (((String.ofList [c, d]).toList ++ ['0', '0']).take 2) =
      String.ofList [c, d] := by
    rw [String.toList_ofList]
    rfl
  have hread : parseInt (String.ofList [c, d]) = some (numberOf [c, d] : ℤ) :=
    parseInt_of_digits (by simp) (by simp [hc, hd])
  unfold moneyToCents
  dsimp only
  rw [String.toList_ofList, h, hpartition]
  dsimp only
  rw [if_neg hwhole, parseInt_of_digits hne hds, hfrac, hread]
  split_ifs
  · rfl
  · show some ((numberOf ds : ℤ) * 100 + numberOf [c, d]) = _
    rw [mul_comm]
    push_cast
    rfl

end Token

namespace Amount
variable (a : Amount)

/-- The digits of the head's whole part. -/
def headWhole : List Char := if a.Long then a.first.take 3 else a.whole

theorem whole_digits : ∀ c ∈ a.whole, isDigit c = true := by
  intro c hc
  obtain hc | hc := List.mem_append.mp hc
  · exact a.first_digits c hc
  · obtain ⟨g, hg, hcg⟩ := List.mem_flatten.mp hc
    exact (a.groups_digits g hg).2 c hcg

theorem filter_groupText {groups : List (List Char)}
    (h : ∀ g ∈ groups, g.length = 3 ∧ ∀ c ∈ g, isDigit c = true) :
    (groupText groups).filter kept = groups.flatten := by
  induction groups with
  | nil => rfl
  | cons g groups ih =>
    obtain ⟨hg, hrest⟩ := List.forall_mem_cons.mp h
    have hcomma : (',' :: g).filter kept = g := filter_kept_of_digits hg.2
    rw [groupText, List.flatMap_cons, List.filter_append, hcomma, List.flatten_cons]
    exact congrArg _ (ih hrest)

theorem filter_text : a.text.filter kept = a.whole ++ a.centsText := by
  have hcents : a.centsText.filter kept = a.centsText := by
    rw [centsText]
    cases hcents : a.cents with
    | none => rfl
    | some p =>
      obtain ⟨hc, hd⟩ := a.cents_digits p (by rw [hcents]; rfl)
      have hkept : [p.1, p.2].filter kept = [p.1, p.2] := filter_kept_of_digits (by simp [hc, hd])
      exact congrArg (List.cons '.') hkept
  show (a.first ++ (groupText a.groups ++ a.centsText)).filter kept = _
  rw [List.filter_append, List.filter_append, filter_kept_of_digits a.first_digits,
    filter_groupText a.groups_digits, hcents, whole, List.append_assoc]

/-- **What a head is worth**, if it has not too many digits. -/
theorem moneyToCents_headText : moneyToCents (String.ofList a.headText) =
    if maxDigits < a.headWhole.length then none else some (a.headValue : ℤ) := by
  have hwhole : a.whole ≠ [] := List.append_ne_nil_of_left_ne_nil a.first_ne _
  unfold headText headWhole headValue
  by_cases hlong : a.Long
  · have hdigits : ∀ c ∈ a.first.take 3, isDigit c = true := fun c hc =>
      a.first_digits c (List.mem_of_mem_take hc)
    have hne : a.first.take 3 ≠ [] := by simpa using a.first_ne
    have hkept : ('$' :: a.first.take 3).filter kept = a.first.take 3 :=
      filter_kept_of_digits hdigits
    rw [if_pos hlong, if_pos hlong, if_pos hlong, moneyToCents_of_whole hne hdigits hkept]
  · have htext := a.filter_text
    rw [if_neg hlong, if_neg hlong, if_neg hlong, value]
    rw [centsText] at htext
    cases hcents : a.cents with
    | none =>
      rw [hcents, Option.elim_none, List.append_nil] at htext
      rw [moneyToCents_of_whole hwhole a.whole_digits htext]
      rfl
    | some p =>
      obtain ⟨hc, hd⟩ := a.cents_digits p (by rw [hcents]; rfl)
      rw [hcents, Option.elim_some] at htext
      exact moneyToCents_of_cents hwhole a.whole_digits hc hd htext

end Amount

/-! ### What the rule flags -/

theorem see_headText {a : Amount} (h : a.headWhole.length ≤ maxDigits) (acc : List ℤ × List String)
    (hacc : acc.1.Nodup) : ∃ acc', see acc (String.ofList a.headText) = some acc' ∧ acc'.1.Nodup ∧
      ∀ v, v ∈ acc'.1 ↔ v ∈ acc.1 ∨ v = a.headValue := by
  have hread : moneyToCents (String.ofList a.headText) = some (a.headValue : ℤ) := by
    rw [a.moneyToCents_headText, if_neg (not_lt.mpr h)]
  refine ⟨_, by rw [see, hread]; rfl, ?_⟩
  split_ifs with hmem
  · exact ⟨hacc, fun v => ⟨Or.inl, fun hv => hv.elim id fun heq => heq ▸ hmem⟩⟩
  · refine ⟨?_, fun v => by simp⟩
    exact List.nodup_append.mpr ⟨hacc, List.nodup_singleton _, fun u hu v hv =>
      fun heq => hmem (List.mem_singleton.mp hv ▸ heq ▸ hu)⟩

/-- **What was seen** at the end of the loop: the values of the heads, each once. -/
theorem foldlM_see {amounts : List Amount} (h : ∀ a ∈ amounts, a.headWhole.length ≤ maxDigits)
    (acc : List ℤ × List String) (hacc : acc.1.Nodup) :
    ∃ acc', ((amounts.map Amount.headText).map String.ofList).foldlM see acc = some acc' ∧
      acc'.1.Nodup ∧ ∀ v, v ∈ acc'.1 ↔ v ∈ acc.1 ∨ ∃ a ∈ amounts, v = a.headValue := by
  induction amounts generalizing acc with
  | nil => exact ⟨acc, rfl, hacc, fun v => by simp⟩
  | cons a amounts ih =>
    obtain ⟨ha, hrest⟩ := List.forall_mem_cons.mp h
    obtain ⟨acc₁, hsee, hnodup, hmem⟩ := see_headText ha acc hacc
    obtain ⟨acc', hloop, hnodup', hmem'⟩ := ih hrest acc₁ hnodup
    refine ⟨acc', ?_, hnodup', fun v => ?_⟩
    · rw [List.map_cons, List.map_cons, List.foldlM_cons, hsee]
      exact hloop
    · rw [hmem', hmem, List.exists_mem_cons_iff, or_assoc]

theorem foldlM_see_eq_none {amounts : List Amount}
    (h : ∃ a ∈ amounts, maxDigits < a.headWhole.length) (acc : List ℤ × List String) :
    ((amounts.map Amount.headText).map String.ofList).foldlM see acc = none := by
  induction amounts generalizing acc with
  | nil =>
    obtain ⟨a, ha, -⟩ := h
    exact nomatch ha
  | cons a amounts ih =>
    rw [List.map_cons, List.map_cons, List.foldlM_cons]
    by_cases hlong : maxDigits < a.headWhole.length
    · rw [see, a.moneyToCents_headText, if_pos hlong]
      rfl
    · obtain ⟨b, hb, hblong⟩ := h
      have hrest : ∃ b ∈ amounts, maxDigits < b.headWhole.length := by
        obtain rfl | hb := List.mem_cons.mp hb
        · exact absurd hblong hlong
        · exact ⟨b, hb, hblong⟩
      cases see acc (String.ofList a.headText) with
      | none => rfl
      | some acc₁ => exact ih hrest acc₁

theorem two_le_length_iff {seen : List ℤ} (h : seen.Nodup) :
    2 ≤ seen.length ↔ ∃ u ∈ seen, ∃ v ∈ seen, u ≠ v := by
  rw [← List.toFinset_card_of_nodup h]
  have hcard := Finset.one_lt_card (s := seen.toFinset)
  show 1 < _ ↔ _
  simpa only [List.mem_toFinset] using hcard

theorem checkDoubleValue_of_readable {text : String} {amounts : List Amount}
    (hquotes : Quotes text.toList amounts) (h : ∀ a ∈ amounts, a.headWhole.length ≤ maxDigits) :
    ∃ violations, checkDoubleValue text = some violations ∧
      (violations ≠ [] ↔ Differ Amount.headValue amounts) := by
  obtain ⟨⟨seen, examples⟩, hloop, hnodup, hmem⟩ := foldlM_see h ([], []) List.nodup_nil
  refine ⟨_, by rw [checkDoubleValue, findAll_moneyRe hquotes, hloop]; rfl, ?_⟩
  have hdiffer : 2 ≤ seen.length ↔ Differ Amount.headValue amounts := by
    have hmem' : ∀ v, v ∈ seen ↔ ∃ a ∈ amounts, v = a.headValue := by simpa using hmem
    rw [two_le_length_iff hnodup]
    constructor
    · rintro ⟨u, hu, v, hv, hne⟩
      obtain ⟨a, ha, rfl⟩ := (hmem' u).mp hu
      obtain ⟨b, hb, rfl⟩ := (hmem' v).mp hv
      exact ⟨a, ha, b, hb, fun heq => hne (congrArg _ heq)⟩
    · rintro ⟨a, ha, b, hb, hne⟩
      exact ⟨_, (hmem' _).mpr ⟨a, ha, rfl⟩, _, (hmem' _).mpr ⟨b, hb, rfl⟩,
        fun heq => hne (Int.ofNat_inj.mp heq)⟩
  rw [← hdiffer]
  split_ifs with hlength
  · exact iff_of_true (List.cons_ne_nil _ _) hlength
  · exact iff_of_false (fun hne => hne rfl) hlength

/-- The heads of the amounts tell as much as the amounts: they can be read, they differ where the
amounts differ, and they do not where the amounts are the same. -/
structure HeadsTell (amounts : List Amount) : Prop where
  readable : ∀ a ∈ amounts, a.headWhole.length ≤ maxDigits
  differ : Differ Amount.value amounts → Differ Amount.headValue amounts
  same : ¬Differ Amount.value amounts → ¬Differ Amount.headValue amounts

theorem headsTell_of_not_long {amounts : List Amount} (hlong : ∀ a ∈ amounts, ¬a.Long)
    (h : ∀ a ∈ amounts, a.whole.length ≤ maxDigits) : HeadsTell amounts := by
  have hvalue : Differ Amount.headValue amounts ↔ Differ Amount.value amounts := by
    refine exists_congr fun a => and_congr_right fun ha => exists_congr fun b =>
      and_congr_right fun hb => ?_
    rw [Amount.headValue, if_neg (hlong a ha), Amount.headValue, if_neg (hlong b hb)]
  refine ⟨fun a ha => ?_, hvalue.mpr, fun hsame => hsame ∘ hvalue.mp⟩
  rw [Amount.headWhole, if_neg (hlong a ha)]
  exact h a ha

/-- **The rule flags the texts that quote two different amounts** exactly where the heads tell. -/
theorem doubleValue_iff {text : String} {amounts : List Amount} (h : Quotes text.toList amounts) :
    (∃ violations, checkDoubleValue text = some violations ∧
        (violations ≠ [] ↔ Differ Amount.value amounts)) ↔ HeadsTell amounts := by
  constructor
  · rintro ⟨violations, hcheck, hiff⟩
    have hreadable : ∀ a ∈ amounts, a.headWhole.length ≤ maxDigits := by
      by_contra hnot
      push Not at hnot
      rw [checkDoubleValue, findAll_moneyRe h, foldlM_see_eq_none hnot] at hcheck
      exact nomatch hcheck
    obtain ⟨violations', hcheck', hheads⟩ := checkDoubleValue_of_readable h hreadable
    obtain rfl := Option.some.inj (hcheck'.symm.trans hcheck)
    exact ⟨hreadable, fun hdiffer => hheads.mp (hiff.mpr hdiffer),
      fun hsame hdiffer => hsame (hiff.mp (hheads.mpr hdiffer))⟩
  · intro htell
    obtain ⟨violations, hcheck, hheads⟩ := checkDoubleValue_of_readable h htell.readable
    refine ⟨violations, hcheck, hheads.trans ⟨fun hdiffer => ?_, htell.differ⟩⟩
    by_contra hsame
    exact htell.same hsame hdiffer

/-- An amount without commas or cents. -/
def plain (first : List Char) (hne : first ≠ []) (hdigits : ∀ c ∈ first, isDigit c = true) :
    Amount where
  first
  first_ne := hne
  first_digits := hdigits
  groups_digits := by simp
  first_length := by simp
  cents_digits := by simp

theorem quotes_pair (a b : Amount) : Quotes (a.text ++ ' ' :: b.text) [a, b] := by
  have hlast : Quotes b.text [b] := by
    have hquotes := Quotes.amount b (s := []) id .nil
    rwa [List.append_nil] at hquotes
  refine .amount a ?_ (.char (fun h => absurd h (by decide)) hlast)
  rintro (h | ⟨h | h, -⟩) <;> exact absurd h (by decide)

/-- Two different amounts of two digits. -/
theorem doubleValue_forty : ∃ violations, checkDoubleValue "$40 $41" = some violations ∧
    (violations ≠ [] ↔ Differ Amount.value
      [plain ['4', '0'] (by decide) (List.all_eq_true.mp rfl),
        plain ['4', '1'] (by decide) (List.all_eq_true.mp rfl)]) := by
  have htext : "$40 $41".toList =
      (plain ['4', '0'] (by decide) (List.all_eq_true.mp rfl)).text ++
        ' ' :: (plain ['4', '1'] (by decide) (List.all_eq_true.mp rfl)).text := by decide +kernel
  exact (doubleValue_iff (htext ▸ quotes_pair _ _)).mpr
    (headsTell_of_not_long (by decide) (by decide))

/-- Of `$1500` and `$1509`, only `$150` is found. -/
theorem not_doubleValue_long :
    ¬∀ (text : String) (amounts : List Amount), Quotes text.toList amounts →
    ∃ violations, checkDoubleValue text = some violations ∧
      (violations ≠ [] ↔ Differ Amount.value amounts) := by
  intro h
  have htext : "$1500 $1509".toList =
      (plain ['1', '5', '0', '0'] (by decide) (List.all_eq_true.mp rfl)).text ++
        ' ' :: (plain ['1', '5', '0', '9'] (by decide) (List.all_eq_true.mp rfl)).text := by
    decide +kernel
  obtain ⟨violations, hcheck, hiff⟩ := h "$1500 $1509" _ (htext ▸ quotes_pair _ _)
  have hnone : checkDoubleValue "$1500 $1509" = some [] := by decide +kernel
  obtain rfl := Option.some.inj (hnone.symm.trans hcheck)
  exact hiff.mpr ⟨_, List.mem_cons_self, _,
    List.mem_cons_of_mem _ List.mem_cons_self, by decide +kernel⟩ rfl

end Selfevals.Graders.DoubleValue
