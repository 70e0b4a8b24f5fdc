import Mathlib.Data.List.TakeWhile
import Selfevals.Lib.JsonStrings
import Selfevals.Lib.PyInt

/-!
# JSON numbers

The tokens of a JSON text that are integers (`isInt`) and those with a fraction or an exponent
(`isFloat`). How the floats are written is left to `FloatText`: what it writes has a fraction or an
exponent, and is read again.

* `isInt_toString`: what an integer is written as is one;
* `isInt_of_isFloat`: no token is both.
-/

namespace Selfevals.Lib.JsonNumbers

open Lib.JsonStrings Lib.PyInt

/-! ### Tokens -/

def isNumberChar (c : Char) : Bool := c.isDigit || ['-', '+', '.', 'e', 'E'].contains c

def unsigned (token : List Char) : List Char :=
  if token.head? = some '-' then token.tail else token

/-- `0|[1-9]\d*`. -/
def isNatural (cs : List Char) : Bool :=
  cs.all Char.isDigit && (cs = ['0'] || (!cs.isEmpty && cs.head? ≠ some '0'))

/-- `-?(0|[1-9]\d*)`. -/
def isInt (token : List Char) : Bool := isNatural (unsigned token)

/-- `\d+`. -/
def isDigits (cs : List Char) : Bool := !cs.isEmpty && cs.all Char.isDigit

/-- `[eE][-+]?\d+`. -/
def isExponent : List Char → Bool
  | [] => false
  | c :: cs => (c = 'e' || c = 'E') &&
      isDigits (if cs.head? = some '-' ∨ cs.head? = some '+' then cs.tail else cs)

/-- `\.\d+`, an exponent, or both. -/
def isFraction (cs : List Char) : Bool :=
  if cs.head? = some '.' then
    let rest := cs.tail.dropWhile Char.isDigit
    isDigits (cs.tail.takeWhile Char.isDigit) && (rest.isEmpty || isExponent rest)
  else isExponent cs

/-- A number with a fraction or an exponent. -/
def isFloat (token : List Char) : Bool :=
  isNatural ((unsigned token).takeWhile Char.isDigit) &&
    isFraction ((unsigned token).dropWhile Char.isDigit)

/-- How floats are written, and read again. -/
structure FloatText where
  /-- `float.__repr__`. -/
  repr : ℚ → List Char
  /-- `float(token)`. -/
  read : List Char → Option ℚ
  read_repr : ∀ q, read (repr q) = some q
  isFloat_repr : ∀ q, isFloat (repr q) = true

theorem isNumberChar_of_isDigit {c : Char} (h : c.isDigit = true) : isNumberChar c = true := by
  simp [isNumberChar, h]

theorem all_of_isDigits {cs : List Char} (h : isDigits cs = true) :
    ∀ c ∈ cs, isNumberChar c = true := by
  intro c hc
  have hall := (Bool.and_eq_true_iff.mp h).2
  exact isNumberChar_of_isDigit (List.all_eq_true.mp hall c hc)

theorem all_of_isExponent {cs : List Char} (h : isExponent cs = true) :
    ∀ c ∈ cs, isNumberChar c = true := by
  cases cs with
  | nil => cases h
  | cons e cs =>
    simp only [isExponent, Bool.and_eq_true, Bool.or_eq_true, decide_eq_true_eq] at h
    obtain ⟨he, hdigits⟩ := h
    rw [List.forall_mem_cons]
    refine ⟨by obtain rfl | rfl := he <;> rfl, ?_⟩
    split_ifs at hdigits with hsign
    · cases cs with
      | nil => cases hdigits
      | cons c cs =>
        rw [List.forall_mem_cons]
        refine ⟨?_, all_of_isDigits hdigits⟩
        obtain hsign | hsign := hsign
        · obtain rfl := Option.some.inj hsign
          rfl
        · obtain rfl := Option.some.inj hsign
          rfl
    · exact all_of_isDigits hdigits

theorem all_of_isFraction {cs : List Char} (h : isFraction cs = true) :
    ∀ c ∈ cs, isNumberChar c = true := by
  unfold isFraction at h
  split_ifs at h with hdot
  · cases cs with
    | nil => cases hdot
    | cons c cs =>
      obtain rfl := Option.some.inj hdot
      simp only [List.tail_cons, Bool.and_eq_true, Bool.or_eq_true, List.isEmpty_iff] at h
      obtain ⟨hdigits, hrest⟩ := h
      rw [List.forall_mem_cons]
      refine ⟨rfl, fun c hc => ?_⟩
      rw [← List.takeWhile_append_dropWhile (p := Char.isDigit) (l := cs), List.mem_append] at hc
      obtain hc | hc := hc
      · exact all_of_isDigits hdigits c hc
      · obtain hnil | hexponent := hrest
        · rw [hnil] at hc
          cases hc
        · exact all_of_isExponent hexponent c hc
  · exact all_of_isExponent h

theorem of_mem_unsigned {token : List Char} (h : ∀ c ∈ unsigned token, isNumberChar c = true) :
    ∀ c ∈ token, isNumberChar c = true := by
  unfold unsigned at h
  split_ifs at h with hsign
  · cases token with
    | nil => cases hsign
    | cons c cs =>
      obtain rfl := Option.some.inj hsign
      rw [List.forall_mem_cons]
      exact ⟨rfl, h⟩
  · exact h

theorem all_of_isInt {token : List Char} (h : isInt token = true) :
    ∀ c ∈ token, isNumberChar c = true := by
  refine of_mem_unsigned fun c hc => isNumberChar_of_isDigit ?_
  exact List.all_eq_true.mp (Bool.and_eq_true_iff.mp h).1 c hc

theorem all_of_isFloat {token : List Char} (h : isFloat token = true) :
    ∀ c ∈ token, isNumberChar c = true := by
  obtain ⟨hnatural, hfraction⟩ := Bool.and_eq_true_iff.mp h
  refine of_mem_unsigned fun c hc => ?_
  rw [← List.takeWhile_append_dropWhile (p := Char.isDigit) (l := unsigned token),
    List.mem_append] at hc
  obtain hc | hc := hc
  · exact isNumberChar_of_isDigit (List.mem_takeWhile_imp hc)
  · exact all_of_isFraction hfraction c hc

theorem isInt_of_isFloat {token : List Char} (h : isFloat token = true) : isInt token = false := by
  rw [Bool.eq_false_iff]
  intro hint
  have hall : ∀ c ∈ unsigned token, c.isDigit = true :=
    List.all_eq_true.mp (Bool.and_eq_true_iff.mp hint).1
  have hnil : (unsigned token).dropWhile Char.isDigit = [] := List.dropWhile_eq_nil_iff.mpr hall
  have hfraction := (Bool.and_eq_true_iff.mp h).2
  rw [hnil] at hfraction
  cases hfraction

theorem ne_nil_of_isInt {token : List Char} (h : isInt token = true) : token ≠ [] := by
  rintro rfl
  exact absurd h (by decide)

theorem ne_nil_of_isFloat {token : List Char} (h : isFloat token = true) : token ≠ [] := by
  rintro rfl
  exact absurd h (by decide)

theorem isAscii_of_isNumberChar {c : Char} (h : isNumberChar c = true) : isAscii c = true := by
  simp only [isNumberChar, Bool.or_eq_true, List.contains_cons, List.contains_nil, Bool.or_false,
    beq_iff_eq] at h
  obtain hdigit | rfl | rfl | rfl | rfl | rfl := h
  · simp only [Char.isDigit, Bool.and_eq_true, decide_eq_true_eq, UInt32.le_iff_toNat_le] at hdigit
    have hle : c.toNat ≤ 57 := hdigit.2
    simp only [isAscii, decide_eq_true_eq]
    omega
  all_goals rfl

theorem isDigit_digitChar : ∀ d < 10, (Nat.digitChar d).isDigit = true := by decide

theorem head_toDigits {n : ℕ} (h : 0 < n) : (Nat.toDigits 10 n).head? ≠ some '0' := by
  induction n using Nat.strongRecOn with
  | ind n ih =>
    rw [Nat.toDigits_eq_if (by decide)]
    split_ifs with hlt
    · have hall : ∀ d < 10, 0 < d → [Nat.digitChar d].head? ≠ some '0' := by decide
      exact hall n hlt h
    · rw [List.head?_append_of_ne_nil _ Nat.toDigits_ne_nil]
      exact ih (n / 10) (by omega) (by omega)

theorem all_isDigit_toDigits (n : ℕ) : ∀ c ∈ Nat.toDigits 10 n, c.isDigit = true := by
  intro c hc
  obtain ⟨d, hd, rfl⟩ := exists_digit_of_mem hc
  exact isDigit_digitChar d hd

theorem isNatural_toDigits (n : ℕ) : isNatural (Nat.toDigits 10 n) = true := by
  have hdigits : (Nat.toDigits 10 n).all Char.isDigit = true :=
    List.all_eq_true.mpr (all_isDigit_toDigits n)
  rw [isNatural, hdigits, Bool.true_and]
  obtain rfl | hpos := Nat.eq_zero_or_pos n
  · rfl
  · simp [head_toDigits hpos, Nat.toDigits_ne_nil]

theorem isInt_toString (n : ℤ) : isInt (toString n).toList = true := by
  rw [toList_toString, isInt]
  split_ifs with hneg
  · exact isNatural_toDigits n.natAbs
  · have hunsigned : unsigned ([] ++ Nat.toDigits 10 n.natAbs) = Nat.toDigits 10 n.natAbs := by
      rw [unsigned, List.nil_append, if_neg]
      intro hhead
      obtain ⟨d, hd, heq⟩ := exists_digit_of_mem (List.mem_of_mem_head? hhead)
      exact (digitChar_spec d hd).2.2.1 heq.symm
    rw [hunsigned]
    exact isNatural_toDigits n.natAbs

/-! ### A way to write floats -/

/-- The numerator, and the denominator as the exponent. -/
def ratioRepr (q : ℚ) : List Char := (toString q.num).toList ++ 'e' :: Nat.toDigits 10 q.den

def ratioRead (token : List Char) : Option ℚ :=
  match parseDigits 0 false ((unsigned token).takeWhile Char.isDigit),
    parseDigits 0 false ((unsigned token).dropWhile Char.isDigit).tail with
  | some n, some d => some ((if token.head? = some '-' then -(n : ℚ) else n) / d)
  | _, _ => none

theorem ratioRepr_parts (q : ℚ) :
    (unsigned (ratioRepr q)).takeWhile Char.isDigit = Nat.toDigits 10 q.num.natAbs ∧
      (unsigned (ratioRepr q)).dropWhile Char.isDigit = 'e' :: Nat.toDigits 10 q.den ∧
      ((ratioRepr q).head? = some '-' ↔ q.num < 0) := by
  have hdigits := all_isDigit_toDigits q.num.natAbs
  obtain ⟨c, cs, hcs⟩ := List.exists_cons_of_ne_nil
    (Nat.toDigits_ne_nil (b := 10) (n := q.num.natAbs))
  have hc : c ≠ '-' := by
    rintro rfl
    exact absurd (hdigits '-' (by rw [hcs]; exact List.mem_cons_self)) (by decide)
  have hunsigned : unsigned (ratioRepr q) =
      Nat.toDigits 10 q.num.natAbs ++ 'e' :: Nat.toDigits 10 q.den := by
    rw [ratioRepr, toList_toString]
    split_ifs
    · rfl
    · rw [unsigned, List.nil_append, hcs, if_neg (by simpa using hc)]
  rw [hunsigned, List.takeWhile_append_of_pos hdigits, List.dropWhile_append_of_pos hdigits]
  refine ⟨by simp, rfl, ?_⟩
  rw [ratioRepr, toList_toString]
  split_ifs with hneg
  · exact iff_of_true rfl hneg
  · rw [hcs]
    exact iff_of_false (by simpa using hc) hneg

/-- Floats written as ratios. -/
def ratioText : FloatText where
  repr := ratioRepr
  read := ratioRead
  read_repr q := by
    obtain ⟨hnum, hden, hsign⟩ := ratioRepr_parts q
    have hvalue : (if q.num < 0 then -(q.num.natAbs : ℚ) else q.num.natAbs) = q.num := by
      split_ifs with hneg
      · have habs : (q.num.natAbs : ℤ) = -q.num := by omega
        rw [← Int.cast_natCast, habs, Int.cast_neg, neg_neg]
      · have habs : (q.num.natAbs : ℤ) = q.num := by omega
        rw [← Int.cast_natCast, habs]
    rw [ratioRead, hnum, hden, List.tail_cons, parseDigits_toDigits, parseDigits_toDigits]
    simp only [hsign, hvalue, Rat.num_div_den]
  isFloat_repr q := by
    obtain ⟨hnum, hden, -⟩ := ratioRepr_parts q
    have hdigits : isDigits (Nat.toDigits 10 q.den) = true := by
      rw [isDigits, List.all_eq_true.mpr (all_isDigit_toDigits q.den)]
      simp [Nat.toDigits_ne_nil]
    rw [isFloat, hnum, hden, isNatural_toDigits, Bool.true_and]
    have hsign : ¬((Nat.toDigits 10 q.den).head? = some '-' ∨
        (Nat.toDigits 10 q.den).head? = some '+') := by
      rintro (hhead | hhead)
      · exact absurd (all_isDigit_toDigits _ _ (List.mem_of_mem_head? hhead)) (by decide)
      · exact absurd (all_isDigit_toDigits _ _ (List.mem_of_mem_head? hhead)) (by decide)
    simp [isFraction, isExponent, hsign, hdigits]

end Selfevals.Lib.JsonNumbers
