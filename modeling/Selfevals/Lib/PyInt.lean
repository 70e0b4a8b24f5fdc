import Mathlib.Tactic

/-!
# Python's `int(str)`

`parseInt s` is `int(s)`, with `none` for `ValueError`: white space around the number is dropped, a
sign may stand in front of it, single underscores may stand between its digits, any Unicode decimal
digit counts, and more than 4300 digits are refused. `intStr` is `str(n)`, and `parseInt_of_intStr`
reads it back.
-/

namespace Selfevals.Lib.PyInt

/-- The code points of the decimal zeros; each is followed by the other nine digits of its script.
-/
def zeros : List ℕ :=
  [0x0030, 0x0660, 0x06F0, 0x07C0, 0x0966, 0x09E6, 0x0A66, 0x0AE6, 0x0B66, 0x0BE6, 0x0C66, 0x0CE6,
    0x0D66, 0x0DE6, 0x0E50, 0x0ED0, 0x0F20, 0x1040, 0x1090, 0x17E0, 0x1810, 0x1946, 0x19D0, 0x1A80,
    0x1A90, 0x1B50, 0x1BB0, 0x1C40, 0x1C50, 0xA620, 0xA8D0, 0xA900, 0xA9D0, 0xA9F0, 0xAA50, 0xABF0,
    0xFF10, 0x104A0, 0x10D30, 0x11066, 0x110F0, 0x11136, 0x111D0, 0x112F0, 0x11450, 0x114D0,
    0x11650, 0x116C0, 0x11730, 0x118E0, 0x11950, 0x11C50, 0x11D50, 0x11DA0, 0x11F50, 0x16A60,
    0x16AC0, 0x16B50, 0x1D7CE, 0x1D7D8, 0x1D7E2, 0x1D7EC, 0x1D7F6, 0x1E140, 0x1E2F0, 0x1E4F0,
    0x1E950, 0x1FBF0]

/-- The value of a decimal digit; `\d` matches exactly these characters. -/
def digitValue (c : Char) : Option ℕ :=
  (zeros.find? fun z => z ≤ c.toNat && c.toNat < z + 10).map (c.toNat - ·)

/-- The white space that `int` drops: that of C, and all of Unicode's beyond ASCII. -/
def isSpace (c : Char) : Bool :=
  (9 ≤ c.toNat && c.toNat ≤ 13) || c.toNat == 32 ||
    [0x85, 0xA0, 0x1680, 0x2028, 0x2029, 0x202F, 0x205F, 0x3000].contains c.toNat ||
    (0x2000 ≤ c.toNat && c.toNat ≤ 0x200A)

/-- The characters without the blanks around them. -/
def stripSpace (cs : List Char) : List Char :=
  ((cs.dropWhile isSpace).reverse.dropWhile isSpace).reverse

/-- Digits with single underscores between them, most significant first; `afterDigit` says whether
the character before was a digit. -/
def parseDigits (acc : ℕ) (afterDigit : Bool) : List Char → Option ℕ
  | [] => if afterDigit then some acc else none
  | c :: cs =>
    if c = '_' then
      if afterDigit then parseDigits acc false cs else none
    else
      match digitValue c with
      | none => none
      | some d => parseDigits (10 * acc + d) true cs

/-- The number of digits Python converts at most. -/
def maxDigits : ℕ := 4300

/-- The number that digits write. -/
def parseNat (cs : List Char) : Option ℕ :=
  if maxDigits < (cs.filter (· ≠ '_')).length then none else parseDigits 0 false cs

/-- `int(s)`. -/
def parseInt (s : String) : Option ℤ :=
  match stripSpace s.toList with
  | [] => none
  | c :: cs =>
    if c = '-' then (parseNat cs).map fun n => -(n : ℤ)
    else if c = '+' then (parseNat cs).map fun n => (n : ℤ)
    else (parseNat (c :: cs)).map fun n => (n : ℤ)

example : parseInt " -1_000\n" = some (-1000) := by decide

/-- `str(n)`, with `none` for `ValueError`. -/
def intStr (n : ℤ) : Option String :=
  if maxDigits < (Nat.toDigits 10 n.natAbs).length then none else some (toString n)

/-! ### A number that is written is read again -/

theorem digitChar_spec : ∀ d < 10, digitValue (Nat.digitChar d) = some d ∧ Nat.digitChar d ≠ '_' ∧
    Nat.digitChar d ≠ '-' ∧ Nat.digitChar d ≠ '+' ∧ Nat.digitChar d ≠ '.' ∧ Nat.digitChar d ≠ '|' ∧
    isSpace (Nat.digitChar d) = false := by
  decide +kernel

theorem exists_digit_of_mem {n : ℕ} {c : Char} (h : c ∈ Nat.toDigits 10 n) :
    ∃ d < 10, c = Nat.digitChar d := by
  induction n using Nat.strongRecOn with
  | ind n ih =>
    rw [Nat.toDigits_eq_if (by decide)] at h
    split_ifs at h with hlt
    · exact ⟨n, hlt, List.mem_singleton.mp h⟩
    · obtain hmem | hlast := List.mem_append.mp h
      · exact ih (n / 10) (by omega) hmem
      · exact ⟨n % 10, Nat.mod_lt n (by decide), List.mem_singleton.mp hlast⟩

theorem parseDigits_append {cs : List Char} (hcs : ∀ c ∈ cs, ∃ d < 10, c = Nat.digitChar d) {d : ℕ}
    (hd : d < 10) (acc : ℕ) (afterDigit : Bool) {m : ℕ} (hne : cs ≠ [])
    (h : parseDigits acc afterDigit cs = some m) :
    parseDigits acc afterDigit (cs ++ [Nat.digitChar d]) = some (10 * m + d) := by
  induction cs generalizing acc afterDigit with
  | nil => exact absurd rfl hne
  | cons c cs ih =>
    obtain ⟨e, he, rfl⟩ := hcs c List.mem_cons_self
    obtain ⟨hvalue, hunderscore, -⟩ := digitChar_spec e he
    simp only [List.cons_append, parseDigits, hunderscore, if_false, hvalue] at h ⊢
    cases cs with
    | nil =>
      obtain ⟨hvalue', hunderscore', -⟩ := digitChar_spec d hd
      simp only [parseDigits, if_true, Option.some.injEq] at h
      simp [parseDigits, hvalue', hunderscore', h]
    | cons c' cs' => exact ih (fun c hc => hcs c (List.mem_cons_of_mem _ hc)) _ _ (by simp) h

theorem parseDigits_toDigits (n : ℕ) : parseDigits 0 false (Nat.toDigits 10 n) = some n := by
  induction n using Nat.strongRecOn with
  | ind n ih =>
    rw [Nat.toDigits_eq_if (by decide)]
    split_ifs with hlt
    · obtain ⟨hvalue, hunderscore, -⟩ := digitChar_spec n hlt
      simp [parseDigits, hvalue, hunderscore]
    · rw [parseDigits_append (fun c => exists_digit_of_mem) (Nat.mod_lt n (by decide)) 0 false
        Nat.toDigits_ne_nil (ih (n / 10) (by omega))]
      congr 1
      omega

theorem parseNat_toDigits {n : ℕ} (h : (Nat.toDigits 10 n).length ≤ maxDigits) :
    parseNat (Nat.toDigits 10 n) = some n := by
  have hall : (Nat.toDigits 10 n).filter (· ≠ '_') = Nat.toDigits 10 n := by
    refine List.filter_eq_self.mpr fun c hc => ?_
    obtain ⟨d, hd, rfl⟩ := exists_digit_of_mem hc
    simp [(digitChar_spec d hd).2.1]
  rw [parseNat, hall, if_neg (by omega), parseDigits_toDigits]

theorem stripSpace_eq_self {cs : List Char} (h : ∀ c ∈ cs, isSpace c = false) :
    stripSpace cs = cs := by
  have hkeep : ∀ {cs : List Char}, (∀ c ∈ cs, isSpace c = false) → cs.dropWhile isSpace = cs := by
    intro cs hcs
    cases cs with
    | nil => rfl
    | cons c cs => exact List.dropWhile_cons_of_neg (by simp [hcs c List.mem_cons_self])
  rw [stripSpace, hkeep h, hkeep fun c hc => h c (List.mem_reverse.mp hc), List.reverse_reverse]

theorem toList_toString (n : ℤ) : (toString n).toList =
    (if n < 0 then ['-'] else []) ++ Nat.toDigits 10 n.natAbs := by
  cases n with
  | ofNat n =>
    have hrepr : (toString (Int.ofNat n)).toList = Nat.toDigits 10 n := String.toList_ofList
    have hneg : ¬Int.ofNat n < 0 := by simp
    rw [hrepr, if_neg hneg]
    rfl
  | negSucc n =>
    have hrepr : (toString (Int.negSucc n)).toList = '-' :: Nat.toDigits 10 (n + 1) := by
      show ("-" ++ (n + 1).repr).toList = _
      simp [String.toList_append, Nat.repr]
    rw [hrepr, if_pos (Int.negSucc_lt_zero n)]
    rfl

theorem intStr_eq_some {n : ℤ} {s : String} (h : intStr n = some s) :
    (Nat.toDigits 10 n.natAbs).length ≤ maxDigits ∧
      s.toList = (if n < 0 then ['-'] else []) ++ Nat.toDigits 10 n.natAbs := by
  unfold intStr at h
  split_ifs at h with hlong
  obtain rfl := Option.some.inj h
  exact ⟨not_lt.mp hlong, toList_toString n⟩

/-- **A number that is written is read again.** -/
theorem parseInt_of_intStr {n : ℤ} {s : String} (h : intStr n = some s) : parseInt s = some n := by
  obtain ⟨hlength, hlist⟩ := intStr_eq_some h
  have hspace : ∀ c ∈ s.toList, isSpace c = false := by
    intro c hc
    rw [hlist, List.mem_append] at hc
    obtain hsign | hdigit := hc
    · split_ifs at hsign
      · rw [List.mem_singleton.mp hsign]
        decide
      · cases hsign
    · obtain ⟨d, hd, rfl⟩ := exists_digit_of_mem hdigit
      exact (digitChar_spec d hd).2.2.2.2.2.2
  rw [parseInt, stripSpace_eq_self hspace, hlist]
  split_ifs with hneg
  · have hread := parseNat_toDigits hlength
    have hvalue : (some n.natAbs).map (fun m : ℕ => -(m : ℤ)) = some n := by
      rw [Option.map_some]
      congr 1
      omega
    simp only [List.singleton_append, if_true, hread]
    exact hvalue
  · cases hdigits : Nat.toDigits 10 n.natAbs with
    | nil => exact absurd hdigits Nat.toDigits_ne_nil
    | cons c cs =>
      obtain ⟨d, hd, rfl⟩ :=
        exists_digit_of_mem (n := n.natAbs) (by rw [hdigits]; exact List.mem_cons_self)
      obtain ⟨-, -, hminus, hplus, -⟩ := digitChar_spec d hd
      rw [hdigits] at hlength
      have hread := parseNat_toDigits (n := n.natAbs) (by rw [hdigits]; exact hlength)
      rw [hdigits] at hread
      have hvalue : (some n.natAbs).map (fun m : ℕ => (m : ℤ)) = some n := by
        rw [Option.map_some]
        congr 1
        omega
      simp only [List.nil_append, hminus, hplus, if_false, hread]
      exact hvalue

theorem not_mem_of_intStr {n : ℤ} {s : String} (h : intStr n = some s) :
    '.' ∉ s.toList ∧ '|' ∉ s.toList := by
  obtain ⟨-, hlist⟩ := intStr_eq_some h
  have hchar : ∀ c ∈ s.toList, c ≠ '.' ∧ c ≠ '|' := by
    intro c hc
    rw [hlist, List.mem_append] at hc
    obtain hsign | hdigit := hc
    · split_ifs at hsign
      · rw [List.mem_singleton.mp hsign]
        decide
      · cases hsign
    · obtain ⟨d, hd, rfl⟩ := exists_digit_of_mem hdigit
      obtain ⟨-, -, -, -, hdot, hbar, -⟩ := digitChar_spec d hd
      exact ⟨hdot, hbar⟩
  exact ⟨fun hmem => (hchar _ hmem).1 rfl, fun hmem => (hchar _ hmem).2 rfl⟩

end Selfevals.Lib.PyInt
