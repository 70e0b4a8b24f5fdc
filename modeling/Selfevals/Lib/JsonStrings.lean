import Mathlib.Tactic

/-!
# JSON strings

How `json.dumps` writes a string, in ASCII, and how `json.loads` reads one. A character beyond the
sixteen bits of an escape is written as a surrogate pair; an escaped surrogate that has no partner
is no character, and is not read.
-/

namespace Selfevals.Lib.JsonStrings

/-! ### Escapes -/

/-- `\uXXXX`. -/
def hexEscape (n : ℕ) : List Char :=
  ['\\', 'u', Nat.digitChar (n / 4096 % 16), Nat.digitChar (n / 256 % 16),
    Nat.digitChar (n / 16 % 16), Nat.digitChar (n % 16)]

/-- The letter that stands for a character behind a backslash. -/
def shortEscape (c : Char) : Option Char :=
  match c with
  | '\\' => some '\\'
  | '"' => some '"'
  | '\x08' => some 'b'
  | '\x0c' => some 'f'
  | '\n' => some 'n'
  | '\r' => some 'r'
  | '\t' => some 't'
  | _ => none

/-- One character of a string, in ASCII. -/
def escape (c : Char) : List Char :=
  match shortEscape c with
  | some letter => ['\\', letter]
  | none =>
    if ' ' ≤ c ∧ c ≤ '~' then [c]
    else if c.toNat < 0x10000 then hexEscape c.toNat
    else
      hexEscape (0xD800 + (c.toNat - 0x10000) / 0x400) ++
        hexEscape (0xDC00 + (c.toNat - 0x10000) % 0x400)

/-- The characters, each escaped where it has to be. -/
def escapes (cs : List Char) : List Char := cs.flatMap escape

/-- The string between quotes. -/
def quote (s : String) : List Char := '"' :: (escapes s.toList ++ ['"'])

/-! ### Reading -/

/-- The value of a hexadecimal digit. -/
def hexValue (c : Char) : Option ℕ :=
  if '0' ≤ c ∧ c ≤ '9' then some (c.toNat - 48)
  else if 'a' ≤ c ∧ c ≤ 'f' then some (c.toNat - 87)
  else if 'A' ≤ c ∧ c ≤ 'F' then some (c.toNat - 55)
  else none

/-- Four hex digits. -/
def readHex : List Char → Option (ℕ × List Char)
  | a :: b :: c :: d :: cs =>
    match hexValue a, hexValue b, hexValue c, hexValue d with
    | some a, some b, some c, some d => some (((a * 16 + b) * 16 + c) * 16 + d, cs)
    | _, _, _, _ => none
  | _ => none

/-- A high surrogate. -/
def isHigh (n : ℕ) : Bool := 0xD800 ≤ n && n ≤ 0xDBFF

/-- A low surrogate. -/
def isLow (n : ℕ) : Bool := 0xDC00 ≤ n && n ≤ 0xDFFF

/-- What follows `\u`; a high surrogate takes the low one behind it. -/
def readUnicode (cs : List Char) : Option (Char × List Char) :=
  match readHex cs with
  | none => none
  | some (n, cs) =>
    if isHigh n then
      match cs with
      | '\\' :: 'u' :: cs =>
        match readHex cs with
        | some (m, cs) =>
          if isLow m then
            some (Char.ofNat (0x10000 + (n - 0xD800) * 0x400 + (m - 0xDC00)), cs)
          else none
        | none => none
      | _ => none
    else if isLow n then none
    else some (Char.ofNat n, cs)

/-- The character that a letter behind a backslash stands for. -/
def unescape (letter : Char) : Option Char :=
  match letter with
  | '"' => some '"'
  | '\\' => some '\\'
  | '/' => some '/'
  | 'b' => some '\x08'
  | 'f' => some '\x0c'
  | 'n' => some '\n'
  | 'r' => some '\r'
  | 't' => some '\t'
  | _ => none

/-- One character of a string; none is a control character. -/
def readChar : List Char → Option (Char × List Char)
  | [] => none
  | c :: cs =>
    if c = '\\' then
      match cs with
      | [] => none
      | letter :: cs =>
        if letter = 'u' then readUnicode cs else (unescape letter).map fun c => (c, cs)
    else if c < ' ' then none
    else some (c, cs)

/-- The characters up to the closing quote; `n` is more than there are. -/
def readChars : ℕ → List Char → Option (List Char × List Char)
  | 0, _ => none
  | n + 1, cs =>
    if cs.head? = some '"' then some ([], cs.tail)
    else
      match readChar cs with
      | none => none
      | some (c, cs) => (readChars n cs).map fun p => (c :: p.1, p.2)

/-- A string, behind its opening quote. -/
def readString (cs : List Char) : Option (String × List Char) :=
  (readChars (cs.length + 1) cs).map fun p => (String.ofList p.1, p.2)

/-! ### What is written is read -/

theorem hexValue_digitChar : ∀ d < 16, hexValue (Nat.digitChar d) = some d := by decide

theorem readHex_digits {n : ℕ} (h : n < 0x10000) (cs : List Char) :
    readHex (Nat.digitChar (n / 4096 % 16) :: Nat.digitChar (n / 256 % 16) ::
      Nat.digitChar (n / 16 % 16) :: Nat.digitChar (n % 16) :: cs) = some (n, cs) := by
  have hdigit (k : ℕ) : hexValue (Nat.digitChar (k % 16)) = some (k % 16) :=
    hexValue_digitChar _ (Nat.mod_lt k (by decide))
  have hvalue : ((n / 4096 % 16 * 16 + n / 256 % 16) * 16 + n / 16 % 16) * 16 + n % 16 = n := by
    omega
  simp only [readHex, hdigit, hvalue]

theorem readChar_hexEscape (n : ℕ) (cs : List Char) :
    readChar (hexEscape n ++ cs) = readUnicode (Nat.digitChar (n / 4096 % 16) ::
      Nat.digitChar (n / 256 % 16) :: Nat.digitChar (n / 16 % 16) :: Nat.digitChar (n % 16) :: cs) :=
  rfl

theorem toNat_valid (c : Char) : c.toNat < 0xD800 ∨ 0xDFFF < c.toNat ∧ c.toNat < 0x110000 := c.valid

theorem unescape_of_shortEscape {c letter : Char} (h : shortEscape c = some letter) :
    letter ≠ 'u' ∧ unescape letter = some c := by
  unfold shortEscape at h
  split at h
  case h_8 => cases h
  all_goals
    obtain rfl := Option.some.inj h
    exact ⟨by decide, rfl⟩

/-- **A character is read as it is written.** -/
theorem readChar_escape (c : Char) (cs : List Char) :
    readChar (escape c ++ cs) = some (c, cs) := by
  have hvalid := toNat_valid c
  unfold escape
  cases hshort : shortEscape c with
  | some letter =>
    obtain ⟨hne, hletter⟩ := unescape_of_shortEscape hshort
    simp [readChar, hne, hletter]
  | none =>
    simp only []
    split_ifs with hplain hsmall
    · have hne : c ≠ '\\' := by
        rintro rfl
        cases hshort
      have hprint : ¬c < ' ' := Char.not_lt.mpr hplain.1
      simp [readChar, hne, hprint]
    · have hhigh : isHigh c.toNat = false := by
        simp only [isHigh, Bool.and_eq_false_iff, decide_eq_false_iff_not]
        omega
      have hlow : isLow c.toNat = false := by
        simp only [isLow, Bool.and_eq_false_iff, decide_eq_false_iff_not]
        omega
      rw [readChar_hexEscape, readUnicode, readHex_digits hsmall]
      simp [hhigh, hlow, Char.ofNat_toNat]
    · -- the pair holds what is above the sixteen bits, ten bits in each half
      obtain ⟨n, hn⟩ : ∃ n, n = c.toNat - 0x10000 := ⟨_, rfl⟩
      have hhigh : isHigh (0xD800 + n / 0x400) = true := by
        simp only [isHigh, Bool.and_eq_true, decide_eq_true_eq]
        omega
      have hlow : isLow (0xDC00 + n % 0x400) = true := by
        simp only [isLow, Bool.and_eq_true, decide_eq_true_eq]
        omega
      have hchar : 0x10000 + (0xD800 + n / 0x400 - 0xD800) * 0x400 +
          (0xDC00 + n % 0x400 - 0xDC00) = c.toNat := by omega
      rw [← hn, List.append_assoc, readChar_hexEscape, readUnicode, readHex_digits (by omega)]
      simp only [hhigh, if_true, hexEscape, List.cons_append, List.nil_append]
      rw [readHex_digits (by omega)]
      simp only [hlow, if_true, hchar, Char.ofNat_toNat]

theorem head_escape (c : Char) : ∃ d ds, escape c = d :: ds ∧ d ≠ '"' := by
  unfold escape
  cases hshort : shortEscape c with
  | some letter => exact ⟨_, _, rfl, by decide⟩
  | none =>
    simp only []
    split_ifs
    · refine ⟨_, _, rfl, ?_⟩
      rintro rfl
      cases hshort
    · exact ⟨_, _, rfl, by decide⟩
    · exact ⟨_, _, rfl, by decide⟩

theorem readChars_escapes {cs : List Char} (rest : List Char) {n : ℕ} (hn : cs.length < n) :
    readChars n (escapes cs ++ '"' :: rest) = some (cs, rest) := by
  induction cs generalizing n with
  | nil =>
    obtain ⟨n, rfl⟩ := Nat.exists_eq_succ_of_ne_zero (Nat.ne_of_gt hn)
    rfl
  | cons c cs ih =>
    rw [List.length_cons] at hn
    obtain ⟨n, rfl⟩ := Nat.exists_eq_succ_of_ne_zero (Nat.ne_of_gt (Nat.zero_lt_of_lt hn))
    obtain ⟨d, ds, hhead, hne⟩ := head_escape c
    have hcons : escapes (c :: cs) ++ '"' :: rest = escape c ++ (escapes cs ++ '"' :: rest) := by
      rw [escapes, List.flatMap_cons, List.append_assoc]
      rfl
    have hquote : (escape c ++ (escapes cs ++ '"' :: rest)).head? ≠ some '"' := by
      rw [hhead]
      simpa using hne
    rw [hcons, readChars, if_neg hquote, readChar_escape]
    simp only [ih (n := n) (by omega), Option.map_some]

theorem length_le_escapes (cs : List Char) : cs.length ≤ (escapes cs).length := by
  induction cs with
  | nil => exact le_rfl
  | cons c cs ih =>
    obtain ⟨d, ds, hhead, -⟩ := head_escape c
    have hcons : escapes (c :: cs) = escape c ++ escapes cs := rfl
    rw [hcons, hhead, List.length_append, List.length_cons, List.length_cons]
    omega

/-- **A string is read as it is written.** -/
theorem readString_quote (s : String) (rest : List Char) :
    ∃ cs, quote s ++ rest = '"' :: cs ∧ readString cs = some (s, rest) := by
  refine ⟨escapes s.toList ++ '"' :: rest, by simp [quote], ?_⟩
  have hlength := length_le_escapes s.toList
  rw [readString, readChars_escapes rest (by rw [List.length_append]; omega)]
  simp

/-! ### ASCII -/

def isAscii (c : Char) : Bool := c.toNat < 128

theorem isAscii_digitChar (k : ℕ) : isAscii (Nat.digitChar (k % 16)) = true := by
  have hall : ∀ d < 16, isAscii (Nat.digitChar d) = true := by decide
  exact hall _ (Nat.mod_lt k (by decide))

theorem isAscii_hexEscape (n : ℕ) : ∀ c ∈ hexEscape n, isAscii c = true := by
  intro c hc
  simp only [hexEscape, List.mem_cons, List.not_mem_nil, or_false] at hc
  obtain rfl | rfl | rfl | rfl | rfl | rfl := hc
  · decide
  · decide
  · exact isAscii_digitChar _
  · exact isAscii_digitChar _
  · exact isAscii_digitChar _
  · exact isAscii_digitChar _

theorem isAscii_escape (c : Char) : ∀ d ∈ escape c, isAscii d = true := by
  unfold escape
  cases hshort : shortEscape c with
  | some letter =>
    have hletter : isAscii letter = true := by
      unfold shortEscape at hshort
      split at hshort
      case h_8 => cases hshort
      all_goals
        obtain rfl := Option.some.inj hshort
        rfl
    intro d hd
    obtain rfl | rfl : d = '\\' ∨ d = letter := by simpa using hd
    · rfl
    · exact hletter
  | none =>
    simp only []
    split_ifs with hplain hsmall
    · intro d hd
      obtain rfl := List.mem_singleton.mp hd
      have hle : d.toNat ≤ 126 := hplain.2
      simp only [isAscii, decide_eq_true_eq]
      omega
    · exact isAscii_hexEscape _
    · intro d hd
      obtain hd | hd := List.mem_append.mp hd
      · exact isAscii_hexEscape _ d hd
      · exact isAscii_hexEscape _ d hd

theorem isAscii_quote (s : String) : ∀ c ∈ quote s, isAscii c = true := by
  intro c hc
  have hcases : c = '"' ∨ c ∈ escapes s.toList := by
    simp only [quote, List.mem_cons, List.mem_append, List.not_mem_nil, or_false] at hc
    tauto
  obtain rfl | hc := hcases
  · rfl
  · obtain ⟨d, -, hd⟩ := List.mem_flatMap.mp hc
    exact isAscii_escape d c hd

end Selfevals.Lib.JsonStrings
