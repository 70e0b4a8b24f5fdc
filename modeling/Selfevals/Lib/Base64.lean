import Mathlib.Tactic

/-!
# Base64 for URLs

`urlsafeEncode` and `urlsafeDecode` are those of Python's `base64`, on characters and bytes. The
decoder skips what is not of the alphabet, and stops at the padding of a group.
-/

namespace Selfevals.Lib.Base64

/-- `A` to `Z`, `a` to `z`, `0` to `9`, `-` and `_`. -/
def encodeChar (n : ℕ) : Char :=
  if n < 26 then Char.ofNat (65 + n)
  else if n < 52 then Char.ofNat (71 + n)
  else if n < 62 then Char.ofNat (n - 4)
  else if n = 62 then '-' else '_'

/-- The six bits of a character; those of the other alphabet count as well. -/
def decodeChar (c : Char) : Option ℕ :=
  if 'A' ≤ c ∧ c ≤ 'Z' then some (c.toNat - 65)
  else if 'a' ≤ c ∧ c ≤ 'z' then some (c.toNat - 71)
  else if '0' ≤ c ∧ c ≤ '9' then some (c.toNat + 4)
  else if c = '-' ∨ c = '+' then some 62
  else if c = '_' ∨ c = '/' then some 63
  else none

/-- Three bytes come to four characters; padding fills the last group. -/
def encode : List UInt8 → List Char
  | a :: b :: c :: rest =>
    [encodeChar (a.toNat / 4), encodeChar (a.toNat % 4 * 16 + b.toNat / 16),
      encodeChar (b.toNat % 16 * 4 + c.toNat / 64), encodeChar (c.toNat % 64)] ++ encode rest
  | [a, b] =>
    [encodeChar (a.toNat / 4), encodeChar (a.toNat % 4 * 16 + b.toNat / 16),
      encodeChar (b.toNat % 16 * 4), '=']
  | [a] => [encodeChar (a.toNat / 4), encodeChar (a.toNat % 4 * 16), '=', '=']
  | [] => []

/-- The bytes of the rest, when `quad` characters of a group have been read and the bits `left` of
the last of them are still to be used. -/
def decodeFrom (quad left pads : ℕ) : List Char → Option (List UInt8)
  | [] => if quad = 0 then some [] else none
  | c :: cs =>
    if c = '=' then
      if 2 ≤ quad then
        if 4 ≤ quad + (pads + 1) then some [] else decodeFrom quad left (pads + 1) cs
      else decodeFrom quad left pads cs
    else
      match decodeChar c with
      | none => decodeFrom quad left pads cs
      | some n =>
        match quad with
        | 0 => decodeFrom 1 n 0 cs
        | 1 => (decodeFrom 2 (n % 16) 0 cs).map (UInt8.ofNat (left * 4 + n / 16) :: ·)
        | 2 => (decodeFrom 3 (n % 4) 0 cs).map (UInt8.ofNat (left * 16 + n / 4) :: ·)
        | _ => (decodeFrom 0 0 0 cs).map (UInt8.ofNat (left * 64 + n) :: ·)

/-- `urlsafe_b64decode`; `none` where it raises. -/
def decode (cs : List Char) : Option (List UInt8) :=
  if cs.all fun c => c.toNat < 128 then decodeFrom 0 0 0 cs else none

theorem encodeChar_spec : ∀ n < 64, decodeChar (encodeChar n) = some n ∧ encodeChar n ≠ '=' ∧
    encodeChar n ≠ '.' ∧ (encodeChar n).toNat < 128 := by
  decide +kernel

section Decode
variable {quad left pads n : ℕ} {cs : List Char}

theorem decodeFrom_encodeChar (h : n < 64) :
    decodeFrom quad left pads (encodeChar n :: cs) =
      match quad with
      | 0 => decodeFrom 1 n 0 cs
      | 1 => (decodeFrom 2 (n % 16) 0 cs).map (UInt8.ofNat (left * 4 + n / 16) :: ·)
      | 2 => (decodeFrom 3 (n % 4) 0 cs).map (UInt8.ofNat (left * 16 + n / 4) :: ·)
      | _ => (decodeFrom 0 0 0 cs).map (UInt8.ofNat (left * 64 + n) :: ·) := by
  obtain ⟨hdecode, hpad, -⟩ := encodeChar_spec n h
  simp only [decodeFrom, hpad, if_false, hdecode]

theorem decodeFrom_zero (h : n < 64) :
    decodeFrom 0 left pads (encodeChar n :: cs) = decodeFrom 1 n 0 cs :=
  decodeFrom_encodeChar h

theorem decodeFrom_one (h : n < 64) : decodeFrom 1 left pads (encodeChar n :: cs) =
    (decodeFrom 2 (n % 16) 0 cs).map (UInt8.ofNat (left * 4 + n / 16) :: ·) :=
  decodeFrom_encodeChar h

theorem decodeFrom_two (h : n < 64) : decodeFrom 2 left pads (encodeChar n :: cs) =
    (decodeFrom 3 (n % 4) 0 cs).map (UInt8.ofNat (left * 16 + n / 4) :: ·) :=
  decodeFrom_encodeChar h

theorem decodeFrom_three (h : n < 64) : decodeFrom 3 left pads (encodeChar n :: cs) =
    (decodeFrom 0 0 0 cs).map (UInt8.ofNat (left * 64 + n) :: ·) :=
  decodeFrom_encodeChar h

end Decode

/-- The characters of an encoding, without its padding. -/
def unpadded (cs : List Char) : List Char := (cs.reverse.dropWhile (· == '=')).reverse

/-- The padding that a text of this length lacks. -/
def padding (length : ℕ) : List Char := List.replicate ((4 - length % 4) % 4) '='

theorem unpadded_append {cs : List Char} (h : ∀ c ∈ cs, c ≠ '=') (k : ℕ) :
    unpadded (cs ++ List.replicate k '=') = cs := by
  have hpads : ∀ c ∈ List.replicate k '=', (c == '=') = true := fun c hc => by
    simp [List.eq_of_mem_replicate hc]
  have hkeep : cs.reverse.dropWhile (· == '=') = cs.reverse := by
    cases hcs : cs.reverse with
    | nil => rfl
    | cons c rest =>
      have hc : c ≠ '=' := h c (List.mem_reverse.mp (by simp [hcs]))
      exact List.dropWhile_cons_of_neg (by simpa using hc)
  rw [unpadded, List.reverse_append, List.reverse_replicate, List.dropWhile_append_of_pos hpads,
    hkeep,
    List.reverse_reverse]

theorem encode_eq (bs : List UInt8) : ∃ cs, encode bs = cs ++ padding cs.length ∧
    ∀ c ∈ cs, c ≠ '=' ∧ c ≠ '.' ∧ c.toNat < 128 := by
  have hchar : ∀ n < 64, encodeChar n ≠ '=' ∧ encodeChar n ≠ '.' ∧ (encodeChar n).toNat < 128 :=
    fun n hn => (encodeChar_spec n hn).2
  induction bs using encode.induct with
  | case1 a b c rest ih =>
    obtain ⟨cs, heq, hcs⟩ := ih
    have ha := a.toNat_lt
    have hb := b.toNat_lt
    have hc := c.toNat_lt
    have hpad : padding (cs.length + 4) = padding cs.length := by simp [padding]
    refine ⟨encodeChar (a.toNat / 4) :: encodeChar (a.toNat % 4 * 16 + b.toNat / 16) ::
      encodeChar (b.toNat % 16 * 4 + c.toNat / 64) :: encodeChar (c.toNat % 64) :: cs, ?_, ?_⟩
    · rw [encode, heq, ← hpad]
      rfl
    simp only [List.forall_mem_cons]
    exact ⟨hchar _ (by omega), hchar _ (by omega), hchar _ (by omega), hchar _ (by omega), hcs⟩
  | case2 a b =>
    have ha := a.toNat_lt
    have hb := b.toNat_lt
    refine ⟨[encodeChar (a.toNat / 4), encodeChar (a.toNat % 4 * 16 + b.toNat / 16),
      encodeChar (b.toNat % 16 * 4)], rfl, ?_⟩
    simp only [List.forall_mem_cons]
    exact ⟨hchar _ (by omega), hchar _ (by omega), hchar _ (by omega), by simp⟩
  | case3 a =>
    have ha := a.toNat_lt
    refine ⟨[encodeChar (a.toNat / 4), encodeChar (a.toNat % 4 * 16)], rfl, ?_⟩
    simp only [List.forall_mem_cons]
    exact ⟨hchar _ (by omega), hchar _ (by omega), by simp⟩
  | case4 => exact ⟨[], rfl, by simp⟩

theorem ofNat_eq {n : ℕ} {b : UInt8} (h : n = b.toNat) : UInt8.ofNat n = b := by
  rw [h, UInt8.ofNat_toNat]

/-- **What was encoded is decoded again.** -/
theorem decodeFrom_encode (bs : List UInt8) (left pads : ℕ) :
    decodeFrom 0 left pads (encode bs) = some bs := by
  induction bs using encode.induct generalizing left pads with
  | case1 a b c rest ih =>
    have ha := a.toNat_lt
    have hb := b.toNat_lt
    have hc := c.toNat_lt
    simp only [encode, List.cons_append, List.nil_append]
    rw [decodeFrom_zero (by omega), decodeFrom_one (by omega), decodeFrom_two (by omega),
      decodeFrom_three (by omega), ih, Option.map_some, Option.map_some, Option.map_some,
      ofNat_eq (b := a) (by omega), ofNat_eq (b := b) (by omega), ofNat_eq (b := c) (by omega)]
  | case2 a b =>
    have ha := a.toNat_lt
    have hb := b.toNat_lt
    have hend : decodeFrom 3 (b.toNat % 16 * 4 % 4) 0 ['='] = some [] := by simp [decodeFrom]
    rw [encode, decodeFrom_zero
      (by omega), decodeFrom_one (by omega), decodeFrom_two (by omega), hend,
      Option.map_some, Option.map_some, ofNat_eq (b := a) (by omega), ofNat_eq (b := b) (by omega)]
  | case3 a =>
    have ha := a.toNat_lt
    have hend : decodeFrom 2 (a.toNat % 4 * 16 % 16) 0 ['=', '='] = some [] := by simp [decodeFrom]
    rw [encode, decodeFrom_zero (by omega), decodeFrom_one (by omega), hend, Option.map_some,
      ofNat_eq (b := a) (by omega)]
  | case4 => rfl

theorem unpadded_encode_ne (bs : List UInt8) :
    ∀ c ∈ unpadded (encode bs), c ≠ '.' ∧ c.toNat < 128 := by
  obtain ⟨cs, heq, hcs⟩ := encode_eq bs
  rw [heq, padding, unpadded_append fun c hc => (hcs c hc).1]
  exact fun c hc => (hcs c hc).2

/-- **What was encoded is decoded again** when its padding is put back. -/
theorem decode_encode (bs : List UInt8) :
    decode (unpadded (encode bs) ++ padding (unpadded (encode bs)).length) = some bs := by
  obtain ⟨cs, heq, hcs⟩ := encode_eq bs
  have hunpadded : unpadded (encode bs) = cs := by
    rw [heq, padding, unpadded_append fun c hc => (hcs c hc).1]
  have hascii : ((encode bs).all fun c => decide (c.toNat < 128)) = true := by
    rw [heq, List.all_append, Bool.and_eq_true, List.all_eq_true, List.all_eq_true]
    refine ⟨fun c hc => by simpa using (hcs c hc).2.2, fun c hc => ?_⟩
    rw [List.eq_of_mem_replicate hc]
    decide
  rw [hunpadded, ← heq, decode, if_pos hascii, decodeFrom_encode]

end Selfevals.Lib.Base64
