import Mathlib.Tactic

/-!
# Bytes, texts and digests

Bytes are a list; `utf8` writes a text as bytes and `decodeUtf8` reads it back. A `Digest` is what a
hash function of 256 bits comes to.
-/

namespace Selfevals.Lib.Encodings

/-- `bytes`. -/
abbrev Bytes := List UInt8

/-- `s.encode("utf-8")`. -/
def utf8 (s : String) : Bytes := s.toByteArray.data.toList

/-- `bytes.decode("utf-8")`; `none` for a `UnicodeDecodeError`. -/
def decodeUtf8 (bs : Bytes) : Option String := String.fromUTF8? ⟨bs.toArray⟩

@[simp] theorem decodeUtf8_utf8 (s : String) : decodeUtf8 (utf8 s) = some s := by
  have hbytes : (⟨(utf8 s).toArray⟩ : ByteArray) = s.toByteArray := by simp [utf8]
  rw [decodeUtf8, hbytes, String.fromUTF8?, dif_pos s.isValidUTF8]
  rfl

theorem utf8_injective : Function.Injective utf8 :=
  Function.LeftInverse.injective (g := fun bs => (decodeUtf8 bs).getD "") fun s => by simp

theorem length_utf8 (s : String) : (utf8 s).length = (s.toList.map Char.utf8Size).sum := by
  obtain ⟨cs, rfl⟩ : ∃ cs, s = String.ofList cs := ⟨s.toList, String.ofList_toList.symm⟩
  have hbytes : (String.ofList cs).toByteArray = cs.utf8Encode := by simp
  rw [String.toList_ofList, utf8, hbytes, List.utf8Encode]
  simp [List.length_flatMap]

theorem length_le_length_utf8 (s : String) : s.toList.length ≤ (utf8 s).length := by
  have hsum := List.card_nsmul_le_sum (s.toList.map Char.utf8Size) 1 fun n hn => by
    obtain ⟨c, -, rfl⟩ := List.mem_map.mp hn
    exact c.utf8Size_pos
  rw [length_utf8]
  simpa using hsum

theorem length_utf8_of_ascii {cs : List Char} (h : ∀ c ∈ cs, c.toNat < 128) :
    (utf8 (String.ofList cs)).length = cs.length := by
  have hone : cs.map Char.utf8Size = cs.map fun _ => 1 :=
    List.map_congr_left fun c hc => Char.utf8Size_eq_one_iff.mpr (Nat.le_of_lt_succ (h c hc))
  rw [length_utf8, String.toList_ofList, hone]
  simp

/-- `[0-9a-f]`. -/
def isHexChar (c : Char) : Bool := c.isDigit || ('a' ≤ c && c ≤ 'f')

/-- What SHA-256 comes to, in hex. -/
@[ext] structure Digest where
  hex : String
  length_hex : hex.toList.length = 64
  hex_chars : ∀ c ∈ hex.toList, isHexChar c = true

theorem toNat_of_isHexChar {c : Char} (h : isHexChar c = true) :
    47 < c.toNat ∧ c.toNat < 103 := by
  simp only [isHexChar, Char.isDigit, Bool.or_eq_true, Bool.and_eq_true, decide_eq_true_eq,
    ge_iff_le, Char.le_def, UInt32.le_iff_toNat_le] at h
  simp only [Char.toNat]
  have h0 : ('0' : Char).val.toNat = 48 := rfl
  have h9 : ('9' : Char).val.toNat = 57 := rfl
  have ha : ('a' : Char).val.toNat = 97 := rfl
  have hf : ('f' : Char).val.toNat = 102 := rfl
  omega

end Selfevals.Lib.Encodings
