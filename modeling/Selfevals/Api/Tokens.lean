import Selfevals.Lib.Base64
import Selfevals.Lib.Encodings
import Selfevals.Lib.PyInt
import Selfevals.Lib.PyStr
import Selfevals.Lib.Result

/-!
# Session tokens

A token is `v2.<payload>.<signature>`, and its payload encodes `<user_id>|<expires_at>`. One of the
format before was `<user_id>.<expires_at>.<signature>`. Both are signed with one secret, and are
told apart by how they begin.

* `verifyToken_issued`: what was issued is accepted through the second of its expiry, and no longer;
-/

namespace Selfevals.Api.Tokens

open Lib.Encodings Lib.Base64 Lib.PyInt Lib.PyStr Lib.Result

/-- `_SEPARATOR`. -/
def separator : Char := '.'
def fieldSeparator : Char := '|'
/-- `_VERSION`. -/
def version : String := "v2"

/-- A `TokenError`, or what the functions below it raise of their own. -/
inductive Error
  | token (text : String)
  | value
  | unicodeEncode
  | type
  deriving DecidableEq

/-- Who a token is from, and when it expires. -/
@[ext] structure VerifiedToken where
  userId : String
  expiresAt : ℤ
  deriving DecidableEq

/-- `int(time.time())`. -/
def wholeSeconds (now : ℚ) : ℤ := now.num.tdiv now.den

/-- `f"{n}"`. -/
def str (n : ℤ) : Except Error String :=
  match intStr n with
  | none => .error .value
  | some text => .ok text

def isAscii (s : String) : Bool := s.toList.all fun c => c.toNat < 128

/-- `_b64encode`: without padding. -/
def b64encode (raw : String) : String := String.ofList (unpadded (encode (utf8 raw)))

/-- `_b64decode`. -/
def b64decode (encoded : String) : Except Error String :=
  match (decode (encoded.toList ++ padding encoded.toList.length)).bind decodeUtf8 with
  | none => .error (.token "malformed token")
  | some raw => .ok raw

/-- `hmac.compare_digest` of two texts. -/
def compareDigest (a b : String) : Except Error Bool :=
  if isAscii a && isAscii b then .ok (a == b) else .error .type

section Server
variable (hmac : Bytes → Bytes → Digest) (authSecret : Option String)

/-- `_secret`, of what the variable `SELFEVALS_AUTH_SECRET` holds. -/
def secret : Except Error Bytes :=
  let secret := strip (authSecret.getD "")
  if secret = "" then .error (.token "SELFEVALS_AUTH_SECRET is not configured") else .ok
    (utf8 secret)

/-- `_sign`: HMAC-SHA256 of the payload. -/
def sign (payload : String) : Except Error Digest := do
  let key ← secret authSecret
  if isAscii payload then .ok (hmac key (utf8 payload)) else .error .unicodeEncode

/-- `_sign_v1`. -/
def signV1 (userId : String) (expiresAt : ℤ) : Except Error Digest := do
  let key ← secret authSecret
  let text ← str expiresAt
  return hmac key (utf8 (joined separator userId text))

/-- `issue_token_with_expiry`. -/
def issueTokenWithExpiry (now : ℚ) (userId : String) (ttlSeconds : ℤ) : Except Error (String × ℤ) :=
  if userId = "" then .error (.token "user_id is required")
  else do
    let expiresAt := wholeSeconds now + ttlSeconds
    let text ← str expiresAt
    let payload := b64encode (joined fieldSeparator userId text)
    let signature ← sign hmac authSecret payload
    return (joined separator version (joined separator payload signature.hex), expiresAt)

/-- `issue_token`. -/
def issueToken (now : ℚ) (userId : String) (ttlSeconds : ℤ) : Except Error String :=
  (issueTokenWithExpiry hmac authSecret now userId ttlSeconds).map Prod.fst

/-- The end of both verifications. -/
def unlessExpired (now : ℚ) (verified : VerifiedToken) : Except Error VerifiedToken :=
  if verified.expiresAt < wholeSeconds now then .error (.token "token expired") else .ok verified

/-- `_verify_v1`: tokens of the old form. -/
def verifyV1 (now : ℚ) (token : String) : Except Error VerifiedToken :=
  match splitOn separator token with
  | [userId, expiresAtRaw, signature] =>
    if userId = "" then .error (.token "malformed token")
    else
      match parseInt expiresAtRaw with
      | none => .error (.token "malformed token")
      | some expiresAt => do
        let tag ← signV1 hmac authSecret userId expiresAt
        if !(← compareDigest tag.hex signature) then .error (.token "invalid signature")
        else unlessExpired now ⟨userId, expiresAt⟩
  | _ => .error (.token "malformed token")

/-- The token is of the current format. -/
def isCurrent (token : String) : Bool :=
  (version ++ String.singleton separator).toList.isPrefixOf token.toList

/-- `verify_token`. -/
def verifyToken (now : ℚ) (token : String) : Except Error VerifiedToken :=
  if !isCurrent token then verifyV1 hmac authSecret now token
  else
    match splitOn separator token with
    | [_, payload, signature] => do
      let tag ← sign hmac authSecret payload
      if !(← compareDigest tag.hex signature) then .error (.token "invalid signature")
      else
        let decoded ← b64decode payload
        match rpartition fieldSeparator decoded with
        | none => .error (.token "malformed token")
        | some (userId, expiresAtRaw) =>
          if userId = "" then .error (.token "malformed token")
          else
            match parseInt expiresAtRaw with
            | none => .error (.token "malformed token")
            | some expiresAt => unlessExpired now ⟨userId, expiresAt⟩
    | _ => .error (.token "malformed token")

end Server

/-! ### What was issued -/

/-- The identities and expiries that the server has signed, in either format. -/
structure Issued where
  current : Set VerifiedToken
  legacy : Set VerifiedToken

/-- What it has signed for them. -/
def Issued.messages (issued : Issued) : Set Bytes :=
  {message | ∃ t ∈ issued.current, ∃ text, intStr t.expiresAt = some text ∧
    message = utf8 (b64encode (joined fieldSeparator t.userId text))} ∪
  {message | ∃ t ∈ issued.legacy, ∃ text, intStr t.expiresAt = some text ∧
    message = utf8 (joined separator t.userId text)}

/-- The tag of a token. -/
def signatureOf (token : String) : String := (splitOn separator token).getLastD ""

/-- The tag of the token verifies for a message only if it was issued for that message. -/
def Unforged (hmac : Bytes → Bytes → Digest) (key : Bytes) (issued : Issued) (token : String) :
    Prop :=
  ∀ message, (hmac key message).hex = signatureOf token → message ∈ issued.messages

/-! ### The texts -/

theorem mem_b64encode {raw : String} {c : Char} (h : c ∈ (b64encode raw).toList) :
    c ≠ '.' ∧ c.toNat < 128 := by
  rw [b64encode, String.toList_ofList] at h
  exact unpadded_encode_ne _ c h

theorem not_mem_b64encode (raw : String) : separator ∉ (b64encode raw).toList :=
  fun h => (mem_b64encode h).1 rfl

theorem isAscii_b64encode (raw : String) : isAscii (b64encode raw) = true :=
  List.all_eq_true.mpr fun _ hc => decide_eq_true (mem_b64encode hc).2

@[simp] theorem b64decode_b64encode (raw : String) : b64decode (b64encode raw) = .ok raw := by
  rw [b64decode, b64encode, String.toList_ofList, decode_encode, Option.bind_some, decodeUtf8_utf8]

theorem isAscii_hex (g : Digest) : isAscii g.hex = true := by
  refine List.all_eq_true.mpr fun c hc => ?_
  have hbound := (toNat_of_isHexChar (g.hex_chars c hc)).2
  simp only [decide_eq_true_eq]
  omega

theorem not_mem_hex (g : Digest) : separator ∉ g.hex.toList := by
  intro hmem
  have hbound := (toNat_of_isHexChar (g.hex_chars _ hmem)).1
  revert hbound
  decide

theorem compareDigest_eq_ok_true {g : Digest} {signature : String} :
    compareDigest g.hex signature = .ok true ↔ signature = g.hex := by
  unfold compareDigest
  split_ifs with hascii
  · rw [Except.ok.injEq, beq_iff_eq]
    exact eq_comm
  · refine iff_of_false (by simp) ?_
    rintro rfl
    exact hascii (by simp [isAscii_hex])

theorem str_eq_ok {n : ℤ} {text : String} : str n = .ok text ↔ intStr n = some text := by
  unfold str
  cases intStr n <;> simp

theorem not_mem_separators {n : ℤ} {text : String} (h : intStr n = some text) :
    separator ∉ text.toList ∧ fieldSeparator ∉ text.toList :=
  not_mem_of_intStr h

theorem fields_injective {sep : Char} {userId userId' text text' : String} {n n' : ℤ}
    (htext : intStr n = some text) (htext' : intStr n' = some text')
    (hsep : sep = separator ∨ sep = fieldSeparator)
    (h : joined sep userId text = joined sep userId' text') :
    userId = userId' ∧ n = n' := by
  have hmem : sep ∉ text.toList ∧ sep ∉ text'.toList := by
    obtain rfl | rfl := hsep
    · exact ⟨(not_mem_separators htext).1, (not_mem_separators htext').1⟩
    · exact ⟨(not_mem_separators htext).2, (not_mem_separators htext').2⟩
  have hparts := congrArg (rpartition sep) h
  rw [rpartition_joined hmem.1, rpartition_joined hmem.2, Option.some.injEq,
    Prod.mk.injEq] at hparts
  obtain ⟨huser, rfl⟩ := hparts
  have hn := (parseInt_of_intStr htext).symm.trans (parseInt_of_intStr htext')
  exact ⟨huser, Option.some.inj hn⟩

/-! ### Issuing, and verifying what was issued -/

section Laws
variable {hmac : Bytes → Bytes → Digest} {authSecret : Option String} {key : Bytes}

theorem splitOn_token {payload : String} (hpayload : separator ∉ payload.toList) (g : Digest) :
    splitOn separator (joined separator version (joined separator payload g.hex)) =
      [version, payload, g.hex] := by
  rw [splitOn_joined (by decide), splitOn_joined hpayload, splitOn_eq_singleton (not_mem_hex g)]

theorem sign_b64encode (hsecret : secret authSecret = .ok key) (raw : String) :
    sign hmac authSecret (b64encode raw) = .ok (hmac key (utf8 (b64encode raw))) := by
  rw [sign, hsecret]
  simp [bind, Except.bind, isAscii_b64encode]

/-- The token that a user id and an expiry come to. -/
def tokenOf (hmac : Bytes → Bytes → Digest) (key : Bytes) (userId text : String) : String :=
  let payload := b64encode (joined fieldSeparator userId text)
  joined separator version (joined separator payload (hmac key (utf8 payload)).hex)

theorem issueTokenWithExpiry_eq (hsecret : secret authSecret = .ok key) {now : ℚ}
    {userId text : String}
    {ttlSeconds : ℤ} (huser : userId ≠ "") (htext : intStr (wholeSeconds now + ttlSeconds) =
      some text) :
    issueTokenWithExpiry hmac authSecret now userId ttlSeconds =
      .ok (tokenOf hmac key userId text, wholeSeconds now + ttlSeconds) := by
  have hstr := str_eq_ok.mpr htext
  simp only [issueTokenWithExpiry, if_neg huser, hstr, bind, Except.bind, sign_b64encode hsecret]
  rfl

theorem isCurrent_tokenOf (userId text : String) :
    isCurrent (tokenOf hmac key userId text) = true := by
  rw [isCurrent, List.isPrefixOf_iff_prefix, tokenOf, toList_joined, String.toList_append,
    ← List.singleton_append, ← List.append_assoc]
  exact List.prefix_append _ _

/-- **What was issued is accepted** through the second of its expiry. -/
theorem verifyToken_tokenOf (hsecret : secret authSecret = .ok key) (now : ℚ) {userId text : String}
    {expiresAt : ℤ} (huser : userId ≠ "") (htext : intStr expiresAt = some text) :
    verifyToken hmac authSecret now (tokenOf hmac key userId text) =
      unlessExpired now ⟨userId, expiresAt⟩ := by
  have hcompare (g : Digest) : compareDigest g.hex g.hex = .ok true :=
    compareDigest_eq_ok_true.mpr rfl
  have hsplit := splitOn_token (not_mem_b64encode (joined fieldSeparator userId text))
    (hmac key (utf8 (b64encode (joined fieldSeparator userId text))))
  rw [verifyToken, isCurrent_tokenOf, tokenOf, hsplit]
  simp [bind, Except.bind, sign_b64encode hsecret, hcompare, huser,
    rpartition_joined (not_mem_separators htext).2, parseInt_of_intStr htext]

/-! ### What is accepted -/

theorem Issued.mem_messages_payload {issued : Issued} {payload : String}
    (hpayload : separator ∉ payload.toList) (h : utf8 payload ∈ issued.messages) :
    ∃ t ∈ issued.current, ∃ text, intStr t.expiresAt = some text ∧
      payload = b64encode (joined fieldSeparator t.userId text) := by
  obtain ⟨t, ht, text, htext, heq⟩ | ⟨t, ht, text, htext, heq⟩ := h
  · exact ⟨t, ht, text, htext, utf8_injective heq⟩
  · refine absurd ?_ hpayload
    rw [utf8_injective heq]
    simp

theorem Issued.mem_messages_fields {issued : Issued} {message : String}
    (hmessage : separator ∈ message.toList) (h : utf8 message ∈ issued.messages) :
    ∃ t ∈ issued.legacy, ∃ text, intStr t.expiresAt = some text ∧
      message = joined separator t.userId text := by
  obtain ⟨t, ht, text, htext, heq⟩ | ⟨t, ht, text, htext, heq⟩ := h
  · refine absurd hmessage ?_
    rw [utf8_injective heq]
    exact not_mem_b64encode _
  · exact ⟨t, ht, text, htext, utf8_injective heq⟩

theorem unlessExpired_eq_ok {now : ℚ} {verified v : VerifiedToken} :
    unlessExpired now verified = .ok v ↔ verified = v ∧ wholeSeconds now ≤ v.expiresAt := by
  unfold unlessExpired
  split_ifs with hlt
  · refine iff_of_false (by simp) ?_
    rintro ⟨rfl, hle⟩
    omega
  · simp only [Except.ok.injEq]
    exact ⟨fun heq => ⟨heq, by rw [← heq]; omega⟩, fun h => h.1⟩

theorem compareDigest_bind_eq_ok {g : Digest} {signature : String}
    {rest : Except Error VerifiedToken}
    {v : VerifiedToken}
    (h : (do
      if !(← compareDigest g.hex signature) then .error (.token "invalid signature") else rest) =
        .ok v) :
    signature = g.hex ∧ rest = .ok v := by
  obtain ⟨same, hsame, h⟩ := bind_eq_ok.mp h
  cases same with
  | false => cases h
  | true => exact ⟨compareDigest_eq_ok_true.mp hsame, h⟩

theorem verifyV1_eq_ok (hsecret : secret authSecret = .ok key) {now : ℚ} {token : String}
    {v : VerifiedToken} (h : verifyV1 hmac authSecret now token = .ok v) :
    ∃ text, intStr v.expiresAt = some text ∧ wholeSeconds now ≤ v.expiresAt ∧
      (hmac key (utf8 (joined separator v.userId text))).hex = signatureOf token := by
  unfold verifyV1 at h
  split at h
  · rename_i userId expiresAtRaw signature hsplit
    split_ifs at h with huser
    split at h
    · cases h
    · rename_i expiresAt hraw
      obtain ⟨tag, htag, h⟩ := bind_eq_ok.mp h
      obtain ⟨hsame, h⟩ := compareDigest_bind_eq_ok h
      obtain ⟨rfl, hexpiry⟩ := unlessExpired_eq_ok.mp h
      rw [signV1, hsecret] at htag
      obtain ⟨_, hkey, htag⟩ := bind_eq_ok.mp htag
      obtain rfl := Except.ok.inj hkey
      obtain ⟨text, htext, htag⟩ := bind_eq_ok.mp htag
      refine ⟨text, str_eq_ok.mp htext, hexpiry, ?_⟩
      rw [Except.ok.inj htag, ← hsame, signatureOf, hsplit]
      rfl
  · cases h

theorem verifyToken_eq_ok (hsecret : secret authSecret = .ok key) {now : ℚ} {token : String}
    {v : VerifiedToken} (hcurrent : isCurrent token = true)
    (h : verifyToken hmac authSecret now token = .ok v) :
    ∃ payload raw text, separator ∉ payload.toList ∧ b64decode payload = .ok raw ∧
      rpartition fieldSeparator raw = some (v.userId, text) ∧ parseInt text = some v.expiresAt ∧
      wholeSeconds now ≤ v.expiresAt ∧ (hmac key (utf8 payload)).hex = signatureOf token := by
  unfold verifyToken at h
  rw [hcurrent] at h
  simp only [Bool.not_true, Bool.false_eq_true, if_false] at h
  split at h
  · rename_i first payload signature hsplit
    obtain ⟨tag, htag, h⟩ := bind_eq_ok.mp h
    obtain ⟨hsame, h⟩ := compareDigest_bind_eq_ok h
    obtain ⟨raw, hraw, h⟩ := bind_eq_ok.mp h
    split at h
    · cases h
    · rename_i userId text hparts
      split_ifs at h with huser
      split at h
      · cases h
      · rename_i expiresAt htext
        obtain ⟨rfl, hexpiry⟩ := unlessExpired_eq_ok.mp h
        rw [sign, hsecret] at htag
        have hpayload : separator ∉ payload.toList := not_mem_of_mem_splitOn (by rw [hsplit]; simp)
        refine ⟨payload, raw, text, hpayload, hraw, hparts, htext, hexpiry, ?_⟩
        simp only [bind, Except.bind] at htag
        split_ifs at htag with hascii
        rw [Except.ok.inj htag, ← hsame, signatureOf, hsplit]
        rfl
  · cases h

/-- **What is accepted was issued in its own format**, and is not expired. -/
theorem mem_of_verifyToken (hsecret : secret authSecret = .ok key) {issued : Issued} {now : ℚ}
    {token : String} {v : VerifiedToken} (hunforged : Unforged hmac key issued token)
    (h : verifyToken hmac authSecret now token = .ok v) :
    v ∈ (if isCurrent token then issued.current else issued.legacy) ∧
      wholeSeconds now ≤ v.expiresAt := by
  cases hcurrent : isCurrent token with
  | true =>
    obtain ⟨payload, raw, text, hpayload, hraw, hparts, htext, hexpiry, htag⟩ :=
      verifyToken_eq_ok hsecret hcurrent h
    obtain ⟨t, ht, text', htext', rfl⟩ := Issued.mem_messages_payload hpayload (hunforged _ htag)
    -- the fields that were signed are those that are read
    rw [b64decode_b64encode, Except.ok.injEq] at hraw
    rw [← hraw, rpartition_joined (not_mem_separators htext').2, Option.some.injEq,
      Prod.mk.injEq] at hparts
    obtain ⟨huser, rfl⟩ := hparts
    have hexpires := htext.symm.trans (parseInt_of_intStr htext')
    obtain rfl : v = t := VerifiedToken.ext huser.symm (Option.some.inj hexpires)
    exact ⟨by simpa using ht, hexpiry⟩
  | false =>
    have hlegacy : verifyV1 hmac authSecret now token = .ok v := by
      rw [verifyToken, hcurrent] at h
      exact h
    obtain ⟨text, htext, hexpiry, htag⟩ := verifyV1_eq_ok hsecret hlegacy
    obtain ⟨t, ht, text', htext', heq⟩ :=
      Issued.mem_messages_fields (by simp) (hunforged _ htag)
    obtain ⟨huser, hexpires⟩ := fields_injective htext htext' (.inl rfl) heq
    obtain rfl : v = t := VerifiedToken.ext huser hexpires
    exact ⟨by simpa using ht, hexpiry⟩

/-- **Session tokens.** A user id and an expiry that is written make a token that is accepted
through the second of the expiry and refused after it, and what is accepted in one format was issued
in that format. -/
theorem tokens_sound (hmac : Bytes → Bytes → Digest) (authSecret : Option String) (key : Bytes)
    (hsecret : secret authSecret = .ok key) :
    (∀ (now : ℚ) (userId text : String) (ttlSeconds : ℤ), userId ≠ "" →
      intStr (wholeSeconds now + ttlSeconds) = some text →
      ∃ token, issueToken hmac authSecret now userId ttlSeconds = .ok token ∧
        ∀ later, verifyToken hmac authSecret later token =
          if wholeSeconds later ≤ wholeSeconds now + ttlSeconds then
            .ok ⟨userId, wholeSeconds now + ttlSeconds⟩
          else .error (.token "token expired")) ∧
    ∀ (issued : Issued) (token : String) (now : ℚ) (v : VerifiedToken),
      Unforged hmac key issued token →
      verifyToken hmac authSecret now token = .ok v →
      v ∈ (if isCurrent token then issued.current else issued.legacy) ∧
        wholeSeconds now ≤ v.expiresAt := by
  refine ⟨fun now userId text ttlSeconds huser htext => ⟨tokenOf hmac key userId text, ?_, ?_⟩,
    fun issued token now v hunforged h => mem_of_verifyToken hsecret hunforged h⟩
  · rw [issueToken, issueTokenWithExpiry_eq hsecret huser htext]
    rfl
  · intro later
    rw [verifyToken_tokenOf hsecret later huser htext, unlessExpired]
    by_cases hlive : wholeSeconds later ≤ wholeSeconds now + ttlSeconds
    · rw [if_pos hlive, if_neg (not_lt.mpr hlive)]
    · rw [if_neg hlive, if_pos (not_le.mp hlive)]

end Laws

/-! ### Two tokens of the secret `s3cret` -/

def digestOfAlice : Digest where
  hex := "8c03b4ea2cfc0aebeea247ff9bdcb5eead5f6460ca8dc21704e7bf903bf34276"
  length_hex := by decide
  hex_chars := List.all_eq_true.mp (by decide)

def digestOfBob : Digest where
  hex := "d0cc1344e04bae33ed5df47af36809f4273a50ee19b02a2d1ba0e9c1cdc26871"
  length_hex := by decide
  hex_chars := List.all_eq_true.mp (by decide)

/-- The HMAC of a current token of `alice` and a legacy one of `bob`. -/
def hmacOfBoth (_ message : Bytes) : Digest :=
  if message = utf8 (b64encode "alice|1700000060") then digestOfAlice
  else if message = utf8 "bob.1700000060" then digestOfBob
  else ⟨String.ofList (List.replicate 64 '0'), by decide, List.all_eq_true.mp (by decide)⟩

theorem tokens_sound_both :
    (∃ token, issueToken hmacOfBoth (some "s3cret") 1700000000 "alice" 60 = .ok token ∧
      ∀ later, verifyToken hmacOfBoth (some "s3cret") later token =
        if wholeSeconds later ≤ wholeSeconds 1700000000 + 60 then
          .ok ⟨"alice", wholeSeconds 1700000000 + 60⟩
        else .error (.token "token expired")) ∧
    ∀ now v, verifyToken hmacOfBoth (some "s3cret") now
        ("bob.1700000060." ++ digestOfBob.hex) = .ok v →
      v ∈ ({⟨"bob", 1700000060⟩} : Set VerifiedToken) ∧ wholeSeconds now ≤ v.expiresAt := by
  have hsecret : secret (some "s3cret") = .ok (utf8 "s3cret") := by decide +kernel
  have hunforged : Unforged hmacOfBoth (utf8 "s3cret") ⟨∅, {⟨"bob", 1700000060⟩}⟩
      ("bob.1700000060." ++ digestOfBob.hex) := by
    intro message htag
    refine .inr ⟨⟨"bob", 1700000060⟩, rfl, "1700000060", by decide +kernel, ?_⟩
    rw [show signatureOf ("bob.1700000060." ++ digestOfBob.hex) =
      digestOfBob.hex by decide +kernel] at htag
    unfold hmacOfBoth at htag
    split_ifs at htag with halice hbob
    · exact absurd htag (by decide)
    · exact hbob
    · exact absurd htag (by decide)
  obtain ⟨hissue, haccept⟩ := tokens_sound hmacOfBoth (some "s3cret") (utf8 "s3cret") hsecret
  refine ⟨hissue 1700000000 "alice" "1700000060" 60
    (by decide) (by decide +kernel), fun now v h => ?_⟩
  exact haccept ⟨∅, {⟨"bob", 1700000060⟩}⟩ _ now v hunforged h

/-- **At the second of its expiry** a token is still accepted. -/
theorem not_rejected_at_expiry : ¬∀ (hmac : Bytes → Bytes → Digest) (authSecret : Option String)
    (issuedAt later : ℚ) (userId : String) (ttlSeconds : ℤ) (token : String) (expiresAt : ℤ),
    issueTokenWithExpiry hmac authSecret issuedAt userId ttlSeconds = .ok (token, expiresAt) →
    (expiresAt : ℚ) ≤ later → ∀ v, verifyToken hmac authSecret later token ≠ .ok v := by
  intro h
  have hsecret : secret (some "s3cret") = .ok (utf8 "s3cret") := by decide +kernel
  have htext : intStr (wholeSeconds 1700000000 + 60) = some "1700000060" := by decide +kernel
  have hexpires : wholeSeconds 1700000000 + 60 = 1700000060 := by decide +kernel
  have huser : ("alice" : String) ≠ "" := by decide
  have hissue : issueTokenWithExpiry hmacOfBoth (some "s3cret") 1700000000 "alice" 60 = _ :=
    issueTokenWithExpiry_eq hsecret huser htext
  refine h _ _ _ 1700000060 _ _ _ _ hissue (by rw [hexpires]; norm_num)
    ⟨"alice", wholeSeconds 1700000000 + 60⟩ ?_
  rw [verifyToken_tokenOf hsecret _ huser htext]
  decide +kernel

end Selfevals.Api.Tokens
