import Selfevals.Trace.PayloadRouting

/-!
# What a trace keeps of its payloads

`routePayload` gives a span the pointer, the hash and the inline text of a payload. The inline text
is cut at 4096 characters of `json.dumps(value)`; the router keeps what has at most 4096 bytes of
canonical JSON, which has no blanks. Between the two limits lie the values that are cut and not
stored.
-/

namespace Selfevals.Runner.RoutedPayloads

open Lib.CanonicalJson Lib.Encodings Lib.JsonEquality Lib.JsonNumbers Lib.JsonText Lib.JsonValue
  Storage.ObjectStore Trace.PayloadRouting

/-- What a span records of a payload. -/
structure Recorded where
  pointer : Option String
  hash : Option String
  inline : Option String
deriving DecidableEq, Repr

def inlinePayloadMaxChars : ℕ := 4096

section Routing
variable (floats : FloatText) (sha256 : Bytes → Digest) (root : Path)

/-- The text of a payload; `none` for a `ValueError`. -/
def textOf : Json → Option String
  | .str s => some s
  | v => (dumps floats .spaced v).map String.ofList

/-- The inline text, cut where it is too long. -/
def inlineOf (text : String) : String :=
  if text.toList.length ≤ inlinePayloadMaxChars then text
  else String.ofList (text.toList.take inlinePayloadMaxChars)

/-- `route_payload`. -/
def routePayload (router : Option PayloadRouter) (disk : Disk) (key : String) (value : Json) :
    Except Failure Recorded × Disk :=
  if value.isNull then (.ok { pointer := none, hash := none, inline := none }, disk)
  else
    match textOf floats value with
    | none => (.error .value, disk)
    | some text =>
      match router with
      | none => (.ok { pointer := none, hash := none, inline := some (inlineOf text) }, disk)
      | some router =>
        match routeValue floats sha256 root router disk key value with
        | (.error failure, disk) => (.error failure, disk)
        | (.ok routed, disk) =>
          (.ok {
            pointer := routed.pointer
            hash := some routed.contentHash
            inline := some (inlineOf text) }, disk)

/-! ### Runs -/

/-- A payload that a recorder routes, with a router of its own at the default threshold. -/
structure Payload where
  router : PayloadRouter
  proper : Proper router.workspaceId
  threshold : router.threshold = defaultInlineThresholdBytes
  key : String
  key_ne : key ≠ ""
  value : Json
  keyed : Keyed value

/-- What the payloads are routed to in turn, and what is in the store then. -/
def routeAll (disk : Disk) : List Payload → List (Except Failure Recorded) × Disk
  | [] => ([], disk)
  | p :: ps =>
    let (result, disk) := routePayload floats sha256 root (some p.router) disk p.key p.value
    let (results, disk) := routeAll disk ps
    (result :: results, disk)

/-- **A payload is recoverable**: its pointer leads to bytes that are read as it, or the inline text
is its text in full. -/
def Recoverable (disk : Disk) (value : Json) (result : Except Failure Recorded) : Prop :=
  ∃ recorded, result = .ok recorded ∧
    ((∃ pointer data, recorded.pointer = some pointer ∧ get sha256 root disk pointer = .ok data ∧
      Decodes floats value data) ∨
    ∃ text, textOf floats value = some text ∧ recorded.inline = some text)

/-- What a payload must meet: it is there, and it is a text, or its JSON takes more bytes than the
router inlines when it is written without blanks, or no more than are shown when it is written with
them. -/
def Fits (value : Json) : Prop :=
  value.isNull = false ∧ (isText value = true ∨ printable value = true ∧
    (defaultInlineThresholdBytes < size floats value ∨
      size floats value + separators value ≤ inlinePayloadMaxChars))

instance (value : Json) : Decidable (Fits floats value) :=
  inferInstanceAs (Decidable (_ ∧ (_ ∨ _ ∧ (_ ∨ _))))

/-- The hash that is recorded, if one is. -/
def hashIn (result : Except Failure Recorded) : Option String :=
  result.toOption.bind Recorded.hash

/-- What a payload came to, in a store that holds what was put. -/
inductive Outcome (s : History) (p : Payload) : Except Failure Recorded → Prop
  | absent (isNull : p.value.isNull = true) :
      Outcome s p (.ok { pointer := none, hash := none, inline := none })
  | raised (failure : Failure) (present : p.value.isNull = false)
      (unencoded : encode floats p.value = none) : Outcome s p (.error failure)
  | inlined {data : Bytes} {text : String} (present : p.value.isNull = false)
      (encoded : encode floats p.value = some data) (rendered : textOf floats p.value = some text)
      (small : data.length ≤ defaultInlineThresholdBytes) :
      Outcome s p (.ok {
        pointer := none
        hash := some (bytesHash sha256 data)
        inline := some (inlineOf text) })
  | stored {data : Bytes} {text : String} (present : p.value.isNull = false)
      (encoded : encode floats p.value = some data) (rendered : textOf floats p.value = some text)
      (large : defaultInlineThresholdBytes < data.length)
      (live : s.live (pointerTo p.router.workspaceId (hashOf (sha256 data))) = some data) :
      Outcome s p (.ok {
        pointer := some (pointerTo p.router.workspaceId (hashOf (sha256 data)))
        hash := some (bytesHash sha256 data)
        inline := some (inlineOf text) })

end Routing

/-! ### Texts -/

section Texts
variable {floats : FloatText} {v : Json} {text : String}

theorem textOf_of_not_isText (h : isText v = false) :
    textOf floats v = (dumps floats .spaced v).map String.ofList := by
  cases v with
  | str s => cases h
  | null | bool | int | float | arr | obj => rfl

theorem textOf_isSome_iff (floats : FloatText) (hv : Keyed v) :
    (textOf floats v).isSome = (encode floats v).isSome := by
  rw [encode_isSome_iff floats hv]
  cases htext : isText v with
  | true =>
    obtain ⟨s, rfl⟩ := exists_of_isText htext
    rfl
  | false =>
    rw [textOf_of_not_isText htext, Option.isSome_map, dumps, Bool.false_or]
    split_ifs with hprint
    · exact hprint.symm
    · exact (Bool.eq_false_iff.mpr hprint).symm

theorem inlineOf_eq_iff (text : String) :
    inlineOf text = text ↔ text.toList.length ≤ inlinePayloadMaxChars := by
  unfold inlineOf
  split_ifs with hle
  · exact iff_of_true rfl hle
  · refine iff_of_false (fun heq => ?_) hle
    have hlength := congrArg (fun t : String => t.toList.length) heq
    simp only [String.toList_ofList, List.length_take] at hlength
    omega

theorem length_textOf (hv : Keyed v) (htext : isText v = false)
    (h : textOf floats v = some text) :
    text.toList.length = size floats v + separators v := by
  rw [textOf_of_not_isText htext, Option.map_eq_some_iff] at h
  obtain ⟨cs, hdumps, rfl⟩ := h
  rw [String.toList_ofList, length_dumps floats .spaced hv hdumps, Style.blanks, Nat.one_mul]

end Texts

/-! ### One payload -/

section Payloads
variable {floats : FloatText} {sha256 : Bytes → Digest} {root : Path} {D : Set Bytes}
  {s s' : History} {p q : Payload} {result result' : Except Failure Recorded}

/-- What is live stays live. -/
def Extends (s s' : History) : Prop :=
  ∀ pointer data, s.live pointer = some data → s'.live pointer = some data

theorem Extends.trans {s'' : History} (h : Extends s s') (h' : Extends s' s'') : Extends s s'' :=
  fun pointer data hlive => h' pointer data (h pointer data hlive)

theorem Outcome.mono (h : Outcome floats sha256 s p result) (hext : Extends s s') :
    Outcome floats sha256 s' p result := by
  cases h with
  | absent isNull => exact .absent isNull
  | raised failure present unencoded => exact .raised failure present unencoded
  | inlined present encoded rendered small => exact .inlined present encoded rendered small
  | stored present encoded rendered large live =>
    exact .stored present encoded rendered large (hext _ _ live)

theorem get_of_live (hs : Inv sha256 root D s) {pointer : String} {data : Bytes}
    (h : s.live pointer = some data) : get sha256 root s.disk pointer = .ok data := by
  obtain ⟨-, workspaceId, hproper, rfl, -⟩ := hs.live pointer data h
  have hread := read_eq hs (pointerTo workspaceId (hashOf (sha256 data)))
  rw [parsePointer_pointerTo hproper.valid, Option.bind_some, h] at hread
  cases hget : get sha256 root s.disk (pointerTo workspaceId (hashOf (sha256 data))) with
  | error failure =>
    rw [hget] at hread
    cases hread
  | ok data' =>
    rw [hget] at hread
    exact congrArg Except.ok (Option.some.inj hread)

theorem put_extends (hs : Inv sha256 root D s) (hinj : Set.InjOn sha256 D)
    {workspaceId key : String} (hproper : Proper workspaceId) (hkey : key ≠ "") {data : Bytes}
    (hdata : data ∈ D) :
    ∃ s', put sha256 root s.disk workspaceId key data =
        (.ok (pointerTo workspaceId (hashOf (sha256 data))), s'.disk) ∧
      Inv sha256 root D s' ∧ Extends s s' ∧
      s'.live (pointerTo workspaceId (hashOf (sha256 data))) = some data := by
  obtain ⟨disk, hput, hwritten⟩ := put_proper hs hinj hproper hkey hdata
  refine ⟨⟨disk, Function.update s.live (pointerTo workspaceId (hashOf (sha256 data))) (some data)⟩,
    hput, inv_written hs hinj hproper hdata hwritten rfl, fun pointer data' hlive => ?_,
    Function.update_self _ _ _⟩
  by_cases hpointer : pointer = pointerTo workspaceId (hashOf (sha256 data))
  · -- one pointer, so one hash, so the same data
    obtain ⟨hdata', workspaceId', hproper', heq, -⟩ := hs.live pointer data' hlive
    rw [hpointer] at heq
    have hhash := (pointerTo_injective hproper.valid hproper'.valid heq).2
    obtain rfl : data = data' := hinj hdata hdata' (Digest.ext (hex_eq_of_hashOf_eq hhash))
    rw [hpointer]
    exact Function.update_self _ _ _
  · exact (Function.update_of_ne hpointer _ _).trans hlive

/-- **One payload is routed.** -/
theorem routePayload_spec (hs : Inv sha256 root D s) (hinj : Set.InjOn sha256 D)
    (hdata : ∀ data, encode floats p.value = some data → data ∈ D) :
    ∃ s', (routePayload floats sha256 root (some p.router) s.disk p.key p.value).2 = s'.disk ∧
      Inv sha256 root D s' ∧ Extends s s' ∧
      Outcome floats sha256 s' p
        (routePayload floats sha256 root (some p.router) s.disk p.key p.value).1 := by
  have hsome := textOf_isSome_iff floats p.keyed
  have hextends : Extends s s := fun _ _ hlive => hlive
  unfold routePayload
  split_ifs with hnull
  · exact ⟨s, rfl, hs, hextends, .absent hnull⟩
  rw [Bool.not_eq_true] at hnull
  cases htext : textOf floats p.value with
  | none =>
    rw [htext] at hsome
    have hencode : encode floats p.value = none :=
      Option.not_isSome_iff_eq_none.mp (by simp [← hsome])
    exact ⟨s, rfl, hs, hextends, .raised _ hnull hencode⟩
  | some text =>
    rw [htext] at hsome
    obtain ⟨data, hencode⟩ := Option.isSome_iff_exists.mp hsome.symm
    simp only [routeValue, hencode, routeBytes, p.threshold]
    split_ifs with hsmall
    · exact ⟨s, rfl, hs, hextends, .inlined hnull hencode htext hsmall⟩
    · obtain ⟨s', hput, hs', hext, hlive⟩ :=
        put_extends hs hinj p.proper p.key_ne (hdata data hencode)
      rw [hput]
      exact ⟨s', rfl, hs', hext, .stored hnull hencode htext (not_le.mp hsmall) hlive⟩

theorem recoverable_inline_iff {hash text : String} {value : Json} (disk : Disk)
    (rendered : textOf floats value = some text) :
    Recoverable floats sha256 root disk value (.ok ⟨none, some hash, some (inlineOf text)⟩) ↔
      text.toList.length ≤ inlinePayloadMaxChars := by
  rw [← inlineOf_eq_iff]
  constructor
  · rintro ⟨recorded, heq, hread⟩
    obtain rfl := Except.ok.inj heq
    obtain ⟨pointer, -, hpointer, -⟩ | ⟨text', htext', hinline⟩ := hread
    · cases hpointer
    · obtain rfl := Option.some.inj (rendered.symm.trans htext')
      exact Option.some.inj hinline
  · intro heq
    exact ⟨_, rfl, .inr ⟨text, rendered, congrArg some heq⟩⟩

theorem length_le_iff_of_small {value : Json} (hkeyed : Keyed value) {data : Bytes} {text : String}
    (encoded : encode floats value = some data) (rendered : textOf floats value = some text)
    (small : data.length ≤ defaultInlineThresholdBytes) :
    text.toList.length ≤ inlinePayloadMaxChars ↔
      isText value = true ∨ size floats value + separators value ≤ inlinePayloadMaxChars := by
  cases htext : isText value with
  | true =>
    refine iff_of_true ?_ (.inl rfl)
    obtain ⟨t, rfl⟩ := exists_of_isText htext
    obtain rfl := Option.some.inj encoded
    obtain rfl := Option.some.inj rendered
    exact (length_le_length_utf8 t).trans small
  | false =>
    rw [length_textOf hkeyed htext rendered]
    simp only [Bool.false_eq_true, false_or]

/-- **When one payload can be recovered.** -/
theorem recoverable_iff_of_outcome (hs : Inv sha256 root D s)
    (h : Outcome floats sha256 s p result) :
    Recoverable floats sha256 root s.disk p.value result ↔ Fits floats p.value := by
  have hsome := encode_isSome_iff floats p.keyed
  cases h with
  | absent isNull =>
    refine iff_of_false ?_ (fun hfits => by cases isNull.symm.trans hfits.1)
    rintro ⟨recorded, heq, hread⟩
    obtain rfl := Except.ok.inj heq
    obtain ⟨pointer, -, hpointer, -⟩ | ⟨text, -, hinline⟩ := hread
    · cases hpointer
    · cases hinline
  | raised failure present unencoded =>
    rw [unencoded, Option.isSome_none, eq_comm, Bool.or_eq_false_iff] at hsome
    refine iff_of_false ?_ ?_
    · rintro ⟨recorded, heq, -⟩
      cases heq
    · simp [Fits, hsome.1, hsome.2]
  | @stored data text present encoded rendered large live =>
    rw [encoded, Option.isSome_some, eq_comm, Bool.or_eq_true] at hsome
    refine iff_of_true ?_ ?_
    · exact ⟨_, rfl, .inl ⟨_, data, rfl, get_of_live hs live, decodes_encode p.keyed encoded⟩⟩
    · cases htext : isText p.value with
      | true => exact ⟨present, .inl htext⟩
      | false =>
        rw [htext] at hsome
        rw [length_encode p.keyed htext encoded] at large
        exact ⟨present, .inr ⟨hsome.resolve_left Bool.false_ne_true, .inl large⟩⟩
  | @inlined data text present encoded rendered small =>
    rw [encoded, Option.isSome_some, eq_comm, Bool.or_eq_true] at hsome
    rw [recoverable_inline_iff s.disk rendered,
      length_le_iff_of_small p.keyed encoded rendered small, Fits]
    cases htext : isText p.value with
    | true => simp [present]
    | false =>
      rw [htext] at hsome
      rw [length_encode p.keyed htext encoded] at small
      have hprint := hsome.resolve_left Bool.false_ne_true
      simp only [present, hprint, Bool.false_eq_true, false_or, true_and, not_lt.mpr small]

theorem hashIn_of_outcome (h : Outcome floats sha256 s p result) : hashIn result =
    if p.value.isNull then none else (encode floats p.value).map (bytesHash sha256) := by
  cases h with
  | absent isNull =>
    rw [if_pos isNull]
    rfl
  | raised failure present unencoded =>
    rw [present, unencoded]
    rfl
  | inlined present encoded =>
    rw [present, encoded]
    rfl
  | stored present encoded =>
    rw [present, encoded]
    rfl

theorem isNull_of_same {v w : Json} (hv : Keyed v) (hw : Keyed w) (h : same v w = true) :
    v.isNull = w.isNull := by
  have hsorted := (same_iff hv hw).mp h
  have hnull (u : Json) : (sortKeys u).isNull = u.isNull := by cases u <;> rfl
  rw [← hnull v, hsorted, hnull]

/-! ### A run of payloads -/

/-- **A run leaves in the store what each payload was routed to.** -/
theorem routeAll_spec (hs : Inv sha256 root D s) (hinj : Set.InjOn sha256 D) {ps : List Payload}
    (hdata : ∀ p ∈ ps, ∀ data, encode floats p.value = some data → data ∈ D) :
    ∃ s', (routeAll floats sha256 root s.disk ps).2 = s'.disk ∧ Inv sha256 root D s' ∧
      Extends s s' ∧
      List.Forall₂ (Outcome floats sha256 s') ps (routeAll floats sha256 root s.disk ps).1 := by
  induction ps generalizing s with
  | nil => exact ⟨s, rfl, hs, fun _ _ hlive => hlive, .nil⟩
  | cons p ps ih =>
    rw [List.forall_mem_cons] at hdata
    obtain ⟨s₁, hdisk₁, hs₁, hext₁, hout⟩ := routePayload_spec (p := p) hs hinj hdata.1
    obtain ⟨s₂, hdisk₂, hs₂, hext₂, houts⟩ := ih hs₁ hdata.2
    simp only [routeAll]
    rw [hdisk₁]
    exact ⟨s₂, hdisk₂, hs₂, hext₁.trans hext₂, .cons (hout.mono hext₂) houts⟩

/-- **The hashes of two payloads** are equal when they are one JSON value; values that Python calls
equal and whose hashes are equal are one. -/
theorem hashes_of_outcome (hinj : Set.InjOn sha256 D)
    (hp : Outcome floats sha256 s p result) (hq : Outcome floats sha256 s q result')
    (hdata : ∀ data, encode floats p.value = some data → data ∈ D)
    (hdata' : ∀ data, encode floats q.value = some data → data ∈ D) :
    (same p.value q.value = true → hashIn result = hashIn result') ∧
      ∀ hash, pyEq p.value q.value = true → hashIn result = some hash →
        hashIn result' = some hash → same p.value q.value = true := by
  rw [hashIn_of_outcome hp, hashIn_of_outcome hq]
  constructor
  · intro hsame
    rw [isNull_of_same p.keyed q.keyed hsame, encode_congr p.keyed q.keyed hsame]
  · intro hash heq hhash hhash'
    split_ifs at hhash hhash'
    obtain ⟨data, hencode, rfl⟩ := Option.map_eq_some_iff.mp hhash
    obtain ⟨data', hencode', hsha⟩ := Option.map_eq_some_iff.mp hhash'
    have hdigest : sha256 data' = sha256 data := Digest.ext (hex_eq_of_hashOf_eq hsha)
    obtain rfl := hinj (hdata' data' hencode') (hdata data hencode) hdigest
    exact same_of_encode_eq p.keyed q.keyed heq hencode hencode'

end Payloads

/-- **Which payloads of a run can be recovered after it**: texts, and the values whose JSON is above
the one limit or within the other. One JSON value always gets one hash; of two values that Python
calls equal, only those get one that are the same JSON. SHA-256 is to tell apart the data that are
stored. -/
theorem payloads_recoverable_iff (floats : FloatText) {sha256 : Bytes → Digest} {root : Path}
    {D : Set Bytes} {s : History} (hs : Inv sha256 root D s) (hinj : Set.InjOn sha256 D)
    (ps : List Payload)
    (hdata : ∀ p ∈ ps, ∀ data, encode floats p.value = some data → data ∈ D) :
    List.Forall₂ (fun p result =>
        Recoverable floats sha256 root (routeAll floats sha256 root s.disk ps).2 p.value result ↔
          Fits floats p.value)
      ps (routeAll floats sha256 root s.disk ps).1 ∧
    ∀ p result q result', (p, result) ∈ ps.zip (routeAll floats sha256 root s.disk ps).1 →
      (q, result') ∈ ps.zip (routeAll floats sha256 root s.disk ps).1 →
      (same p.value q.value = true → hashIn result = hashIn result') ∧
      ∀ hash, pyEq p.value q.value = true → hashIn result = some hash →
        hashIn result' = some hash → same p.value q.value = true := by
  obtain ⟨s', hdisk, hs', -, houts⟩ := routeAll_spec hs hinj hdata
  rw [hdisk]
  refine ⟨houts.imp fun p result => recoverable_iff_of_outcome hs', ?_⟩
  intro p result q result' hp hq
  exact hashes_of_outcome hinj (List.forall₂_zip houts hp) (List.forall₂_zip houts hq)
    (hdata p (List.of_mem_zip hp).1) (hdata q (List.of_mem_zip hq).1)

/-- A payload of the workspace `ws_a`. -/
def promptOf (value : Json) (keyed : Keyed value) : Payload where
  router := { workspaceId := "ws_a", workspaceId_ne := by decide }
  proper := ⟨by decide, by decide⟩
  threshold := rfl
  key := "prompt"
  key_ne := by decide
  value := value
  keyed := keyed

theorem injOn_singleton (sha256 : Bytes → Digest) (data : Bytes) : Set.InjOn sha256 {data} := by
  rintro _ rfl _ rfl _
  rfl

theorem mem_of_promptOf {floats : FloatText} {value : Json} (keyed : Keyed value) {data : Bytes}
    (h : encode floats value = some data) : ∀ p ∈ [promptOf value keyed], ∀ data',
      encode floats p.value = some data' → data' ∈ ({data} : Set Bytes) := by
  intro p hp data' hdata'
  obtain rfl := List.mem_singleton.mp hp
  exact Option.some.inj (hdata'.symm.trans h)

/-- A text that is offloaded. -/
def longText : String := String.ofList (List.replicate 5000 'a')

def digestOfLong : Digest where
  hex := "c526c6222044dab5674de9c4ac7f4566ebb5e4d8bf9d8ea34c9cc8a7cc3c869c"
  length_hex := by decide
  hex_chars := List.all_eq_true.mp (by decide)

/-- SHA-256, of the two texts. -/
def twoDigests (data : Bytes) : Digest := if data = utf8 "hi" then digestOfHi else digestOfLong

/-- A short prompt and a long one. -/
def prompts : List Payload := [promptOf (.str "hi") (.str "hi"), promptOf (.str longText) (.str _)]

theorem injOn_twoDigests : Set.InjOn twoDigests {utf8 "hi", utf8 longText} := by
  have hne : digestOfHi ≠ digestOfLong := fun h => absurd (congrArg Digest.hex h) (by decide)
  have hlong : utf8 longText ≠ utf8 "hi" := by
    intro h
    have htext : List.replicate 5000 'a' = "hi".toList := String.ofList_injective (utf8_injective h)
    have hmem : 'h' ∈ List.replicate 5000 'a' := htext ▸ List.mem_cons_self
    exact absurd (List.eq_of_mem_replicate hmem) (by decide)
  have hshort : twoDigests (utf8 "hi") = digestOfHi := if_pos rfl
  have hother : twoDigests (utf8 longText) = digestOfLong := if_neg hlong
  generalize utf8 longText = long at hother
  rintro x (rfl | rfl) y (rfl | rfl) h
  · rfl
  · exact absurd ((hshort.symm.trans h).trans hother) hne
  · exact absurd ((hshort.symm.trans h.symm).trans hother) hne
  · rfl

theorem recoverable_prompt :
    List.Forall₂ (fun p result => Recoverable ratioText twoDigests ["srv", "objects"]
        (routeAll ratioText twoDigests ["srv", "objects"]
          (init ["srv", "objects"] fun _ => none).disk prompts).2
        p.value result ↔ Fits ratioText p.value)
      prompts
      (routeAll ratioText twoDigests ["srv", "objects"]
        (init ["srv", "objects"] fun _ => none).disk prompts).1 := by
  refine (payloads_recoverable_iff ratioText
    (inv_init ["srv", "objects"] (fun _ => none) {utf8 "hi", utf8 longText}) injOn_twoDigests
    prompts fun p hp data hdata => ?_).1
  obtain rfl | rfl := List.mem_pair.mp hp
  · exact .inl (Option.some.inj hdata).symm
  · exact .inr (Option.some.inj hdata).symm

/-! ### Between the limits -/

/-- A list of zeros. -/
def zeros (n : ℕ) : Json := .arr (List.replicate n (.int 0))

theorem keyed_zeros (n : ℕ) : Keyed (zeros n) := by
  refine .arr fun v hv => ?_
  rw [List.eq_of_mem_replicate hv]
  exact .int 0

theorem size_zeros (floats : FloatText) (n : ℕ) : size floats (zeros n) = 2 + n + (n - 1) := by
  have hitems : sizeItems floats (List.replicate n (.int 0)) = n := by
    rw [sizeItems_eq, List.map_replicate, List.sum_replicate]
    exact Nat.mul_one n
  rw [zeros, size, hitems, List.length_replicate]

theorem separators_zeros (n : ℕ) : separators (zeros n) = n - 1 := by
  have hitems : separatorsItems (List.replicate n (.int 0)) = 0 := by
    induction n with
    | zero => rfl
    | succ n ih => rw [List.replicate_succ, separatorsItems, ih, separators]
  rw [zeros, separators, hitems, List.length_replicate, Nat.zero_add]

theorem printable_zeros (n : ℕ) : printable (zeros n) = true := by
  rw [zeros, printable, printableItems_iff]
  intro v hv
  rw [List.eq_of_mem_replicate hv]
  rfl

/-- **Two thousand zeros** have 4001 bytes without blanks, and 6000 characters with them: they are
cut, and not stored. -/
theorem not_all_recoverable :
    ¬∀ (floats : FloatText) (sha256 : Bytes → Digest) (root : Path) (D : Set Bytes) (s : History)
      (ps : List Payload), Inv sha256 root D s → Set.InjOn sha256 D →
      (∀ p ∈ ps, ∀ data, encode floats p.value = some data → data ∈ D) →
      List.Forall₂ (fun p result =>
          Recoverable floats sha256 root (routeAll floats sha256 root s.disk ps).2 p.value result)
        ps (routeAll floats sha256 root s.disk ps).1 := by
  intro h
  have hkeyed := keyed_zeros 2000
  have hsome : (encode ratioText (zeros 2000)).isSome = true := by
    rw [encode_isSome_iff ratioText hkeyed, printable_zeros, Bool.or_true]
  obtain ⟨data, hencode⟩ := Option.isSome_iff_exists.mp hsome
  have hs : Inv (fun _ => digestOfHi) ["srv", "objects"] {data}
      (init ["srv", "objects"] fun _ => none) := inv_init _ _ _
  have hinj := injOn_singleton (fun _ => digestOfHi) data
  have hdata := mem_of_promptOf hkeyed hencode
  obtain ⟨s', hdisk, hs', -, houts⟩ := routeAll_spec hs hinj hdata
  have hall := h ratioText _ _ _ _ _ hs hinj hdata
  rw [hdisk] at hall
  generalize (routeAll ratioText (fun _ => digestOfHi) ["srv", "objects"]
    (init ["srv", "objects"] fun _ => none).disk [promptOf (zeros 2000) hkeyed]).1 = results
    at houts hall
  cases houts with
  | cons hout _ =>
    cases hall with
    | cons hrecoverable _ =>
      have hfits := ((recoverable_iff_of_outcome hs' hout).mp hrecoverable).2
      have hcases : 4096 < size ratioText (zeros 2000) ∨
          size ratioText (zeros 2000) + separators (zeros 2000) ≤ 4096 :=
        (hfits.resolve_left Bool.false_ne_true).2
      rw [size_zeros, separators_zeros] at hcases
      omega

end Selfevals.Runner.RoutedPayloads
