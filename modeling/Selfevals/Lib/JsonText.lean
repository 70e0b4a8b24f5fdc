import Selfevals.Lib.JsonEquality
import Selfevals.Lib.JsonNumbers

/-!
# JSON texts

`dumps` is `json.dumps` in one of two styles, with a blank behind every comma and colon or without,
and `loads` is `json.loads`. An integer of more digits than Python converts has no text. How a float
is written is left to `FloatText`.

* `length_dumps`: the length of a text, from the sizes of what the value holds.
-/

namespace Selfevals.Lib.JsonText

open Lib.JsonEquality Lib.JsonNumbers Lib.JsonStrings Lib.JsonValue Lib.Mapping Lib.PyInt

/-! ### Writing -/

/-- The separators: those of `json.dumps(v)`, or `separators=(",", ":")`. -/
inductive Style
  | spaced
  | compact
deriving DecidableEq, Repr

/-- What stands between items. -/
def Style.item : Style → List Char
  | .spaced => [',', ' ']
  | .compact => [',']

/-- What stands after a key. -/
def Style.key : Style → List Char
  | .spaced => [':', ' ']
  | .compact => [':']

section Texts
variable (floats : FloatText) (style : Style)

mutual

/-- The text of a value whose floats are texts already. -/
def render : Json → List Char
  | .null => ['n', 'u', 'l', 'l']
  | .bool true => ['t', 'r', 'u', 'e']
  | .bool false => ['f', 'a', 'l', 's', 'e']
  | .int n => (toString n).toList
  | .float q => floats.repr q
  | .str s => quote s
  | .arr items => '[' :: (renderItems items ++ [']'])
  | .obj fields => '{' :: (renderFields fields ++ ['}'])

def renderItems : List Json → List Char
  | [] => []
  | v :: vs => render v ++ ((if vs.isEmpty then [] else style.item) ++ renderItems vs)

def renderFields : List (String × Json) → List Char
  | [] => []
  | (k, v) :: fields => quote k ++ (style.key ++ (render v ++
      ((if fields.isEmpty then [] else style.item) ++ renderFields fields)))

end

mutual

/-- No integer in the value has more digits than Python converts. -/
def printable : Json → Bool
  | .null | .bool _ | .float _ | .str _ => true
  | .int n => (intStr n).isSome
  | .arr items => printableItems items
  | .obj fields => printableFields fields

def printableItems : List Json → Bool
  | [] => true
  | v :: vs => printable v && printableItems vs

def printableFields : List (String × Json) → Bool
  | [] => true
  | (_, v) :: fields => printable v && printableFields fields

end

/-- `json.dumps(v)`, with `none` for `ValueError`. -/
def dumps (v : Json) : Option (List Char) :=
  if printable v then some (render floats style v) else none

/-! ### Reading -/

/-- The blanks of JSON. -/
def isSpace (c : Char) : Bool := [' ', '\t', '\n', '\r'].contains c

def skip (cs : List Char) : List Char := cs.dropWhile isSpace

/-- A number, and what follows it. -/
def parseNumber (cs : List Char) : Option (Json × List Char) :=
  let token := cs.takeWhile isNumberChar
  let rest := cs.dropWhile isNumberChar
  if isInt token then (parseInt (String.ofList token)).map fun n => (.int n, rest)
  else if isFloat token then (floats.read token).map fun q => (.float q, rest)
  else none

/-- A literal name, and what follows it. -/
def parseWord : List Char → Option (Json × List Char)
  | 'n' :: 'u' :: 'l' :: 'l' :: cs => some (.null, cs)
  | 't' :: 'r' :: 'u' :: 'e' :: cs => some (.bool true, cs)
  | 'f' :: 'a' :: 'l' :: 's' :: 'e' :: cs => some (.bool false, cs)
  | _ => none

mutual

/-- The value at the front of a text; `n` is at least its length. -/
def parseValue : ℕ → List Char → Option (Json × List Char)
  | 0, _ => none
  | _ + 1, [] => none
  | n + 1, c :: cs =>
    if c = '"' then (readString cs).map fun p => (.str p.1, p.2)
    else if c = '[' then
      if (skip cs).head? = some ']' then some (.arr [], (skip cs).tail)
      else (parseItems n (skip cs)).map fun p => (.arr p.1, p.2)
    else if c = '{' then
      if (skip cs).head? = some '}' then some (.obj [], (skip cs).tail)
      else (parseFields n (skip cs)).map fun p => (.obj (Dict.ofItems p.1).items, p.2)
    else if isNumberChar c then parseNumber floats (c :: cs)
    else parseWord (c :: cs)

/-- The items of a list, and what follows them. -/
def parseItems : ℕ → List Char → Option (List Json × List Char)
  | 0, _ => none
  | n + 1, cs =>
    match parseValue n cs with
    | none => none
    | some (v, cs) =>
      match skip cs with
      | ',' :: cs => (parseItems n (skip cs)).map fun p => (v :: p.1, p.2)
      | ']' :: cs => some ([v], cs)
      | _ => none

/-- The fields of an object, and what follows them. -/
def parseFields : ℕ → List Char → Option (List (String × Json) × List Char)
  | n + 1, '"' :: cs =>
    match readString cs with
    | none => none
    | some (k, cs) =>
      match skip cs with
      | ':' :: cs =>
        match parseValue n (skip cs) with
        | none => none
        | some (v, cs) =>
          match skip cs with
          | ',' :: cs => (parseFields n (skip cs)).map fun p => ((k, v) :: p.1, p.2)
          | '}' :: cs => some ([(k, v)], cs)
          | _ => none
      | _ => none
  | _, _ => none

end

/-- `json.loads(text)`, with `none` for `ValueError`. -/
def loads (text : List Char) : Option Json :=
  match parseValue floats text.length (skip text) with
  | some (v, rest) => if (skip rest).isEmpty then some v else none
  | none => none

/-! ### What is written is read -/

mutual

/-- How much fuel reading the value takes. -/
def need : Json → ℕ
  | .null | .bool _ | .int _ | .float _ | .str _ => 1
  | .arr items => 1 + needItems items
  | .obj fields => 1 + needFields fields

def needItems : List Json → ℕ
  | [] => 0
  | v :: vs => 1 + need v + needItems vs

def needFields : List (String × Json) → ℕ
  | [] => 0
  | (_, v) :: fields => 1 + need v + needFields fields

end

/-- What may stand behind a number. -/
def Delimited (cs : List Char) : Prop := ∀ c, cs.head? = some c → isNumberChar c = false

theorem delimited_cons {c : Char} (h : isNumberChar c = false) (cs : List Char) :
    Delimited (c :: cs) := by
  intro d hd
  obtain rfl := Option.some.inj hd
  exact h

theorem skip_cons {c : Char} (h : isSpace c = false) (cs : List Char) : skip (c :: cs) = c :: cs :=
  List.dropWhile_cons_of_neg (by simp [h])

theorem span_number {token rest : List Char} (h : ∀ c ∈ token, isNumberChar c = true)
    (hrest : Delimited rest) : (token ++ rest).takeWhile isNumberChar = token ∧
      (token ++ rest).dropWhile isNumberChar = rest := by
  rw [List.takeWhile_append_of_pos h, List.dropWhile_append_of_pos h]
  cases rest with
  | nil => simp
  | cons c rest =>
    have hstop : ¬isNumberChar c = true := by simp [hrest c rfl]
    rw [List.takeWhile_cons_of_neg hstop, List.dropWhile_cons_of_neg hstop, List.append_nil]
    exact ⟨rfl, rfl⟩

theorem isSpace_of_isNumberChar {c : Char} (h : isNumberChar c = true) :
    isSpace c = false ∧ c ≠ '"' ∧ c ≠ '[' ∧ c ≠ '{' ∧ c ≠ ']' := by
  refine ⟨?_, ?_, ?_, ?_, ?_⟩
  · rw [Bool.eq_false_iff]
    intro hspace
    simp only [isSpace, List.contains_cons, List.contains_nil, Bool.or_false, Bool.or_eq_true,
      beq_iff_eq] at hspace
    obtain rfl | rfl | rfl | rfl := hspace <;> exact absurd h (by decide)
  all_goals
    rintro rfl
    exact absurd h (by decide)

theorem parseValue_number {token : List Char} (hne : token ≠ [])
    (h : ∀ c ∈ token, isNumberChar c = true) (n : ℕ) (rest : List Char) :
    parseValue floats (n + 1) (token ++ rest) = parseNumber floats (token ++ rest) := by
  cases token with
  | nil => exact absurd rfl hne
  | cons c token =>
    have hc := h c List.mem_cons_self
    obtain ⟨-, hquote, hbracket, hbrace, -⟩ := isSpace_of_isNumberChar hc
    rw [List.cons_append, parseValue, if_neg hquote, if_neg hbracket, if_neg hbrace, if_pos hc]

theorem head_render (v : Json) :
    ∃ c cs, render floats style v = c :: cs ∧ isSpace c = false ∧ c ≠ ']' := by
  have hnumber {token : List Char} (hne : token ≠ [])
      (h : ∀ c ∈ token, isNumberChar c = true) :
      ∃ c cs, token = c :: cs ∧ isSpace c = false ∧ c ≠ ']' := by
    obtain ⟨c, cs, rfl⟩ := List.exists_cons_of_ne_nil hne
    obtain ⟨hspace, -, -, -, hbracket⟩ := isSpace_of_isNumberChar (h c List.mem_cons_self)
    exact ⟨c, cs, rfl, hspace, hbracket⟩
  cases v with
  | null => exact ⟨_, _, rfl, rfl, by decide⟩
  | bool b =>
    cases b with
    | true => exact ⟨_, _, rfl, rfl, by decide⟩
    | false => exact ⟨_, _, rfl, rfl, by decide⟩
  | int n => exact hnumber (ne_nil_of_isInt (isInt_toString n)) (all_of_isInt (isInt_toString n))
  | float q =>
    exact hnumber (ne_nil_of_isFloat (floats.isFloat_repr q))
      (all_of_isFloat (floats.isFloat_repr q))
  | str s => exact ⟨_, _, rfl, rfl, by decide⟩
  | arr items => exact ⟨_, _, rfl, rfl, by decide⟩
  | obj fields => exact ⟨_, _, rfl, rfl, by decide⟩

/-- The value is read where it is written. -/
def Reads (v : Json) : Prop := ∀ n rest, need v ≤ n → Delimited rest →
  parseValue floats n (render floats style v ++ rest) = some (v, rest)

theorem skip_render (v : Json) (rest : List Char) :
    skip (render floats style v ++ rest) = render floats style v ++ rest := by
  obtain ⟨c, cs, hcs, hspace, -⟩ := head_render floats style v
  rw [hcs]
  exact skip_cons hspace _

theorem skip_item (rest : List Char) :
    ∃ cs, skip (style.item ++ rest) = ',' :: cs ∧ skip cs = skip rest := by
  cases style with
  | spaced => exact ⟨' ' :: rest, rfl, rfl⟩
  | compact => exact ⟨rest, rfl, rfl⟩

theorem skip_key (rest : List Char) :
    ∃ cs, skip (style.key ++ rest) = ':' :: cs ∧ skip cs = skip rest := by
  cases style with
  | spaced => exact ⟨' ' :: rest, rfl, rfl⟩
  | compact => exact ⟨rest, rfl, rfl⟩

theorem delimited_item (rest : List Char) : Delimited (style.item ++ rest) := by
  cases style with
  | spaced => exact delimited_cons rfl _
  | compact => exact delimited_cons rfl _

theorem parseItems_render {items : List Json} (hne : items ≠ [])
    (h : ∀ v ∈ items, Reads floats style v) {n : ℕ} (hn : needItems items ≤ n)
    (rest : List Char) :
    parseItems floats n (renderItems floats style items ++ ']' :: rest) = some (items, rest) := by
  induction items generalizing n with
  | nil => exact absurd rfl hne
  | cons v vs ih =>
    rw [needItems] at hn
    obtain ⟨n, rfl⟩ := Nat.exists_eq_succ_of_ne_zero (n := n) (by omega)
    rw [List.forall_mem_cons] at h
    obtain ⟨hv, hvs⟩ := h
    cases vs with
    | nil =>
      have htext : renderItems floats style [v] ++ ']' :: rest =
          render floats style v ++ ']' :: rest := by simp [renderItems]
      rw [htext, parseItems, hv n _ (by omega) (delimited_cons rfl _)]
      rfl
    | cons w ws =>
      have htext : renderItems floats style (v :: w :: ws) ++ ']' :: rest =
          render floats style v ++
            (style.item ++ (renderItems floats style (w :: ws) ++ ']' :: rest)) := by
        rw [renderItems]
        simp
      obtain ⟨cs, hitem, hskip⟩ :=
        skip_item style (renderItems floats style (w :: ws) ++ ']' :: rest)
      have hhead : skip (renderItems floats style (w :: ws) ++ ']' :: rest) =
          renderItems floats style (w :: ws) ++ ']' :: rest := by
        rw [renderItems, List.append_assoc]
        exact skip_render floats style w _
      rw [htext, parseItems, hv n _ (by omega) (delimited_item style _)]
      simp only [hitem, hskip, hhead]
      rw [ih (by simp) hvs (by omega)]
      rfl

theorem parseFields_render {fields : Object} (hne : fields ≠ [])
    (h : ∀ field ∈ fields, Reads floats style field.2) {n : ℕ}
    (hn : needFields fields ≤ n) (rest : List Char) :
    parseFields floats n (renderFields floats style fields ++ '}' :: rest) =
      some (fields, rest) := by
  induction fields generalizing n with
  | nil => exact absurd rfl hne
  | cons field fields ih =>
    obtain ⟨k, v⟩ := field
    rw [needFields] at hn
    obtain ⟨n, rfl⟩ := Nat.exists_eq_succ_of_ne_zero (n := n) (by omega)
    rw [List.forall_mem_cons] at h
    obtain ⟨hv, hfields⟩ := h
    cases fields with
    | nil =>
      have htext : renderFields floats style [(k, v)] ++ '}' :: rest =
          quote k ++ (style.key ++ (render floats style v ++ '}' :: rest)) := by
        simp [renderFields]
      obtain ⟨cs, hcs, hread⟩ :=
        readString_quote k (style.key ++ (render floats style v ++ '}' :: rest))
      obtain ⟨ds, hkey, hskip⟩ := skip_key style (render floats style v ++ '}' :: rest)
      rw [htext, hcs, parseFields]
      simp only [hread, hkey, hskip, skip_render]
      rw [hv n _ (show need v ≤ n by omega) (delimited_cons rfl _)]
      rfl
    | cons field fields =>
      obtain ⟨rest', hrest'⟩ : ∃ rest',
          rest' = renderFields floats style (field :: fields) ++ '}' :: rest := ⟨_, rfl⟩
      have htext : renderFields floats style ((k, v) :: field :: fields) ++ '}' :: rest =
          quote k ++ (style.key ++ (render floats style v ++ (style.item ++ rest'))) := by
        rw [hrest', renderFields]
        simp
      obtain ⟨cs, hcs, hread⟩ :=
        readString_quote k (style.key ++ (render floats style v ++ (style.item ++ rest')))
      obtain ⟨ds, hkey, hskip⟩ := skip_key style (render floats style v ++ (style.item ++ rest'))
      obtain ⟨es, hitem, hskip'⟩ := skip_item style rest'
      have hhead : skip rest' = rest' := by
        rw [hrest', renderFields]
        exact skip_cons rfl _
      rw [htext, hcs, parseFields]
      simp only [hread, hkey, hskip, skip_render]
      rw [hv n _ (show need v ≤ n by omega) (delimited_item style _)]
      simp only [hitem, hskip', hhead]
      rw [hrest', ih (by simp) hfields (by omega)]
      rfl

theorem printableItems_iff {items : List Json} :
    printableItems items = true ↔ ∀ v ∈ items, printable v = true := by
  induction items with
  | nil => simp [printableItems]
  | cons v vs ih => rw [printableItems, Bool.and_eq_true, ih, List.forall_mem_cons]

theorem printableFields_iff {fields : Object} :
    printableFields fields = true ↔ ∀ field ∈ fields, printable field.2 = true := by
  induction fields with
  | nil => simp [printableFields]
  | cons field fields ih =>
    rw [printableFields, Bool.and_eq_true, ih, List.forall_mem_cons]

theorem reads_int {k : ℤ} (hprint : printable (.int k) = true) :
    Reads floats style (.int k) := by
  intro n rest hn hrest
  obtain ⟨n, rfl⟩ := Nat.exists_eq_add_of_le' (show 1 ≤ n from hn)
  have hint := isInt_toString k
  obtain ⟨s, hs⟩ := Option.isSome_iff_exists.mp hprint
  have hstr : String.ofList (toString k).toList = s := by
    rw [String.ofList_toList]
    unfold intStr at hs
    split_ifs at hs
    exact Option.some.inj hs
  obtain ⟨htake, hdrop⟩ := span_number (all_of_isInt hint) hrest
  rw [render, parseValue_number floats (ne_nil_of_isInt hint) (all_of_isInt hint), parseNumber]
  simp only [htake, hdrop, hint, if_true, hstr, parseInt_of_intStr hs, Option.map_some]

theorem reads_float (q : ℚ) : Reads floats style (.float q) := by
  intro n rest hn hrest
  obtain ⟨n, rfl⟩ := Nat.exists_eq_add_of_le' (show 1 ≤ n from hn)
  have hfloat := floats.isFloat_repr q
  obtain ⟨htake, hdrop⟩ := span_number (all_of_isFloat hfloat) hrest
  rw [render, parseValue_number floats (ne_nil_of_isFloat hfloat) (all_of_isFloat hfloat),
    parseNumber]
  simp only [htake, hdrop, isInt_of_isFloat hfloat, hfloat, if_true, Bool.false_eq_true,
    if_false, floats.read_repr, Option.map_some]

theorem reads_str (s : String) : Reads floats style (.str s) := by
  intro n rest hn hrest
  obtain ⟨n, rfl⟩ := Nat.exists_eq_add_of_le' (show 1 ≤ n from hn)
  obtain ⟨cs, hcs, hread⟩ := readString_quote s rest
  rw [render, hcs, parseValue, if_pos rfl, hread]
  rfl

theorem reads_arr {items : List Json} (h : ∀ v ∈ items, Reads floats style v) :
    Reads floats style (.arr items) := by
  intro n rest hn hrest
  rw [need] at hn
  obtain ⟨n, rfl⟩ := Nat.exists_eq_add_of_le' (show 1 ≤ n by omega)
  have hbracket : '[' ≠ '"' := by decide
  cases items with
  | nil => rfl
  | cons v vs =>
    have htext : render floats style (.arr (v :: vs)) ++ rest =
        '[' :: (renderItems floats style (v :: vs) ++ ']' :: rest) := by simp [render]
    obtain ⟨c, cs, hcs, hspace, hclose⟩ := head_render floats style v
    obtain ⟨ds, hds⟩ : ∃ ds, renderItems floats style (v :: vs) ++ ']' :: rest = c :: ds := by
      rw [renderItems, hcs]
      exact ⟨_, rfl⟩
    have hskip : skip (renderItems floats style (v :: vs) ++ ']' :: rest) =
        renderItems floats style (v :: vs) ++ ']' :: rest := by
      rw [hds]
      exact skip_cons hspace ds
    have hopen : ¬(renderItems floats style (v :: vs) ++ ']' :: rest).head? = some ']' := by
      rw [hds]
      simpa using hclose
    rw [htext, parseValue, if_neg hbracket, if_pos rfl, hskip, if_neg hopen,
      parseItems_render floats style (List.cons_ne_nil v vs) h (by omega)]
    rfl

theorem reads_obj {fields : Object} (nodup : (fields.map Prod.fst).Nodup)
    (h : ∀ field ∈ fields, Reads floats style field.2) : Reads floats style (.obj fields) := by
  intro n rest hn hrest
  rw [need] at hn
  obtain ⟨n, rfl⟩ := Nat.exists_eq_add_of_le' (show 1 ≤ n by omega)
  have hquote : '{' ≠ '"' := by decide
  have hbracket : '{' ≠ '[' := by decide
  cases fields with
  | nil => rfl
  | cons field fields =>
    have htext : render floats style (.obj (field :: fields)) ++ rest =
        '{' :: (renderFields floats style (field :: fields) ++ '}' :: rest) := by simp [render]
    obtain ⟨ds, hds⟩ : ∃ ds,
        renderFields floats style (field :: fields) ++ '}' :: rest = '"' :: ds := by
      rw [renderFields]
      exact ⟨_, rfl⟩
    have hskip : skip (renderFields floats style (field :: fields) ++ '}' :: rest) =
        renderFields floats style (field :: fields) ++ '}' :: rest := by
      rw [hds]
      exact skip_cons rfl ds
    have hopen : ¬(renderFields floats style (field :: fields) ++ '}' :: rest).head? =
        some '}' := by
      rw [hds]
      simp
    have hitems : (Dict.ofItems (field :: fields)).items = field :: fields :=
      congrArg Dict.items (Dict.ofItems_items ⟨field :: fields, nodup⟩)
    rw [htext, parseValue, if_neg hquote, if_neg hbracket, if_pos rfl, hskip, if_neg hopen,
      parseFields_render floats style (List.cons_ne_nil field fields) h (by omega),
      Option.map_some, hitems]

/-- **A value is read as it is written**, by induction on it. -/
theorem reads_of_keyed {v : Json} (hv : Keyed v) (hprint : printable v = true) :
    Reads floats style v := by
  induction hv with
  | null =>
    intro n rest hn hrest
    obtain ⟨n, rfl⟩ := Nat.exists_eq_add_of_le' (show 1 ≤ n from hn)
    rfl
  | bool b =>
    intro n rest hn hrest
    obtain ⟨n, rfl⟩ := Nat.exists_eq_add_of_le' (show 1 ≤ n from hn)
    cases b with
    | true => rfl
    | false => rfl
  | int k => exact reads_int floats style hprint
  | float q => exact reads_float floats style q
  | str s => exact reads_str floats style s
  | arr _ ih =>
    rw [printable, printableItems_iff] at hprint
    exact reads_arr floats style fun v hv => ih v hv (hprint v hv)
  | obj nodup _ ih =>
    rw [printable, printableFields_iff] at hprint
    exact reads_obj floats style nodup fun field hfield => ih field hfield (hprint field hfield)

/-! ### Lengths -/

/-- The blanks behind a separator. -/
def Style.blanks : Style → ℕ
  | .spaced => 1
  | .compact => 0

theorem length_item : style.item.length = 1 + style.blanks := by cases style <;> rfl

theorem length_key : style.key.length = 1 + style.blanks := by cases style <;> rfl

mutual

/-- How many characters the value takes when no blank is written. -/
def size : Json → ℕ
  | .null | .bool true => 4
  | .bool false => 5
  | .int n => (toString n).toList.length
  | .float q => (floats.repr q).length
  | .str s => (quote s).length
  | .arr items => 2 + sizeItems items + (items.length - 1)
  | .obj fields => 2 + sizeFields fields + (fields.length - 1)

def sizeItems : List Json → ℕ
  | [] => 0
  | v :: vs => size v + sizeItems vs

def sizeFields : List (String × Json) → ℕ
  | [] => 0
  | (k, v) :: fields => (quote k).length + 1 + size v + sizeFields fields

end

mutual

/-- The commas and colons between what the value holds. -/
def separators : Json → ℕ
  | .null | .bool _ | .int _ | .float _ | .str _ => 0
  | .arr items => separatorsItems items + (items.length - 1)
  | .obj fields => separatorsFields fields + (fields.length - 1)

def separatorsItems : List Json → ℕ
  | [] => 0
  | v :: vs => separators v + separatorsItems vs

def separatorsFields : List (String × Json) → ℕ
  | [] => 0
  | (_, v) :: fields => 1 + separators v + separatorsFields fields

end

theorem length_renderItems {items : List Json} (h : ∀ v ∈ items,
    (render floats style v).length = size floats v + style.blanks * separators v) :
    (renderItems floats style items).length = sizeItems floats items + (items.length - 1) +
      style.blanks * (separatorsItems items + (items.length - 1)) := by
  induction items with
  | nil => rfl
  | cons v vs ih =>
    rw [List.forall_mem_cons] at h
    obtain ⟨hv, hvs⟩ := h
    rw [renderItems, List.length_append, List.length_append, hv, ih hvs, sizeItems,
      separatorsItems]
    cases vs with
    | nil =>
      simp only [List.isEmpty_nil, if_true, List.length_nil, List.length_cons]
      ring
    | cons w ws =>
      simp only [List.isEmpty_cons, Bool.false_eq_true, if_false, length_item, List.length_cons,
        Nat.add_sub_cancel]
      ring

theorem length_renderFields {fields : Object} (h : ∀ field ∈ fields,
    (render floats style field.2).length =
      size floats field.2 + style.blanks * separators field.2) :
    (renderFields floats style fields).length = sizeFields floats fields + (fields.length - 1) +
      style.blanks * (separatorsFields fields + (fields.length - 1)) := by
  induction fields with
  | nil => rfl
  | cons field fields ih =>
    obtain ⟨k, v⟩ := field
    rw [List.forall_mem_cons] at h
    obtain ⟨hv, hfields⟩ := h
    rw [renderFields, List.length_append, List.length_append, List.length_append,
      List.length_append, show (render floats style v).length = _ from hv, ih hfields, length_key,
      sizeFields, separatorsFields]
    cases fields with
    | nil =>
      simp only [List.isEmpty_nil, if_true, List.length_nil, List.length_cons]
      ring
    | cons field fields =>
      simp only [List.isEmpty_cons, Bool.false_eq_true, if_false, length_item, List.length_cons,
        Nat.add_sub_cancel]
      ring

theorem length_render {v : Json} (hv : Keyed v) :
    (render floats style v).length = size floats v + style.blanks * separators v := by
  induction hv with
  | null | int | float | str => rfl
  | bool b => cases b <;> rfl
  | arr _ ih =>
    rw [render, List.length_cons, List.length_append, length_renderItems floats style ih, size,
      separators, List.length_singleton]
    omega
  | obj _ _ ih =>
    rw [render, List.length_cons, List.length_append, length_renderFields floats style ih, size,
      separators, List.length_singleton]
    omega

theorem needItems_le {items : List Json} (h : ∀ v ∈ items, need v ≤ size floats v) :
    needItems items ≤ sizeItems floats items + items.length := by
  induction items with
  | nil => exact le_rfl
  | cons v vs ih =>
    rw [List.forall_mem_cons] at h
    have hvs := ih h.2
    have hv := h.1
    rw [needItems, sizeItems, List.length_cons]
    omega

theorem needFields_le {fields : Object} (h : ∀ field ∈ fields, need field.2 ≤ size floats field.2) :
    needFields fields ≤ sizeFields floats fields + fields.length := by
  induction fields with
  | nil => exact le_rfl
  | cons field fields ih =>
    obtain ⟨k, v⟩ := field
    rw [List.forall_mem_cons] at h
    have hfields := ih h.2
    have hv : need v ≤ size floats v := h.1
    rw [needFields, sizeFields, List.length_cons]
    omega

theorem need_le_size {v : Json} (hv : Keyed v) : need v ≤ size floats v := by
  induction hv with
  | null => exact Nat.succ_pos 3
  | bool b => cases b <;> exact Nat.succ_pos _
  | int n => exact List.length_pos_iff.mpr (ne_nil_of_isInt (isInt_toString n))
  | float q => exact List.length_pos_iff.mpr (ne_nil_of_isFloat (floats.isFloat_repr q))
  | str s => exact Nat.succ_pos _
  | arr _ ih =>
    have hitems := needItems_le floats ih
    rw [need, size]
    omega
  | obj _ _ ih =>
    have hfields := needFields_le floats ih
    rw [need, size]
    omega

/-- **What is written is read again.** -/
theorem loads_dumps {v : Json} (hv : Keyed v) {text : List Char}
    (h : dumps floats style v = some text) : loads floats text = some v := by
  unfold dumps at h
  split_ifs at h with hprint
  obtain rfl := Option.some.inj h
  have hlength : need v ≤ (render floats style v).length := by
    rw [length_render floats style hv]
    exact (need_le_size floats hv).trans (Nat.le_add_right _ _)
  have hread := reads_of_keyed floats style hv hprint _ [] hlength fun c hc => by cases hc
  have hskip := skip_render floats style v []
  rw [List.append_nil] at hread hskip
  rw [loads, hskip, hread]
  rfl

example : dumps ratioText .spaced (.arr [.int 1, .arr [.bool true, .str "é"]]) =
    some "[1, [true, \"\\u00e9\"]]".toList := by decide +kernel

theorem length_dumps {v : Json} (hv : Keyed v) {text : List Char}
    (h : dumps floats style v = some text) :
    text.length = size floats v + style.blanks * separators v := by
  unfold dumps at h
  split_ifs at h
  rw [← Option.some.inj h, length_render floats style hv]

/-! ### ASCII -/

theorem isAscii_separator : (∀ c ∈ style.item, isAscii c = true) ∧
    ∀ c ∈ style.key, isAscii c = true := by
  cases style <;> simp [Style.item, Style.key, isAscii]

theorem isAscii_renderItems {items : List Json}
    (h : ∀ v ∈ items, ∀ c ∈ render floats style v, isAscii c = true) :
    ∀ c ∈ renderItems floats style items, isAscii c = true := by
  induction items with
  | nil =>
    intro c hc
    cases hc
  | cons v vs ih =>
    rw [List.forall_mem_cons] at h
    intro c hc
    rw [renderItems, List.mem_append, List.mem_append] at hc
    obtain hc | hc | hc := hc
    · exact h.1 c hc
    · split_ifs at hc
      · cases hc
      · exact (isAscii_separator style).1 c hc
    · exact ih h.2 c hc

theorem isAscii_renderFields {fields : Object}
    (h : ∀ field ∈ fields, ∀ c ∈ render floats style field.2, isAscii c = true) :
    ∀ c ∈ renderFields floats style fields, isAscii c = true := by
  induction fields with
  | nil =>
    intro c hc
    cases hc
  | cons field fields ih =>
    obtain ⟨k, v⟩ := field
    rw [List.forall_mem_cons] at h
    intro c hc
    rw [renderFields, List.mem_append, List.mem_append, List.mem_append, List.mem_append] at hc
    obtain hc | hc | hc | hc | hc := hc
    · exact isAscii_quote k c hc
    · exact (isAscii_separator style).2 c hc
    · exact h.1 c hc
    · split_ifs at hc
      · cases hc
      · exact (isAscii_separator style).1 c hc
    · exact ih h.2 c hc

theorem isAscii_render {v : Json} (hv : Keyed v) :
    ∀ c ∈ render floats style v, isAscii c = true := by
  induction hv with
  | null => simp [render, isAscii]
  | bool b => cases b <;> simp [render, isAscii]
  | int n =>
    intro c hc
    exact isAscii_of_isNumberChar (all_of_isInt (isInt_toString n) c hc)
  | float q =>
    intro c hc
    exact isAscii_of_isNumberChar (all_of_isFloat (floats.isFloat_repr q) c hc)
  | str s => exact isAscii_quote s
  | arr _ ih =>
    intro c hc
    rw [render, List.mem_cons, List.mem_append, List.mem_singleton] at hc
    obtain rfl | hc | rfl := hc
    · rfl
    · exact isAscii_renderItems floats style ih c hc
    · rfl
  | obj _ _ ih =>
    intro c hc
    rw [render, List.mem_cons, List.mem_append, List.mem_singleton] at hc
    obtain rfl | hc | rfl := hc
    · rfl
    · exact isAscii_renderFields floats style ih c hc
    · rfl

end Texts

end Selfevals.Lib.JsonText
