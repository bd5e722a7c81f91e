import Mathlib

/-!
# The nodes that a library names

`UUID_UuidToString`, `UUID_UuidFromString`, `CSL_Strtokr` and the loop of `getSectDataFromLib` that
counts the UUIDs in a section, or fills them in. A read outside a buffer has no result. Sizes are
those of a file, whose positions have 32 bits.
-/

namespace OmapHal.DynReg

open Option Nat

variable {n v w turns : Nat}

/-- `struct DSP_UUID`. -/
structure DSP_UUID where
  ulData1 : BitVec 32
  usData2 : BitVec 16
  usData3 : BitVec 16
  ucData4 : BitVec 8
  ucData5 : BitVec 8
  ucData6 : Vector (BitVec 8) 6
  deriving DecidableEq, Repr

def MAXUUIDLEN : Nat := 37

/-- `_`. -/
def underscore : UInt8 := 95

/-! ## Strings of UUIDs -/

/-- A digit of `%X`. -/
def hexDigit (d : Nat) : UInt8 := if d < 10 then .ofNat (48 + d) else .ofNat (55 + d)

/-- `%.nX`, for a value that has no more than `n` digits. -/
def hexDigits : Nat → Nat → List UInt8
  | 0, _ => []
  | n + 1, v => hexDigit (v / 16 ^ n) :: hexDigits n (v % 16 ^ n)

/-- The fields in the format of `UUID_UuidToString`. -/
def uuidText (pUuid : DSP_UUID) : List UInt8 :=
  hexDigits 8 pUuid.ulData1.toNat ++ underscore :: hexDigits 4 pUuid.usData2.toNat ++
    underscore :: hexDigits 4 pUuid.usData3.toNat ++
      underscore :: hexDigits 2 pUuid.ucData4.toNat ++ hexDigits 2 pUuid.ucData5.toNat ++
        underscore :: pUuid.ucData6.toList.flatMap fun b => hexDigits 2 b.toNat

/-- What `snprintf` writes to a string with room for `size` characters. -/
def UUID_UuidToString (pUuid : DSP_UUID) (size : Nat) : List UInt8 :=
  (uuidText pUuid).take (size - 1) ++ [0]

/-- The cases of the digits, the capital and the small letters. -/
def htoi (c : UInt8) : BitVec 32 :=
  if 48 ≤ c ∧ c ≤ 57 then .ofNat 32 (c.toNat - 48)
  else if 65 ≤ c ∧ c ≤ 70 then .ofNat 32 (c.toNat - 55)
  else if 97 ≤ c ∧ c ≤ 102 then .ofNat 32 (c.toNat - 87)
  else 0

/-- The loop over the digits of a field, with the rest of the string. A `LONG` wraps. -/
def readField (result : BitVec 32) : Nat → List UInt8 → Option (BitVec 32 × List UInt8)
  | 0, temp => some (result, temp)
  | _ + 1, [] => none
  | n + 1, c :: temp => readField (result * 16 + htoi c) n temp

/-- The loop over `ucData6`. -/
def readArray : (n : Nat) → List UInt8 → Option (Vector (BitVec 8) n × List UInt8)
  | 0, temp => some (#v[], temp)
  | n + 1, temp => do
    let (values, temp) ← readArray n temp
    let (result, temp) ← readField 0 2 temp
    some (values.push (result.setWidth 8), temp)

/-- The characters from `pszUuid` on; those at the underscores are stepped over. -/
def UUID_UuidFromString (pszUuid : List UInt8) : Option DSP_UUID := do
  let (ulData1, temp) ← readField 0 8 pszUuid
  let (usData2, temp) ← readField 0 4 temp.tail
  let (usData3, temp) ← readField 0 4 temp.tail
  let (ucData4, temp) ← readField 0 2 temp.tail
  let (ucData5, temp) ← readField 0 2 temp
  let (ucData6, _) ← readArray 6 temp.tail
  some ⟨ulData1, usData2.setWidth 16, usData3.setWidth 16, ucData4.setWidth 8,
    ucData5.setWidth 8, ucData6⟩

/-! ## Tokens -/

def IsDelimiter (c : UInt8) (pstrDelim : List UInt8) : Bool := c ≠ 0 && pstrDelim.contains c

/-- The length of a token. -/
def tokenLength (szSeparators : List UInt8) : List UInt8 → Option Nat
  | [] => none
  | c :: rest =>
    if c ≠ 0 ∧ !IsDelimiter c szSeparators then (tokenLength szSeparators rest).map (· + 1)
    else some 0

/-- How many separators there are. -/
def delimiterLength (szSeparators : List UInt8) : List UInt8 → Option Nat
  | [] => none
  | c :: rest =>
    if IsDelimiter c szSeparators then (delimiterLength szSeparators rest).map (· + 1) else some 0

/-- `CSL_Strtokr` from the position `pstrTemp` on: the token, the buffer with the separators behind
it cleared, and the position for the next call. -/
def CSL_Strtokr (szSeparators buf : List UInt8) (pstrTemp : Nat) :
    Option (Option Nat × List UInt8 × Nat) := do
  let c ← buf[pstrTemp]?
  if c = 0 then some (none, buf, pstrTemp)
  else
    let length ← tokenLength szSeparators (buf.drop pstrTemp)
    let stop := pstrTemp + length
    let c ← buf[stop]?
    if c ≠ 0 then
      let n ← delimiterLength szSeparators (buf.drop stop)
      some (some pstrTemp, buf.take stop ++ .replicate n 0 ++ buf.drop (stop + n), stop + n)
    else some (some pstrTemp, buf, stop)

/-! ## The section -/

/-- `", "`. -/
def seps : List UInt8 := [44, 32]

def DOFF_ALIGN (x : Nat) : Nat := (x + 3) / 4 * 4

/-- The buffer with the section in it, and with the bytes that stand behind the section in the file:
`DLOAD_GetSection` rounds up what it reads. -/
def coffBuf (sect file : List UInt8) : List UInt8 :=
  sect ++ file.take (DOFF_ALIGN sect.length - sect.length)

/-- The loop over the tokens, with what is done for each. -/
def tokenLoop {β : Type} (pass : β → List UInt8 → Option β) :
    Nat → List UInt8 → Option Nat → Nat → β → Option β
  | _, _, none, _, acc => some acc
  | 0, _, some _, _, _ => none
  | turns + 1, buf, some pToken, pszCur, acc => do
    let acc ← pass acc (buf.drop pToken)
    let (pToken, buf, pszCur) ← CSL_Strtokr seps buf pszCur
    tokenLoop pass turns buf pToken pszCur acc

/-- `getSectDataFromLib` without a phase, for a section that was found and read. -/
def getSectData {β : Type} (pass : β → List UInt8 → Option β) (pszCoffBuf : List UInt8)
    (acc : β) : Option β := do
  let (pToken, buf, pszCur) ← CSL_Strtokr seps pszCoffBuf 0
  tokenLoop pass pszCoffBuf.length buf pToken pszCur acc

/-- The pass that counts, `pLibUUIDs` being `NULL`. -/
def countNodes (pszCoffBuf : List UInt8) : Option Nat :=
  getSectData (fun n _ => some (n + 1)) pszCoffBuf 0

/-- The pass that fills `pLibUUIDs`, with the number of nodes in it. -/
def fillNodes (pszCoffBuf : List UInt8) (pLibUUIDs : List DSP_UUID) :
    Option (List DSP_UUID × Nat) :=
  getSectData (fun (pLibUUIDs, nNodeNum) pToken => do
    let uuid ← UUID_UuidFromString pToken
    if nNodeNum < pLibUUIDs.length then some (pLibUUIDs.set nNodeNum uuid, nNodeNum + 1) else none)
    pszCoffBuf (pLibUUIDs, 0)

/-! ## There and back -/

theorem htoi_hexDigit {d : Nat} (hd : d < 16) : htoi (hexDigit d) = .ofNat 32 d := by
  interval_cases d <;> rfl

theorem length_hexDigits (n v : Nat) : (hexDigits n v).length = n := by
  induction n generalizing v with
  | zero => rfl
  | succ n ih => rw [hexDigits, List.length_cons, ih]

/-- The digits of a field are read back. -/
theorem readField_hexDigits (hv : v < 16 ^ n) (result : Nat) (temp : List UInt8) :
    readField (.ofNat 32 result) n (hexDigits n v ++ temp) =
      some (.ofNat 32 (result * 16 ^ n + v), temp) := by
  induction n generalizing v result with
  | zero =>
    have hzero : v = 0 := by omega
    rw [hzero, pow_zero, mul_one, add_zero]
    rfl
  | succ n ih =>
    have hdigit : v / 16 ^ n < 16 := Nat.div_lt_of_lt_mul (by rwa [pow_succ] at hv)
    have hrest : v % 16 ^ n < 16 ^ n := mod_lt _ (by positivity)
    have hresult : BitVec.ofNat 32 result * 16 + htoi (hexDigit (v / 16 ^ n)) =
        .ofNat 32 (result * 16 + v / 16 ^ n) := by
      rw [htoi_hexDigit hdigit, BitVec.ofNat_add, BitVec.ofNat_mul]
      rfl
    have hvalue : (result * 16 + v / 16 ^ n) * 16 ^ n + v % 16 ^ n = result * 16 ^ (n + 1) + v := by
      rw [Nat.add_mul, Nat.add_assoc, Nat.div_add_mod', Nat.mul_assoc, ← pow_succ']
    rw [hexDigits, List.cons_append, readField, hresult, ih hrest, hvalue]

/-- A field that starts with nothing. -/
theorem readField_toNat (b : BitVec w) (hw : 2 ^ w ≤ 16 ^ n) (temp : List UInt8) :
    readField 0 n (hexDigits n b.toNat ++ temp) = some (.ofNat 32 b.toNat, temp) := by
  have hread := readField_hexDigits (lt_of_lt_of_le b.isLt hw) 0 temp
  rwa [zero_mul, zero_add] at hread

theorem setWidth_ofNat_toNat (b : BitVec w) (hw : w ≤ 32) :
    (BitVec.ofNat 32 b.toNat).setWidth w = b := by
  apply BitVec.eq_of_toNat_eq
  have hlt : 2 ^ w ≤ 2 ^ 32 := Nat.pow_le_pow_right (by decide) hw
  rw [BitVec.toNat_setWidth, BitVec.toNat_ofNat, mod_eq_of_lt (lt_of_lt_of_le b.isLt hlt),
    mod_eq_of_lt b.isLt]

theorem readArray_hexDigits (values : Vector (BitVec 8) n) (temp : List UInt8) :
    readArray n ((values.toList.flatMap fun b => hexDigits 2 b.toNat) ++ temp) =
      some (values, temp) := by
  induction n generalizing temp with
  | zero =>
    obtain rfl : values = #v[] := Vector.eq_empty
    rfl
  | succ n ih =>
    have htext : (values.toList.flatMap fun b => hexDigits 2 b.toNat) ++ temp =
        (values.pop.toList.flatMap fun b => hexDigits 2 b.toNat) ++
          (hexDigits 2 values.back.toNat ++ temp) := by
      conv_lhs => rw [← Vector.push_pop_back values]
      rw [Vector.toList_push, List.flatMap_append, List.flatMap_singleton, List.append_assoc]
    rw [htext, readArray, ih]
    show (do
      let (result, temp) ← readField 0 2 (hexDigits 2 values.back.toNat ++ temp)
      some (values.pop.push (result.setWidth 8), temp)) = some (values, temp)
    rw [readField_toNat values.back (by decide)]
    show some (values.pop.push ((BitVec.ofNat 32 values.back.toNat).setWidth 8), temp) = _
    rw [setWidth_ofNat_toNat _ (by decide), Vector.push_pop_back]

/-- The string of a UUID is read back, whatever stands behind it. -/
theorem fromString_uuidText (u : DSP_UUID) (rest : List UInt8) :
    UUID_UuidFromString (uuidText u ++ rest) = some u := by
  have h1 := readField_toNat u.ulData1 (n := 8) (by decide)
  have h2 := readField_toNat u.usData2 (n := 4) (by decide)
  have h3 := readField_toNat u.usData3 (n := 4) (by decide)
  have h4 := readField_toNat u.ucData4 (n := 2) (by decide)
  have h5 := readField_toNat u.ucData5 (n := 2) (by decide)
  unfold UUID_UuidFromString uuidText
  simp only [List.append_assoc, List.cons_append, h1, h2, h3, h4, h5, readArray_hexDigits,
    List.tail_cons, bind_eq_bind, bind_some]
  rw [setWidth_ofNat_toNat _ (by decide), setWidth_ofNat_toNat _ (by decide),
    setWidth_ofNat_toNat _ (by decide), setWidth_ofNat_toNat _ (by decide), BitVec.ofNat_toNat,
    BitVec.setWidth_eq]

theorem length_uuidText (u : DSP_UUID) : (uuidText u).length = 36 := by
  have harray : (u.ucData6.toList.flatMap fun b => hexDigits 2 b.toNat).length = 12 := by
    rw [List.length_flatMap]
    simp [length_hexDigits]
  simp [uuidText, length_hexDigits, harray]

/-- What `UUID_UuidFromString` makes of what `UUID_UuidToString` wrote. -/
theorem fromString_toString (u : DSP_UUID) {size : Nat} (hsize : MAXUUIDLEN ≤ size) :
    UUID_UuidFromString (UUID_UuidToString u size) = some u := by
  have hlength := length_uuidText u
  unfold MAXUUIDLEN at hsize
  unfold UUID_UuidToString
  rw [List.take_of_length_le (by omega)]
  exact fromString_uuidText u [0]

/-! ## Tokens in a text -/

/-- A character inside a token. -/
def Inside (c : UInt8) : Prop := c ≠ 0 ∧ IsDelimiter c seps = false

theorem inside_hexDigit (d : Nat) (hd : d < 16) : Inside (hexDigit d) := by
  unfold Inside
  interval_cases d <;> decide

theorem inside_hexDigits (hv : v < 16 ^ n) : ∀ c ∈ hexDigits n v, Inside c := by
  induction n generalizing v with
  | zero => exact fun c hc => absurd hc List.not_mem_nil
  | succ n ih =>
    intro c hc
    rcases List.mem_cons.mp hc with rfl | hc
    · exact inside_hexDigit _ (Nat.div_lt_of_lt_mul (by rwa [pow_succ] at hv))
    · exact ih (mod_lt _ (by positivity)) c hc

theorem inside_toNat (b : BitVec w) (hw : 2 ^ w ≤ 16 ^ n) :
    ∀ c ∈ hexDigits n b.toNat, Inside c :=
  inside_hexDigits (lt_of_lt_of_le b.isLt hw)

theorem inside_uuidText (u : DSP_UUID) : ∀ c ∈ uuidText u, Inside c := by
  have hunderscore : Inside underscore := by
    unfold Inside
    decide
  intro c hc
  simp only [uuidText, List.mem_append, List.mem_cons, List.mem_flatMap] at hc
  rcases hc with ((((h | rfl | h) | rfl | h) | rfl | h) | h) | rfl | ⟨b, -, h⟩
  · exact inside_toNat u.ulData1 (by decide) c h
  · exact hunderscore
  · exact inside_toNat u.usData2 (by decide) c h
  · exact hunderscore
  · exact inside_toNat u.usData3 (by decide) c h
  · exact hunderscore
  · exact inside_toNat u.ucData4 (by decide) c h
  · exact inside_toNat u.ucData5 (by decide) c h
  · exact hunderscore
  · exact inside_toNat b (by decide) c h

variable {token spaces rest buf : List UInt8} {c : UInt8} {cur : Nat}

theorem tokenLength_append (htoken : ∀ c ∈ token, Inside c) (hc : ¬Inside c) :
    tokenLength seps (token ++ c :: rest) = some token.length := by
  induction token with
  | nil =>
    rw [List.nil_append, tokenLength, if_neg fun h => hc ⟨h.1, by simpa using h.2⟩]
    rfl
  | cons d token ih =>
    have hd := htoken d List.mem_cons_self
    rw [List.cons_append, tokenLength, if_pos ⟨hd.1, by rw [hd.2]; rfl⟩,
      ih fun c hc => htoken c (List.mem_cons_of_mem d hc)]
    rfl

theorem delimiterLength_append (hspaces : ∀ c ∈ spaces, IsDelimiter c seps)
    (hc : IsDelimiter c seps = false) :
    delimiterLength seps (spaces ++ c :: rest) = some spaces.length := by
  induction spaces with
  | nil =>
    rw [List.nil_append, delimiterLength, if_neg (by rw [hc]; exact Bool.false_ne_true)]
    rfl
  | cons d spaces ih =>
    rw [List.cons_append, delimiterLength, if_pos (hspaces d List.mem_cons_self),
      ih fun c hc => hspaces c (List.mem_cons_of_mem d hc)]
    rfl

/-- The buffer from a position on, which is in the buffer if anything is there. -/
theorem getElem?_of_drop (h : buf.drop cur = token ++ c :: rest) :
    buf[cur + token.length]? = some c := by
  rw [← List.getElem?_drop, h, List.getElem?_append_right (Nat.le_refl _), Nat.sub_self,
    List.getElem?_cons_zero]

/-- A token with separators behind it, and more. -/
theorem strtokr_token (htoken : ∀ c ∈ token, Inside c) (hsome : token ≠ [])
    (hspaces : ∀ c ∈ spaces, IsDelimiter c seps) (hc : IsDelimiter c seps = false)
    (hend : spaces = [] → c = 0) (hbuf : buf.drop cur = token ++ (spaces ++ c :: rest)) :
    ∃ buf', CSL_Strtokr seps buf cur = some (some cur, buf', cur + token.length + spaces.length) ∧
      buf'.drop cur = token ++ (.replicate spaces.length 0 ++ c :: rest) ∧
        buf'.drop (cur + token.length + spaces.length) = c :: rest := by
  obtain ⟨first, token', rfl⟩ := List.exists_cons_of_ne_nil hsome
  have hfirst : buf[cur]? = some first := @getElem?_of_drop [] _ _ _ _ hbuf
  have hstop : buf.drop (cur + (first :: token').length) = spaces ++ c :: rest := by
    rw [← List.drop_drop, hbuf, List.drop_left]
  have hafter : buf.drop (cur + (first :: token').length + spaces.length) = c :: rest := by
    rw [← List.drop_drop, hstop, List.drop_left]
  unfold CSL_Strtokr
  rw [hfirst, hbuf]
  cases spaces with
  | nil =>
    obtain rfl : c = 0 := hend rfl
    refine ⟨buf, ?_, hbuf, hafter⟩
    rw [List.nil_append, tokenLength_append htoken fun h => h.1 rfl]
    have hzero : buf[cur + (first :: token').length]? = some 0 := getElem?_of_drop hbuf
    simp only [bind_eq_bind, bind_some, (htoken first List.mem_cons_self).1, if_false,
      hzero, ne_eq, not_true]
    rfl
  | cons d spaces =>
    have hd := hspaces d List.mem_cons_self
    have hdNe : d ≠ 0 := by
      rintro rfl
      exact absurd hd (by decide)
    have hseparator : buf[cur + (first :: token').length]? = some d := getElem?_of_drop hbuf
    have htake : (buf.take (cur + (first :: token').length)).length =
      cur + (first :: token').length := by
      have hlt := (List.getElem?_eq_some_iff.mp hseparator).1
      rw [List.length_take]
      omega
    have hfront : (buf.take (cur + (first :: token').length)).drop cur = first :: token' := by
      rw [List.drop_take, Nat.add_sub_cancel_left, hbuf, List.take_left]
    have hcleared : (buf.take (cur + (first :: token').length) ++
        List.replicate (d :: spaces).length 0).length =
          cur + (first :: token').length + (d :: spaces).length := by
      rw [List.length_append, htake, List.length_replicate]
    refine ⟨buf.take (cur + (first :: token').length) ++ .replicate (d :: spaces).length 0 ++
      (c :: rest), ?_, ?_, ?_⟩
    · have hlength : tokenLength seps (first :: token' ++ (d :: spaces ++ c :: rest)) =
          some (first :: token').length :=
        tokenLength_append htoken fun h => absurd hd (by rw [h.2]; decide)
      rw [hlength]
      simp only [bind_eq_bind, bind_some, (htoken first List.mem_cons_self).1, if_false,
        hseparator, ne_eq, hdNe, not_false_eq_true, if_true, hstop,
        delimiterLength_append hspaces hc, hafter]
    · rw [List.append_assoc, List.drop_append_of_le_length (by rw [htake]; omega), hfront]
    · exact List.drop_left' hcleared

/-- Without a zero from the position on there is a token, or the end of the buffer is run over. -/
theorem strtokr_of_ne_zero {pToken : Option Nat} {buf' : List UInt8} {cur' : Nat}
    (hbuf : ∀ c ∈ buf.drop cur, c ≠ 0)
    (h : CSL_Strtokr seps buf cur = some (pToken, buf', cur')) :
    pToken ≠ none ∧ ∀ c ∈ buf'.drop cur', c ≠ 0 := by
  have hne (i : Nat) (c : UInt8) (hi : buf[cur + i]? = some c) : c ≠ 0 :=
    hbuf c (List.mem_of_getElem? (List.getElem?_drop.trans hi))
  obtain ⟨first, hfirst, h⟩ := bind_eq_some_iff.mp h
  rw [if_neg (hne 0 first hfirst)] at h
  obtain ⟨length, -, h⟩ := bind_eq_some_iff.mp h
  obtain ⟨c, hstop, h⟩ := bind_eq_some_iff.mp h
  rw [if_pos (hne length c hstop)] at h
  obtain ⟨n, -, h⟩ := bind_eq_some_iff.mp h
  cases h
  have hcleared : (buf.take (cur + length) ++ List.replicate n 0).length = cur + length + n := by
    have hlt := (List.getElem?_eq_some_iff.mp hstop).1
    rw [List.length_append, List.length_take, List.length_replicate]
    omega
  refine ⟨Option.some_ne_none _, fun c hc => ?_⟩
  rw [List.drop_left' hcleared, Nat.add_assoc, ← List.drop_drop] at hc
  exact hbuf c (List.mem_of_mem_drop hc)

/-! ## The two passes -/

/-- UUIDs, each with the separators that stand behind it. -/
def sectionText (nodes : List (DSP_UUID × List UInt8)) : List UInt8 :=
  nodes.flatMap fun node => uuidText node.1 ++ node.2

/-- There are separators between the UUIDs, and perhaps behind the last. -/
structure Separated (nodes : List (DSP_UUID × List UInt8)) : Prop where
  separators : ∀ node ∈ nodes, ∀ c ∈ node.2, c ∈ seps
  between : ∀ node ∈ nodes.dropLast, node.2 ≠ []

/-- Both passes find these UUIDs. -/
def ReadsBoth (pszCoffBuf : List UInt8) (uuids : List DSP_UUID) : Prop :=
  countNodes pszCoffBuf = some uuids.length ∧
    ∀ pLibUUIDs, pLibUUIDs.length = uuids.length →
      fillNodes pszCoffBuf pLibUUIDs = some (uuids, uuids.length)

/-- They do, also where the memory ends one character behind the first `size` ones. -/
def ReadsWithin (pszCoffBuf : List UInt8) (size : Nat) (uuids : List DSP_UUID) : Prop :=
  ReadsBoth pszCoffBuf uuids ∧ ReadsBoth (pszCoffBuf.take (size + 1)) uuids

variable {node : DSP_UUID × List UInt8} {nodes : List (DSP_UUID × List UInt8)} {u : DSP_UUID}

theorem uuidText_ne_nil (u : DSP_UUID) : uuidText u ≠ [] := by
  intro hnil
  have hlength := length_uuidText u
  rw [hnil] at hlength
  cases hlength

theorem sectionText_cons :
    sectionText (node :: nodes) = uuidText node.1 ++ (node.2 ++ sectionText nodes) := by
  unfold sectionText
  rw [List.flatMap_cons, List.append_assoc]

theorem Separated.tail (h : Separated (node :: nodes)) : Separated nodes where
  separators other hother := h.separators other (List.mem_cons_of_mem node hother)
  between other hother := by
    cases nodes with
    | nil => exact absurd hother List.not_mem_nil
    | cons next nodes => exact h.between other (List.mem_cons_of_mem node hother)

theorem Separated.delimiters (h : Separated (node :: nodes)) :
    ∀ c ∈ node.2, IsDelimiter c seps = true := by
  intro c hc
  have hmem := h.separators node List.mem_cons_self c hc
  simp only [seps, List.mem_cons, List.not_mem_nil, or_false] at hmem
  rcases hmem with rfl | rfl
  · decide
  · decide

/-- The character behind a UUID and its separators, if the text goes on. -/
theorem Separated.next {next : DSP_UUID × List UInt8} (h : Separated (node :: next :: nodes))
    (tail : List UInt8) : ∃ c rest, sectionText (next :: nodes) ++ tail = c :: rest ∧
      IsDelimiter c seps = false ∧ (node.2 = [] → c = 0) := by
  obtain ⟨c, rest, htext⟩ := List.exists_cons_of_ne_nil (uuidText_ne_nil next.1)
  have hinside : Inside c := inside_uuidText next.1 c (htext ▸ List.mem_cons_self)
  refine ⟨c, rest ++ (next.2 ++ sectionText nodes) ++ tail, ?_, hinside.2, fun hnone => ?_⟩
  · rw [sectionText_cons, htext]
    simp only [List.cons_append]
  · exact absurd hnone (h.between node List.mem_cons_self)

section Pass

variable {β : Type} {pass : β → List UInt8 → Option β} {f : β → DSP_UUID → Option β} {acc : β}

/-- A token is taken, and the search for the next one follows. -/
def tokensFrom (pass : β → List UInt8 → Option β) (turns : Nat) (buf : List UInt8) (cur : Nat)
    (acc : β) : Option β := do
  let (pToken, buf, pszCur) ← CSL_Strtokr seps buf cur
  tokenLoop pass turns buf pToken pszCur acc

/-- One UUID of the text. -/
theorem tokensFrom_node (turns : Nat) (acc : β)
    (hpass : ∀ acc u rest, pass acc (uuidText u ++ rest) = f acc u)
    (hspaces : ∀ c ∈ spaces, IsDelimiter c seps)
    (hc : IsDelimiter c seps = false) (hend : spaces = [] → c = 0)
    (hbuf : buf.drop cur = uuidText u ++ (spaces ++ c :: rest)) :
    ∃ buf', buf'.drop (cur + (uuidText u).length + spaces.length) = c :: rest ∧
      tokensFrom pass (turns + 1) buf cur acc =
        (f acc u).bind (tokensFrom pass turns buf'
          (cur + (uuidText u).length + spaces.length)) := by
  obtain ⟨buf', hstrtokr, htoken, hrest⟩ :=
    strtokr_token (inside_uuidText u) (uuidText_ne_nil u) hspaces hc hend hbuf
  refine ⟨buf', hrest, ?_⟩
  unfold tokensFrom
  rw [hstrtokr]
  show tokenLoop pass (turns + 1) buf' (some cur) _ acc = _
  rw [tokenLoop, htoken, hpass]
  rfl

/-- Where something ends the text, every UUID is passed on. -/
theorem tokensFrom_terminated (hpass : ∀ acc u rest, pass acc (uuidText u ++ rest) = f acc u)
    (h : Separated nodes) (hturns : nodes.length ≤ turns)
    (hbuf : buf.drop cur = sectionText nodes ++ 0 :: rest) :
    tokensFrom pass turns buf cur acc = nodes.foldlM (fun acc node => f acc node.1) acc := by
  induction nodes generalizing turns buf cur acc with
  | nil =>
    have hend : buf[cur]? = some 0 := @getElem?_of_drop [] _ _ _ _ hbuf
    unfold tokensFrom CSL_Strtokr
    rw [hend]
    cases turns <;> rfl
  | cons node nodes ih =>
    obtain ⟨turns, rfl⟩ : ∃ k, turns = k + 1 :=
      ⟨turns - 1, by rw [List.length_cons] at hturns; omega⟩
    have hnext : ∃ c rest', sectionText nodes ++ 0 :: rest = c :: rest' ∧
        IsDelimiter c seps = false ∧ (node.2 = [] → c = 0) := by
      cases nodes with
      | nil => exact ⟨0, rest, rfl, by decide, fun _ => rfl⟩
      | cons next nodes => exact h.next _
    obtain ⟨c, rest', htext, hc, hend⟩ := hnext
    rw [sectionText_cons, List.append_assoc, List.append_assoc, htext] at hbuf
    obtain ⟨buf', hrest, hstep⟩ :=
      tokensFrom_node turns acc hpass h.delimiters hc hend hbuf
    rw [hstep, List.foldlM_cons]
    refine congrArg (f acc node.1).bind (funext fun acc => ?_)
    exact ih h.tail (le_of_succ_le_succ hturns) (hrest.trans htext.symm)

/-- Where nothing does, the end of the buffer is run over. -/
theorem tokensFrom_unterminated (hbuf : ∀ c ∈ buf.drop cur, c ≠ 0) :
    tokensFrom pass turns buf cur acc = none := by
  induction turns generalizing buf cur acc with
  | zero =>
    unfold tokensFrom
    cases hstrtokr : CSL_Strtokr seps buf cur with
    | none => rfl
    | some found =>
      obtain ⟨pToken, buf', cur'⟩ := found
      obtain ⟨token, rfl⟩ := ne_none_iff_exists'.mp (strtokr_of_ne_zero hbuf hstrtokr).1
      rfl
  | succ turns ih =>
    unfold tokensFrom
    cases hstrtokr : CSL_Strtokr seps buf cur with
    | none => rfl
    | some found =>
      obtain ⟨pToken, buf', cur'⟩ := found
      obtain ⟨hsome, hrest⟩ := strtokr_of_ne_zero hbuf hstrtokr
      obtain ⟨token, rfl⟩ := ne_none_iff_exists'.mp hsome
      show (pass acc (buf'.drop token)).bind (tokensFrom pass turns buf' cur') = none
      cases pass acc (buf'.drop token) with
      | none => rfl
      | some acc => exact ih hrest

end Pass

/-- What the pass that counts does with the nodes. -/
theorem count_nodes (n : Nat) (nodes : List (DSP_UUID × List UInt8)) :
    nodes.foldlM (fun n _ => some (n + 1)) n = some (n + nodes.length) := by
  induction nodes generalizing n with
  | nil => rfl
  | cons node nodes ih =>
    rw [List.foldlM_cons, bind_eq_bind, bind_some, ih, List.length_cons,
      add_assoc, add_comm 1]

/-- What the pass that fills does with a UUID. -/
def fillNode (filled : List DSP_UUID × Nat) (uuid : DSP_UUID) : Option (List DSP_UUID × Nat) :=
  if filled.2 < filled.1.length then some (filled.1.set filled.2 uuid, filled.2 + 1) else none

theorem fill_nodes (done pending : List DSP_UUID) (nodes : List (DSP_UUID × List UInt8))
    (hlength : pending.length = nodes.length) :
    nodes.foldlM (fun filled node => fillNode filled node.1) (done ++ pending, done.length) =
      some (done ++ nodes.map Prod.fst, done.length + nodes.length) := by
  induction nodes generalizing done pending with
  | nil =>
    obtain rfl : pending = [] := List.eq_nil_of_length_eq_zero hlength
    rfl
  | cons node nodes ih =>
    obtain ⟨first, pending, rfl⟩ := List.exists_cons_of_length_eq_add_one hlength
    have hroom : done.length < (done ++ first :: pending).length := by
      rw [List.length_append, List.length_cons]
      omega
    have hset : (done ++ first :: pending).set done.length node.1 =
      done ++ [node.1] ++ pending := by
      rw [List.set_append_right _ _ (Nat.le_refl _), Nat.sub_self, List.set_cons_zero,
        List.append_assoc, List.singleton_append]
    have hcount : done.length + 1 = (done ++ [node.1]).length := by rw [List.length_append]; rfl
    rw [List.foldlM_cons, fillNode, if_pos hroom, hset, hcount, bind_eq_bind,
      bind_some, ih _ _ (succ.inj hlength), ← hcount, List.map_cons, List.append_assoc,
      List.singleton_append, List.length_cons, add_assoc, add_comm 1]

theorem length_le_sectionText (nodes : List (DSP_UUID × List UInt8)) :
    nodes.length ≤ (sectionText nodes).length := by
  induction nodes with
  | nil => exact zero_le _
  | cons node nodes ih =>
    have hlength := length_uuidText node.1
    rw [sectionText_cons, List.length_append, List.length_append, List.length_cons]
    omega

theorem Separated.ne_zero (h : Separated nodes) : ∀ c ∈ sectionText nodes, c ≠ 0 := by
  intro c hc
  obtain ⟨node, hnode, hc⟩ := List.mem_flatMap.mp hc
  rcases List.mem_append.mp hc with hc | hc
  · exact (inside_uuidText node.1 c hc).1
  · rintro rfl
    exact absurd (h.separators node hnode 0 hc) (by decide)

/-- Both passes over a text with a zero behind it. -/
theorem readsBoth_terminated (h : Separated nodes) (rest : List UInt8) :
    ReadsBoth (sectionText nodes ++ 0 :: rest) (nodes.map Prod.fst) := by
  have hturns : nodes.length ≤ (sectionText nodes ++ 0 :: rest).length := by
    have htext := length_le_sectionText nodes
    rw [List.length_append]
    omega
  refine ⟨?_, fun pLibUUIDs hlength => ?_⟩
  · have hfound : countNodes (sectionText nodes ++ 0 :: rest) = _ :=
      tokensFrom_terminated (f := fun n _ => some (n + 1))
        (fun _ _ _ => rfl) h hturns List.drop_zero
    rw [hfound, count_nodes, zero_add, List.length_map]
  · have hfill (filled : List DSP_UUID × Nat) (u : DSP_UUID) (rest : List UInt8) :
        (do
          let uuid ← UUID_UuidFromString (uuidText u ++ rest)
          if filled.2 < filled.1.length then some (filled.1.set filled.2 uuid, filled.2 + 1)
          else none) = fillNode filled u := by
      rw [fromString_uuidText]
      rfl
    have hfound : fillNodes (sectionText nodes ++ 0 :: rest) pLibUUIDs = _ :=
      tokensFrom_terminated (f := fillNode) hfill h hturns List.drop_zero
    rw [List.length_map] at hlength
    rw [hfound, List.length_map]
    have hfilled := fill_nodes [] pLibUUIDs nodes hlength
    rwa [List.nil_append, List.nil_append, List.length_nil, zero_add] at hfilled

namespace Sections

def someNode : DSP_UUID := ⟨0x5a, 0x1234, 0, 0xab, 0, #v[1, 2, 3, 4, 5, 6]⟩

def someNodes : List (DSP_UUID × List UInt8) :=
  [(someNode, [44, 32]), ({ someNode with ulData1 := 0xb7 }, [])]

theorem separated_someNodes : Separated someNodes :=
  ⟨by simp [someNodes, seps], by simp [someNodes]⟩

end Sections

end OmapHal.DynReg
