import OmapHal.VideoDecoder.AvcHeader
import OmapHal.VideoDecoder.NalPacking

/-!
# The framing of AVC

The units of a stream stand behind start codes or behind their lengths. In both framings
`VIDDEC_ParseVideo_H264` passes the other units up to the sequence parameter set, and what it finds
there is what it finds in the set by itself.
-/

namespace OmapHal.VideoDecoder

open OmapHal.Core List Nat Option

/-! ## Start codes -/

section Start

variable {pBuffer : Memory} {nTotalInBytes i q : Nat}

/-- A start code begins at the byte. -/
def StartsAt (pBuffer : Memory) (q : Nat) : Prop :=
  pBuffer q = 0 ∧ pBuffer (q + 1) = 0 ∧ pBuffer (q + 2) = 1

instance (pBuffer : Memory) : DecidablePred (StartsAt pBuffer) :=
  fun _ => inferInstanceAs (Decidable (_ ∧ _))

/-- A start code hides the next two bytes. -/
theorem StartsAt.apart (h : StartsAt pBuffer i) (hq : StartsAt pBuffer q) (hlt : i < q) :
    i + 3 ≤ q := by
  have hne : (0 : UInt8) ≠ 1 := by decide
  by_contra hclose
  have hcases : q = i + 1 ∨ q = i + 2 := by omega
  rcases hcases with rfl | rfl
  · exact hne (hq.2.1.symm.trans h.2.2)
  · exact hne (hq.1.symm.trans h.2.2)

private theorem sub_three (h : 3 ≤ nTotalInBytes) (hlarge : nTotalInBytes < 2 ^ 29) :
    (nTotalInBytes + 2 ^ 32 - 3) % 2 ^ 32 = nTotalInBytes - 3 := by
  omega

/-- The scan ends behind the first start code. -/
theorem findStartCode_eq (turns : Nat) (hfirst : ∀ j, i ≤ j → j < q → ¬StartsAt pBuffer j)
    (hstart : StartsAt pBuffer q) (hi : i ≤ q) (hq : q + 3 < nTotalInBytes)
    (hlarge : nTotalInBytes < 2 ^ 29) (hturns : q - i < turns) (readEnd : Nat) :
    ∃ readEnd', findStartCode nTotalInBytes turns i pBuffer ⟨8 * i, readEnd⟩ =
      some ((true, q + 3), ⟨8 * (q + 3), readEnd'⟩) := by
  induction turns generalizing i readEnd with
  | zero => omega
  | succ turns ih =>
    have hlimit := sub_three (by omega) hlarge
    rw [findStartCode, if_pos (by omega), HeaderReader.bind_some (peek_eq pBuffer i readEnd)]
    by_cases hcode : StartsAt pBuffer i
    · have heq : i = q := by
        by_contra hne
        exact hfirst i (le_refl i) (by omega) hcode
      subst heq
      have hvalue := (bits_startCode pBuffer i).mpr hcode
      have hmod : (i + 3) % 2 ^ 32 = i + 3 := mod_eq_of_lt (by omega)
      rw [if_neg (not_not.mpr hvalue),
        HeaderReader.bind_some (advance_bytes 3 i _ (by omega)), hmod]
      exact ⟨_, rfl⟩
    · have hvalue : bits (byteBits pBuffer) (8 * i) 24 ≠ 1 :=
        fun h => hcode ((bits_startCode pBuffer i).mp h)
      have hne : i ≠ q := fun h => hcode (h ▸ hstart)
      rw [if_pos hvalue, HeaderReader.bind_some (advance_bytes 1 i _ (by omega))]
      exact ih (fun j hj => hfirst j (by omega)) (by omega) (by omega) _

/-- The start codes of a range. -/
def startCodes (pBuffer : Memory) (i n : Nat) : Finset Nat :=
  (Finset.Ico i n).filter (StartsAt pBuffer)

theorem startCodes_of_not (h : ¬StartsAt pBuffer i) (n : Nat) :
    startCodes pBuffer i n = startCodes pBuffer (i + 1) n := by
  ext q
  simp only [startCodes, Finset.mem_filter, Finset.mem_Ico]
  constructor
  · rintro ⟨⟨hle, hlt⟩, hq⟩
    have hne : i ≠ q := fun heq => h (heq ▸ hq)
    exact ⟨⟨by omega, hlt⟩, hq⟩
  · rintro ⟨⟨hle, hlt⟩, hq⟩
    exact ⟨⟨by omega, hlt⟩, hq⟩

theorem startCodes_of_starts (h : StartsAt pBuffer i) {n : Nat} (hn : i < n) :
    startCodes pBuffer i n = insert i (startCodes pBuffer (i + 3) n) := by
  ext q
  simp only [startCodes, Finset.mem_insert, Finset.mem_filter, Finset.mem_Ico]
  constructor
  · rintro ⟨⟨hle, hlt⟩, hq⟩
    rcases eq_or_lt_of_le hle with heq | hgt
    · exact .inl heq.symm
    · exact .inr ⟨⟨h.apart hq hgt, hlt⟩, hq⟩
  · rintro (rfl | ⟨⟨hle, hlt⟩, hq⟩)
    · exact ⟨⟨le_refl q, hn⟩, h⟩
    · exact ⟨⟨by omega, hlt⟩, hq⟩

/-- The scan counts the start codes before the last three bytes. -/
theorem countStartCodes_eq (pBuffer : Memory) (turns : Nat) (hlow : 3 ≤ nTotalInBytes)
    (hlarge : nTotalInBytes < 2 ^ 29) (hi : i ≤ nTotalInBytes) (n : Nat)
    (hturns : nTotalInBytes - i < turns) (readEnd : Nat) :
    ∃ c, countStartCodes nTotalInBytes turns i n pBuffer ⟨8 * i, readEnd⟩ =
      some (n + (startCodes pBuffer i (nTotalInBytes - 3)).card, c) := by
  induction turns generalizing i n readEnd with
  | zero => omega
  | succ turns ih =>
    rw [countStartCodes, sub_three hlow hlarge]
    split_ifs with hlt
    · rw [HeaderReader.bind_some (peek_eq pBuffer i readEnd)]
      by_cases hcode : StartsAt pBuffer i
      · have hvalue := (bits_startCode pBuffer i).mpr hcode
        have hmod : (i + 3) % 2 ^ 32 = i + 3 := mod_eq_of_lt (by omega)
        have hnot : i ∉ startCodes pBuffer (i + 3) (nTotalInBytes - 3) := by
          simp [startCodes]
        rw [if_neg (not_not.mpr hvalue),
          HeaderReader.bind_some (advance_bytes 3 i _ (by omega)), hmod,
          startCodes_of_starts hcode hlt, Finset.card_insert_of_notMem hnot,
          add_comm (Finset.card _), ← add_assoc n]
        exact ih (by omega) (n + 1) (by omega) _
      · have hvalue : bits (byteBits pBuffer) (8 * i) 24 ≠ 1 :=
          fun h => hcode ((bits_startCode pBuffer i).mp h)
        rw [if_pos hvalue, HeaderReader.bind_some (advance_bytes 1 i _ (by omega)),
          startCodes_of_not hcode]
        exact ih (by omega) n (by omega) _
    · have hempty : startCodes pBuffer i (nTotalInBytes - 3) = ∅ := by
        rw [startCodes, Finset.Ico_eq_empty (by omega), Finset.filter_empty]
      rw [hempty, Finset.card_empty]
      exact ⟨_, rfl⟩

end Start

/-! ## Units -/

/-- A unit of the stream, as its bytes stand there. -/
structure NalUnit where
  header : UInt8
  payload : List UInt8
  plain : Plain (header :: payload)

def NalUnit.bytes (unit : NalUnit) : List UInt8 := unit.header :: unit.payload

def NalUnit.nal_unit_type (unit : NalUnit) : Nat := unit.header.toNat % 32

/-- A unit with emulation prevention. -/
def NalUnit.escaped (header : UInt8) (hheader : header ≠ 0) (rbsp : List UInt8) : NalUnit where
  header := header
  payload := escape 0 rbsp
  plain := plain_cons_of_ne_zero hheader (plain_escape rbsp).1

/-- A parameter set as it is coded. The raw bytes begin with its elements and end with the byte
that has the stop bit. -/
structure CodedSet where
  sps : SeqParameterSet
  valid : sps.Valid
  nal_ref_idc : BitVec 2
  rbsp : List UInt8
  elements : Stands (byteBits (bufferOf rbsp)) 0 (encodeElements sps.elements)
  within : (encodeElements sps.elements).length ≤ 8 * rbsp.length
  stopped : EndsNonzero rbsp

def CodedSet.header (set : CodedSet) : UInt8 := UInt8.ofNat (set.nal_ref_idc.toNat * 32 + 7)

theorem CodedSet.header_toNat (set : CodedSet) :
    set.header.toNat = set.nal_ref_idc.toNat * 32 + 7 := by
  have href := set.nal_ref_idc.isLt
  rw [header, UInt8.toNat_ofNat', mod_eq_of_lt (by omega)]

theorem CodedSet.header_ne_zero (set : CodedSet) : set.header ≠ 0 := fun h => by
  have hvalue := set.header_toNat
  rw [h] at hvalue
  change 0 = _ at hvalue
  omega

/-- The unit of the parameter set. -/
def CodedSet.unit (set : CodedSet) : NalUnit :=
  NalUnit.escaped set.header set.header_ne_zero set.rbsp

theorem CodedSet.nal_unit_type_unit (set : CodedSet) : set.unit.nal_unit_type = 7 := by
  have hvalue := set.header_toNat
  rw [NalUnit.nal_unit_type, unit, NalUnit.escaped, hvalue]
  omega

/-- A start code behind some zeros. -/
def startCode (zeros : Nat) : List UInt8 := List.replicate zeros 0 ++ [0, 0, 1]

/-- Units, each behind a start code. -/
def byteStream (units : List (Nat × NalUnit)) : List UInt8 :=
  units.flatMap fun unit => startCode unit.1 ++ unit.2.bytes

section Locate

variable {pBuffer : Memory} {nTotalInBytes i z : Nat} {data more : List UInt8}

theorem read_append_iff {xs ys : List UInt8} : pBuffer.read i (xs ++ ys).length = xs ++ ys ↔
    pBuffer.read i xs.length = xs ∧ pBuffer.read (i + xs.length) ys.length = ys := by
  rw [length_append, Memory.read_append]
  constructor
  · intro h
    exact append_inj h (Memory.length_read _ _ _)
  · rintro ⟨hx, hy⟩
    rw [hx, hy]

theorem eq_of_read {xs : List UInt8} (h : pBuffer.read i xs.length = xs) (j : Nat) (b : UInt8)
    (hj : xs[j]? = some b) : pBuffer (i + j) = b := by
  obtain ⟨hlt, -⟩ := List.getElem?_eq_some_iff.mp hj
  have hget := Memory.getElem?_read pBuffer i hlt
  rw [h, hj] at hget
  exact (some.inj hget).symm

private theorem length_startCode (zeros : Nat) : (startCode zeros).length = zeros + 3 := by
  rw [startCode, length_append, length_replicate]
  rfl

theorem plain_append_zeros (hplain : Plain data) (z : Nat) :
    Plain (data ++ List.replicate z 0) := by
  rintro i ⟨hfirst, hsecond, hthird⟩
  by_cases hin : i + 2 < data.length
  · rw [getElem?_append_left (by omega)] at hfirst hsecond hthird
    exact hplain i ⟨hfirst, hsecond, hthird⟩
  · rw [getElem?_append_right (by omega)] at hthird
    have hzero := eq_of_mem_replicate (mem_of_getElem? hthird)
    exact absurd hzero (by decide)

/-- The first start code behind plain data. -/
theorem first_startCode (hplain : Plain data)
    (hread : pBuffer.read i (data ++ (startCode z ++ more)).length =
      data ++ (startCode z ++ more)) :
    StartsAt pBuffer (i + data.length + z) ∧
      ∀ j, i ≤ j → j < i + data.length + z → ¬StartsAt pBuffer j := by
  have hassoc : data ++ (startCode z ++ more) =
      (data ++ replicate z 0) ++ ([0, 0, 1] ++ more) := by
    rw [startCode]
    simp only [append_assoc]
  have hlength : (data ++ replicate z (0 : UInt8)).length = data.length + z := by
    rw [length_append, length_replicate]
  rw [hassoc, read_append_iff, hlength] at hread
  obtain ⟨hbefore, hcode⟩ := hread
  rw [← add_assoc] at hcode
  obtain ⟨hthree, -⟩ := read_append_iff.mp hcode
  have hstart : StartsAt pBuffer (i + data.length + z) :=
    ⟨eq_of_read hthree 0 0 rfl, eq_of_read hthree 1 0 rfl, eq_of_read hthree 2 1 rfl⟩
  have hplain' := plain_append_zeros hplain z
  refine ⟨hstart, fun j hj hlt hat => ?_⟩
  obtain ⟨d, rfl⟩ := Nat.exists_eq_add_of_le hj
  rw [add_assoc] at hstart
  rw [← hlength] at hbefore hstart
  have hne := no_code_in_data hplain' (eq_of_read hbefore)
    ((bits_startCode pBuffer _).mpr hstart) (i := d) (by omega)
  exact hne ((bits_startCode pBuffer _).mpr hat)

/-- The type is in the low bits of the first byte. -/
theorem nalHeader_eq (pBuffer : Memory) (k readEnd : Nat) (hend : 8 * (k + 1) < 2 ^ 32) :
    nalHeader pBuffer ⟨8 * k, readEnd⟩ =
      some ((pBuffer k).toNat % 32, ⟨8 * (k + 1), max readEnd (k + 1)⟩) := by
  have hvalue : bits (byteBits pBuffer) (8 * k + 1 + 2) 5 = (pBuffer k).toNat % 32 := by
    have hsplit := bits_append (byteBits pBuffer) (8 * k) 3 5
    have hlow := bits_lt (byteBits pBuffer) (8 * k + 3) 5
    have hpow : 2 ^ 5 = 32 := rfl
    change bits (byteBits pBuffer) (8 * k) 8 = _ at hsplit
    rw [bits_byte, hpow] at hsplit
    rw [hpow] at hlow
    rw [hsplit, add_assoc, mul_add_mod', mod_eq_of_lt hlow]
  have hfirst : (8 * k + 1 + 7) / 8 = k + 1 := by omega
  have hsecond : (8 * k + 1 + 2 + 7) / 8 = k + 1 := by omega
  have hthird : (8 * k + 1 + 2 + 5 + 7) / 8 = k + 1 := by omega
  have hlast : 8 * k + 1 + 2 + 5 = 8 * (k + 1) := by omega
  rw [nalHeader,
    HeaderReader.bind_some (skipBits_exact pBuffer (by omega) readEnd (by omega) (by omega)),
    HeaderReader.bind_some (skipBits_exact pBuffer (by omega) _ (by omega) (by omega)),
    getBits_exact pBuffer (by omega) _ (by omega) (by omega), hvalue, hfirst, hsecond, hthird,
    hlast, max_assoc, max_self, max_assoc, max_self]

/-- The unit ends at the next start code. -/
theorem findNalEnd_eq {q : Nat} (turns : Nat) (hfirst : ∀ j, i ≤ j → j < q → ¬StartsAt pBuffer j)
    (hstart : StartsAt pBuffer q) (hi : i ≤ q) (hq : q + 3 < nTotalInBytes)
    (hlarge : nTotalInBytes < 2 ^ 29) (hturns : q - i < turns) (readEnd : Nat) :
    ∃ readEnd', findNalEnd nTotalInBytes turns i pBuffer ⟨8 * i, readEnd⟩ =
      some ((true, q + 3), ⟨8 * i, readEnd'⟩) := by
  obtain ⟨readEnd₁, hscan⟩ := findStartCode_eq turns hfirst hstart hi hq hlarge hturns readEnd
  have hposition : HeaderReader.position pBuffer ⟨8 * i, readEnd⟩ =
      some (8 * i, ⟨8 * i, readEnd⟩) := rfl
  have hback : HeaderReader.setPosition (8 * i) pBuffer ⟨8 * (q + 3), readEnd₁⟩ =
      some ((), ⟨8 * i, readEnd₁⟩) := by
    rw [HeaderReader.setPosition, mod_eq_of_lt (by omega)]
  refine ⟨readEnd₁, ?_⟩
  rw [findNalEnd, HeaderReader.bind_some hposition, HeaderReader.bind_some hscan,
    HeaderReader.bind_some hback]
  rfl

/-- The turn over one unit. -/
theorem locateByStartCode_turn {unit : NalUnit} {z' : Nat} (scanTurns turns : Nat)
    (hplain : Plain data)
    (hread : pBuffer.read i
        (data ++ (startCode z ++ (unit.bytes ++ (startCode z' ++ more)))).length =
      data ++ (startCode z ++ (unit.bytes ++ (startCode z' ++ more))))
    (hmore : more ≠ [])
    (hend : i + (data ++ (startCode z ++ (unit.bytes ++ (startCode z' ++ more)))).length ≤
      nTotalInBytes) (hlarge : nTotalInBytes < 2 ^ 29) (hscan : nTotalInBytes < scanTurns)
    (readEnd : Nat) :
    ∃ readEnd', locateByStartCode nTotalInBytes scanTurns (turns + 1) i pBuffer ⟨8 * i, readEnd⟩ =
      (if unit.nal_unit_type ≠ 7 then
        locateByStartCode nTotalInBytes scanTurns turns (i + data.length + z + 4)
      else pure (.ok (i + data.length + z + 4,
        i + data.length + z + 4 + unit.payload.length + z' + 3)))
      pBuffer ⟨8 * (i + data.length + z + 4), readEnd'⟩ := by
  have hpos := length_pos_iff.mpr hmore
  have hbytes : unit.bytes.length = unit.payload.length + 1 := rfl
  simp only [length_append, length_startCode] at hend
  obtain ⟨hstart, hfirst⟩ := first_startCode hplain hread
  obtain ⟨-, hread⟩ := read_append_iff.mp hread
  obtain ⟨-, hread⟩ := read_append_iff.mp hread
  rw [length_startCode, ← add_assoc] at hread
  obtain ⟨hstart', hfirst'⟩ := first_startCode unit.plain hread
  obtain ⟨hunit, -⟩ := read_append_iff.mp hread
  have hheader : pBuffer (i + data.length + z + 3) = unit.header := eq_of_read hunit 0 _ rfl
  obtain ⟨readEnd₁, hscan₁⟩ := findStartCode_eq scanTurns hfirst hstart (by omega) (by omega)
    hlarge (by omega) readEnd
  obtain ⟨readEnd₂, hscan₂⟩ := findNalEnd_eq scanTurns hfirst' hstart' (by omega)
    (by rw [length_cons]; omega) hlarge (by rw [length_cons]; omega) readEnd₁
  have htype := nalHeader_eq pBuffer (i + data.length + z + 3) readEnd₂ (by omega)
  have hmod : (i + data.length + z + 3 + 1) % 2 ^ 32 = i + data.length + z + 4 :=
    mod_eq_of_lt (by omega)
  have hstop : i + data.length + z + 3 + (unit.header :: unit.payload).length + z' + 3 =
      i + data.length + z + 4 + unit.payload.length + z' + 3 := by
    rw [length_cons]
    omega
  refine ⟨max readEnd₂ (i + data.length + z + 3 + 1), ?_⟩
  rw [locateByStartCode, HeaderReader.bind_some hscan₁, HeaderReader.bind_some hscan₂,
    if_neg (by simp), HeaderReader.bind_some htype, hheader, hmod, hstop]
  rfl

/-- What follows a unit begins with a start code. -/
theorem byteStream_starts (units : List (Nat × NalUnit)) (z : Nat) (bytes rest : List UInt8)
    (hbytes : bytes ≠ []) : ∃ z' more', more' ≠ [] ∧
      byteStream units ++ (startCode z ++ (bytes ++ rest)) = startCode z' ++ more' := by
  cases units with
  | nil => exact ⟨z, bytes ++ rest, by simp [hbytes], rfl⟩
  | cons unit units =>
    refine ⟨unit.1, unit.2.bytes ++ (byteStream units ++ (startCode z ++ (bytes ++ rest))),
      by simp [NalUnit.bytes], ?_⟩
    rw [byteStream, flatMap_cons, append_assoc, append_assoc]
    rfl

/-- The other units are passed. -/
theorem locateByStartCode_eq {last : NalUnit} {z' : Nat} (units : List (Nat × NalUnit))
    (scanTurns turns : Nat) (hothers : ∀ unit ∈ units, unit.2.nal_unit_type ≠ 7)
    (hlast : last.nal_unit_type = 7) (hplain : Plain data)
    (hread : pBuffer.read i (data ++ (byteStream units ++
      (startCode z ++ (last.bytes ++ (startCode z' ++ more))))).length =
      data ++ (byteStream units ++ (startCode z ++ (last.bytes ++ (startCode z' ++ more)))))
    (hmore : more ≠ [])
    (hend : i + (data ++ (byteStream units ++
      (startCode z ++ (last.bytes ++ (startCode z' ++ more))))).length ≤ nTotalInBytes)
    (hlarge : nTotalInBytes < 2 ^ 29) (hscan : nTotalInBytes < scanTurns)
    (hturns : units.length < turns) (readEnd : Nat) :
    ∃ readEnd', locateByStartCode nTotalInBytes scanTurns turns i pBuffer ⟨8 * i, readEnd⟩ =
      some (.ok (i + data.length + (byteStream units).length + z + 4,
          i + data.length + (byteStream units).length + z + 4 + last.payload.length + z' + 3),
        ⟨8 * (i + data.length + (byteStream units).length + z + 4), readEnd'⟩) := by
  induction units generalizing data i turns readEnd with
  | nil =>
    obtain ⟨turns, rfl⟩ : ∃ t, turns = t + 1 := ⟨turns - 1, by omega⟩
    obtain ⟨readEnd', hturn⟩ := locateByStartCode_turn scanTurns turns hplain hread hmore hend
      hlarge hscan readEnd
    refine ⟨readEnd', ?_⟩
    rw [hturn, if_neg (not_not.mpr hlast)]
    rfl
  | cons unit units ih =>
    obtain ⟨turns, rfl⟩ : ∃ t, turns = t + 1 := ⟨turns - 1, by omega⟩
    obtain ⟨hunit, hothers⟩ := forall_mem_cons.mp hothers
    obtain ⟨z₂, more₂, hmore₂, hrest⟩ := byteStream_starts units z last.bytes
      (startCode z' ++ more) (cons_ne_nil _ _)
    have hstream : byteStream (unit :: units) ++
        (startCode z ++ (last.bytes ++ (startCode z' ++ more))) =
        startCode unit.1 ++ (unit.2.bytes ++ (startCode z₂ ++ more₂)) := by
      rw [byteStream, flatMap_cons, append_assoc, append_assoc, ← byteStream, hrest]
    have hlength : (byteStream (unit :: units)).length =
        unit.1 + unit.2.payload.length + 4 + (byteStream units).length := by
      rw [byteStream, flatMap_cons, length_append, length_append, ← byteStream,
        length_startCode, NalUnit.bytes, length_cons]
      omega
    rw [hstream] at hread hend
    obtain ⟨readEnd₁, hturn⟩ := locateByStartCode_turn scanTurns turns hplain hread hmore₂ hend
      hlarge hscan readEnd
    obtain ⟨-, hread⟩ := read_append_iff.mp hread
    obtain ⟨-, hread⟩ := read_append_iff.mp hread
    rw [length_startCode, ← hrest, ← add_assoc] at hread
    obtain ⟨-, hread⟩ := read_cons_iff.mp hread
    simp only [length_append, length_startCode, NalUnit.bytes, length_cons] at hend
    rw [length_cons] at hturns
    have htail : Plain unit.2.payload := fun j => unit.2.plain (j + 1)
    have hlength' := congrArg length hrest
    simp only [length_append, length_startCode] at hlength'
    obtain ⟨readEnd₂, hrun⟩ := ih turns hothers htail hread
      (by simp only [length_append, length_startCode]; omega) (by omega) readEnd₁
    refine ⟨readEnd₂, ?_⟩
    have hplace : i + data.length + unit.1 + 4 + unit.2.payload.length + (byteStream units).length =
        i + data.length + (byteStream (unit :: units)).length := by omega
    rw [hturn, if_pos hunit, hrun, hplace]

end Locate

/-! ## Units behind their lengths -/

def lengthStream (format : Nat) (bIsNALBigEndian : Bool) (units : List NalUnit) : List UInt8 :=
  units.flatMap fun unit => lengthPrefix format bIsNALBigEndian unit.bytes.length ++ unit.bytes

section Lengths

variable {pBuffer : Memory} {nTotalInBytes i format : Nat} {bIsNALBigEndian : Bool}
  {more : List UInt8}

/-- The decoder reads the length that the packing reads. -/
theorem nalLength_of_nalLen {length : Nat} (hformat : format = 1 ∨ format = 2 ∨ format = 4)
    (h : nalLen format bIsNALBigEndian pBuffer i = some length) (c : Cursor) :
    ∃ readEnd', nalLength format bIsNALBigEndian i pBuffer c =
      some (length, ⟨c.nPosition, readEnd'⟩) := by
  rcases hformat with rfl | rfl | rfl <;> cases bIsNALBigEndian
  all_goals
    obtain rfl := some.inj h
    exact ⟨_, rfl⟩

/-- The length is read as it was written. -/
theorem nalLength_eq {length : Nat} (hformat : format = 1 ∨ format = 2 ∨ format = 4)
    (hlength : length < 256 ^ format)
    (hread : pBuffer.read i (lengthPrefix format bIsNALBigEndian length).length =
      lengthPrefix format bIsNALBigEndian length) (c : Cursor) :
    ∃ readEnd', nalLength format bIsNALBigEndian i pBuffer c =
      some (length, ⟨c.nPosition, readEnd'⟩) := by
  rw [length_lengthPrefix] at hread
  refine nalLength_of_nalLen hformat ?_ c
  rw [nalLen_eq hformat, hread, lengthOf_lengthPrefix bIsNALBigEndian hlength]

/-- The turn over one unit. -/
theorem locateByLength_turn {unit : NalUnit} (turns : Nat)
    (hformat : format = 1 ∨ format = 2 ∨ format = 4) (hlength : unit.bytes.length < 256 ^ format)
    (hread : pBuffer.read i (lengthPrefix format bIsNALBigEndian unit.bytes.length ++
        (unit.bytes ++ more)).length =
      lengthPrefix format bIsNALBigEndian unit.bytes.length ++ (unit.bytes ++ more))
    (hend : i + (lengthPrefix format bIsNALBigEndian unit.bytes.length ++
        (unit.bytes ++ more)).length ≤ nTotalInBytes) (hlarge : nTotalInBytes < 2 ^ 29)
    (c : Cursor) :
    (unit.nal_unit_type ≠ 7 → ∃ c',
      locateByLength format bIsNALBigEndian nTotalInBytes (turns + 1) i pBuffer c =
        locateByLength format bIsNALBigEndian nTotalInBytes turns
          (i + (format + unit.bytes.length)) pBuffer c') ∧
    (unit.nal_unit_type = 7 → ∃ readEnd',
      locateByLength format bIsNALBigEndian nTotalInBytes (turns + 1) i pBuffer c =
        some (.ok (i + format + 1, i + format + 1 + unit.payload.length + 9),
          ⟨8 * (i + format + 1), readEnd'⟩)) := by
  obtain ⟨ hprefix, hread⟩ := read_append_iff.mp hread
  obtain ⟨readEnd₁, hfirst⟩ := nalLength_eq hformat hlength hprefix c
  rw [length_lengthPrefix] at hread
  have hbytes : unit.bytes.length = unit.payload.length + 1 := rfl
  rw [length_append, length_lengthPrefix, length_append, hbytes] at hend
  obtain ⟨hunit, -⟩ := read_append_iff.mp hread
  have hheader : pBuffer (i + format) = unit.header := eq_of_read hunit 0 _ rfl
  have hmod : (i + format) % 2 ^ 32 = i + format := mod_eq_of_lt (by omega)
  have hposition : HeaderReader.setPosition ((i + format) * 8) pBuffer ⟨c.nPosition, readEnd₁⟩ =
      some ((), ⟨8 * (i + format), readEnd₁⟩) := by
    rw [HeaderReader.setPosition, mod_eq_of_lt (by omega), mul_comm]
  have htype := nalHeader_eq pBuffer (i + format) readEnd₁ (by omega)
  rw [hheader] at htype
  rw [locateByLength, if_neg (by omega), HeaderReader.bind_some hfirst,
    HeaderReader.bind_some hposition, hmod, if_neg (by omega), HeaderReader.bind_some htype]
  change (unit.header.toNat % 32 ≠ 7 → _) ∧ (unit.header.toNat % 32 = 7 → _)
  constructor
  · intro hother
    have hnext : (i + (unit.bytes.length + format)) % 2 ^ 32 =
      i + (format + unit.bytes.length) := by
      rw [mod_eq_of_lt (by rw [hbytes]; omega), add_comm format]
    rw [if_pos hother, hnext]
    exact ⟨_, rfl⟩
  · intro hsps
    have hplace : (i + format + 1) % 2 ^ 32 = i + format + 1 := mod_eq_of_lt (by omega)
    have hstop : (unit.bytes.length + 8 + (i + format + 1)) % 2 ^ 32 =
        i + format + 1 + unit.payload.length + 9 := by
      rw [hbytes, mod_eq_of_lt (by omega)]
      omega
    rw [if_neg (not_not.mpr hsps), hplace, hstop]
    exact ⟨_, rfl⟩

theorem length_lengthStream_cons (unit : NalUnit) (units : List NalUnit) :
    (lengthStream format bIsNALBigEndian (unit :: units)).length =
      format + unit.bytes.length + (lengthStream format bIsNALBigEndian units).length := by
  rw [lengthStream, flatMap_cons, length_append, length_append, length_lengthPrefix, ← lengthStream]

/-- The other units are passed. -/
theorem locateByLength_eq {last : NalUnit} (units : List NalUnit) (turns : Nat)
    (hformat : format = 1 ∨ format = 2 ∨ format = 4)
    (hothers : ∀ unit ∈ units, unit.nal_unit_type ≠ 7 ∧ unit.bytes.length < 256 ^ format)
    (hlast : last.nal_unit_type = 7) (hlength : last.bytes.length < 256 ^ format)
    (hread : pBuffer.read i (lengthStream format bIsNALBigEndian units ++
        (lengthPrefix format bIsNALBigEndian last.bytes.length ++ (last.bytes ++ more))).length =
      lengthStream format bIsNALBigEndian units ++
        (lengthPrefix format bIsNALBigEndian last.bytes.length ++ (last.bytes ++ more)))
    (hend : i + (lengthStream format bIsNALBigEndian units ++
        (lengthPrefix format bIsNALBigEndian last.bytes.length ++ (last.bytes ++ more))).length ≤
      nTotalInBytes) (hlarge : nTotalInBytes < 2 ^ 29) (hturns : units.length < turns)
    (c : Cursor) {k : Nat}
    (hk : k = i + (lengthStream format bIsNALBigEndian units).length + format + 1) :
    ∃ readEnd', locateByLength format bIsNALBigEndian nTotalInBytes turns i pBuffer c =
      some (.ok (k, k + last.payload.length + 9), ⟨8 * k, readEnd'⟩) := by
  subst hk
  obtain ⟨turns, rfl⟩ : ∃ t, turns = t + 1 := ⟨turns - 1, by omega⟩
  induction units generalizing i turns c with
  | nil => exact (locateByLength_turn turns hformat hlength hread hend hlarge c).2 hlast
  | cons unit units ih =>
    obtain ⟨⟨hother, hunit⟩, hothers⟩ := forall_mem_cons.mp hothers
    have hstream : lengthStream format bIsNALBigEndian (unit :: units) ++
        (lengthPrefix format bIsNALBigEndian last.bytes.length ++ (last.bytes ++ more)) =
        lengthPrefix format bIsNALBigEndian unit.bytes.length ++ (unit.bytes ++
          (lengthStream format bIsNALBigEndian units ++
            (lengthPrefix format bIsNALBigEndian last.bytes.length ++ (last.bytes ++ more)))) := by
      rw [lengthStream, flatMap_cons, append_assoc, append_assoc, ← lengthStream]
    rw [hstream] at hread hend
    obtain ⟨c₁, hturn⟩ :=
      (locateByLength_turn turns hformat hunit hread hend hlarge c).1 hother
    rw [← append_assoc, length_append, ← add_assoc] at hend
    rw [← append_assoc] at hread
    obtain ⟨-, hread⟩ := read_append_iff.mp hread
    rw [length_append, length_lengthPrefix] at hread hend
    rw [length_cons] at hturns
    obtain ⟨turns, rfl⟩ : ∃ t, turns = t + 1 := ⟨turns - 1, by omega⟩
    obtain ⟨readEnd', hrun⟩ := ih hothers hread hend c₁ turns (by omega)
    have hplace : i + (format + unit.bytes.length) +
        (lengthStream format bIsNALBigEndian units).length =
        i + (lengthStream format bIsNALBigEndian (unit :: units)).length := by
      rw [length_lengthStream_cons, add_assoc]
    rw [hplace] at hrun
    exact ⟨readEnd', hturn.trans hrun⟩

end Lengths

/-! ## From the place of the parameter set on -/

section Place

private theorem length_le_escape (s : List UInt8) : s.length ≤ (escape 0 s).length := by
  have hle := length_strip_le (escape 0 s) 0
  rwa [strip_escape s (by omega)] at hle

/-- The elements stand in the copy, whatever was copied behind them. -/
theorem CodedSet.stands_rbspMemory (set : CodedSet) (heap : Memory) (nTotalInBytes : Nat)
    (extra : List UInt8) :
    Stands (byteBits (rbspMemory heap nTotalInBytes (set.rbsp ++ extra))) 0
      (encodeElements set.sps.elements) := by
  refine set.elements.congr fun j hj => ?_
  have hin : (0 + j) / 8 < set.rbsp.length := by
    have hwithin := set.within
    omega
  have hcopied : (0 + j) / 8 < (set.rbsp ++ extra).length := by
    rw [length_append]
    omega
  have hbyte : rbspMemory heap nTotalInBytes (set.rbsp ++ extra) ((0 + j) / 8) =
      bufferOf set.rbsp ((0 + j) / 8) := by
    rw [rbspMemory, dif_pos hcopied, bufferOf, getD_eq_getElem _ _ hin, get_eq_getElem,
      getElem_append_left hin]
  rw [byteBits, byteBits, hbyte]

/-- What the parser finds; without cropping it leaves what there was. -/
def SeqParameterSet.found (sps : SeqParameterSet) (before : AvcSize) : AvcSize :=
  ⟨sps.foundSize, (foundCrop sps.frame_cropping).getD before.crop⟩

theorem parseUnit_found (set : CodedSet) (turns : Nat) (heap : Memory) {buffer : ConfigBuffer}
    (before : AvcSize) {k m : Nat}
    (hread : buffer.pBuffer.read k set.unit.payload.length = set.unit.payload)
    (hstop : k + set.unit.payload.length + 3 ≤ m) (hm : m < 2 ^ 32)
    (hend : 8 * (k + set.unit.payload.length) < 2 ^ 32) (hturns : m < turns) (hcode : 32 ≤ turns)
    (readEnd : Nat) :
    ∃ ends, parseUnit turns heap buffer before (.ok (k, m)) ⟨8 * k, readEnd⟩ =
      some (.OMX_ErrorNone, set.sps.found before, ends) := by
  have hpayload : set.unit.payload = escape 0 set.rbsp := rfl
  rw [hpayload] at hread hstop hend
  have hlimit : k + (escape 0 set.rbsp).length ≤ (m + 2 ^ 32 - 3) % 2 ^ 32 := by omega
  obtain ⟨extra, c, hcopy⟩ := copyRbsp_payload set.rbsp.length set.rbsp k turns (le_refl _)
    set.stopped hread hlimit hend (by omega) readEnd
  have hlength := length_le_escape set.rbsp
  have hwithin := set.within
  obtain ⟨readEnd', hparse⟩ := parseRbsp_reads hcode set.valid.inRange 0
    (set.stands_rbspMemory heap buffer.nFilledLen extra) (by omega) 0
  rw [parseUnit, hcopy, bind_some, hparse]
  exact ⟨_, rfl⟩

end Place

/-! ## Streams -/

/-- Units, a parameter set, a picture parameter set and whatever follows it. Zeros may stand in
front of the start codes. -/
structure AvcStream where
  others : List (Nat × NalUnit)
  others_type : ∀ unit ∈ others, unit.2.nal_unit_type ≠ 7
  zeros : Nat
  set : CodedSet
  ppsZeros : Nat
  pps : NalUnit
  pps_type : pps.nal_unit_type = 8
  rest : List UInt8

namespace AvcStream

def byStartCode (stream : AvcStream) : List UInt8 :=
  byteStream stream.others ++ (startCode stream.zeros ++ (stream.set.unit.bytes ++
    (startCode stream.ppsZeros ++ (stream.pps.bytes ++ stream.rest))))

def byLength (stream : AvcStream) (format : Nat) (bIsNALBigEndian : Bool) : List UInt8 :=
  lengthStream format bIsNALBigEndian (stream.others.map Prod.snd) ++
    (lengthPrefix format bIsNALBigEndian stream.set.unit.bytes.length ++ (stream.set.unit.bytes ++
      (lengthPrefix format bIsNALBigEndian stream.pps.bytes.length ++
        (stream.pps.bytes ++ stream.rest))))

/-- The stream in the format of the component. -/
def bytes (stream : AvcStream) (H264BitStreamFormat : Nat) (bIsNALBigEndian : Bool) : List UInt8 :=
  if H264BitStreamFormat = 0 then stream.byStartCode
  else stream.byLength H264BitStreamFormat bIsNALBigEndian

/-- It is a format of the component, and the lengths of the units fit in it. -/
def Framed (stream : AvcStream) (H264BitStreamFormat : Nat) : Prop :=
  H264BitStreamFormat = 0 ∨
    (H264BitStreamFormat = 1 ∨ H264BitStreamFormat = 2 ∨ H264BitStreamFormat = 4) ∧
      (∀ unit ∈ stream.others, unit.2.bytes.length < 256 ^ H264BitStreamFormat) ∧
      stream.set.unit.bytes.length < 256 ^ H264BitStreamFormat ∧
      stream.pps.bytes.length < 256 ^ H264BitStreamFormat

end AvcStream

section Streams

variable {turns : Nat} (fresh heap : Memory) {s : AvcComponent} {buffer : ConfigBuffer}
  {stream : AvcStream}

/-- There are two start codes at least. -/
theorem two_startCodes {pBuffer : Memory} {n q q' : Nat} (hq : StartsAt pBuffer q)
    (hq' : StartsAt pBuffer q') (hlt : q < q') (hend : q' < n) :
    2 ≤ (startCodes pBuffer 0 n).card := by
  have hsub : {q, q'} ⊆ startCodes pBuffer 0 n := by
    intro j hj
    rw [startCodes, Finset.mem_filter, Finset.mem_Ico]
    rcases Finset.mem_insert.mp hj with rfl | hj
    · exact ⟨⟨zero_le _, by omega⟩, hq⟩
    · rw [Finset.mem_singleton.mp hj]
      exact ⟨⟨zero_le _, hend⟩, hq'⟩
  rw [← Finset.card_pair hlt.ne]
  exact Finset.card_le_card hsub

private theorem card_startCodes_le (pBuffer : Memory) (n : Nat) :
    (startCodes pBuffer 0 n).card ≤ n := by
  have hle := Finset.card_filter_le (Finset.Ico 0 n) (StartsAt pBuffer)
  rwa [card_Ico] at hle

theorem assemble_free {s : AvcComponent} (hfree : s.pInternalConfigBufferAVC = none)
    (buffer : ConfigBuffer) :
    assemble s buffer = some ({ s with bConfigBufferCompleteAVC := true }, buffer) := by
  rw [assemble, hfree]

theorem length_le_byteStream (units : List (Nat × NalUnit)) :
    units.length ≤ (byteStream units).length := by
  rw [byteStream, length_flatMap]
  refine (length_le_sum_of_one_le _ fun n hn => ?_).trans_eq' (length_map _)
  obtain ⟨unit, -, rfl⟩ := mem_map.mp hn
  rw [length_append, length_startCode]
  omega

theorem length_le_lengthStream (format : Nat) (bIsNALBigEndian : Bool) (units : List NalUnit) :
    units.length ≤ (lengthStream format bIsNALBigEndian units).length := by
  rw [lengthStream, length_flatMap]
  refine (length_le_sum_of_one_le _ fun n hn => ?_).trans_eq' (length_map _)
  obtain ⟨unit, -, rfl⟩ := mem_map.mp hn
  rw [length_append, NalUnit.bytes, length_cons]
  omega

/-- The set is found behind its start code. -/
theorem parseByStartCode_found (before : AvcSize)
    (hbytes : buffer.pBuffer.read 0 buffer.nFilledLen = stream.byStartCode)
    (hfree : s.pInternalConfigBufferAVC = none)
    (hcounter : s.nConfigBufferCounter + buffer.nFilledLen < 2 ^ 32)
    (hlarge : buffer.nFilledLen < 2 ^ 29) (hturns : buffer.nFilledLen + 32 ≤ turns) :
    ∃ r, parseByStartCode turns fresh heap s buffer before = some r ∧ r.eError = .OMX_ErrorNone ∧
      r.size = stream.set.sps.found before := by
  have hlength : stream.byStartCode.length = buffer.nFilledLen := by
    rw [← hbytes, Memory.length_read]
  have hread : buffer.pBuffer.read 0 stream.byStartCode.length = stream.byStartCode := by
    rw [hlength, hbytes]
  have hunits := length_le_byteStream stream.others
  obtain ⟨readEnd, hplace⟩ := locateByStartCode_eq stream.others turns turns
    stream.others_type stream.set.nal_unit_type_unit plain_nil hread (by simp [NalUnit.bytes])
    (by rw [zero_add]; exact hlength.le) hlarge (by omega)
    (by rw [AvcStream.byStartCode, length_append] at hlength; omega) 0
  -- where the two start codes stand
  obtain ⟨-, hset⟩ := read_append_iff.mp hread
  obtain ⟨hstart, -⟩ := first_startCode plain_nil hset
  obtain ⟨-, hset⟩ := read_append_iff.mp hset
  obtain ⟨hstart', -⟩ := first_startCode stream.set.unit.plain hset
  obtain ⟨hunit, -⟩ := read_append_iff.mp hset
  rw [length_nil, add_zero] at hstart
  rw [length_startCode, length_cons] at hstart'
  rw [length_startCode] at hunit
  obtain ⟨-, hpayload⟩ := read_cons_iff.mp hunit
  simp only [AvcStream.byStartCode, length_append, length_startCode, NalUnit.bytes,
    length_cons] at hlength
  have hcount := two_startCodes (n := buffer.nFilledLen - 3) hstart hstart' (by omega) (by omega)
  obtain ⟨c, hscan⟩ := countStartCodes_eq buffer.pBuffer (i := 0) turns (by omega) hlarge
    (Nat.zero_le buffer.nFilledLen) 0 (by omega) 0
  have hcard := card_startCodes_le buffer.pBuffer (buffer.nFilledLen - 3)
  rw [Nat.zero_add] at hscan
  generalize (startCodes buffer.pBuffer 0 (buffer.nFilledLen - 3)).card = count at *
  have hmod : (s.nConfigBufferCounter + count) % 2 ^ 32 = s.nConfigBufferCounter + count :=
    Nat.mod_eq_of_lt (by omega)
  rw [length_nil, Nat.zero_add] at hplace
  have hposition : 0 + (byteStream stream.others).length + (stream.zeros + 3) + 1 =
      (byteStream stream.others).length + stream.zeros + 4 := by omega
  rw [hposition] at hpayload
  obtain ⟨ends, hparse⟩ := parseUnit_found stream.set turns heap before hpayload
    (m := (byteStream stream.others).length + stream.zeros + 4 +
      stream.set.unit.payload.length + stream.ppsZeros + 3) (by omega) (by omega) (by omega)
    (by omega) (by omega) readEnd
  rw [parseByStartCode, VIDDEC_ScanConfigBufferAVC, hscan, bind_some]
  dsimp only
  have hwhole := assemble_free
    (s := { s with nConfigBufferCounter := s.nConfigBufferCounter + count }) hfree buffer
  rw [hmod, if_neg (by omega), hwhole]
  dsimp only
  rw [hplace, bind_some, hparse]
  exact ⟨_, rfl, rfl, rfl⟩

/-- The set is found behind its length. -/
theorem parseByLength_found (before : AvcSize) {format : Nat}
    (hformat : format = 1 ∨ format = 2 ∨ format = 4) (hs : s.H264BitStreamFormat = format)
    (hothers : ∀ unit ∈ stream.others, unit.2.bytes.length < 256 ^ format)
    (hset : stream.set.unit.bytes.length < 256 ^ format)
    (hbytes : buffer.pBuffer.read 0 buffer.nFilledLen = stream.byLength format s.bIsNALBigEndian)
    (hlarge : buffer.nFilledLen < 2 ^ 29) (hturns : buffer.nFilledLen + 32 ≤ turns) :
    ∃ r, parseByLength turns heap s buffer before = some r ∧ r.eError = .OMX_ErrorNone ∧
      r.size = stream.set.sps.found before := by
  have hlength : (stream.byLength format s.bIsNALBigEndian).length = buffer.nFilledLen := by
    rw [← hbytes, Memory.length_read]
  have hread : buffer.pBuffer.read 0 (stream.byLength format s.bIsNALBigEndian).length =
      stream.byLength format s.bIsNALBigEndian := by
    rw [hlength, hbytes]
  have htypes : ∀ unit ∈ stream.others.map Prod.snd,
      unit.nal_unit_type ≠ 7 ∧ unit.bytes.length < 256 ^ format := by
    intro unit hmem
    obtain ⟨pair, hpair, rfl⟩ := mem_map.mp hmem
    exact ⟨stream.others_type pair hpair, hothers pair hpair⟩
  have hunits := length_le_lengthStream format s.bIsNALBigEndian (stream.others.map Prod.snd)
  obtain ⟨k, hk⟩ : ∃ k, k = 0 + (lengthStream format s.bIsNALBigEndian
      (stream.others.map Prod.snd)).length + format + 1 := ⟨_, rfl⟩
  obtain ⟨readEnd, hplace⟩ := locateByLength_eq (stream.others.map Prod.snd) turns hformat htypes
    stream.set.nal_unit_type_unit hset hread (by rw [zero_add]; exact hlength.le) hlarge
    (by rw [AvcStream.byLength, length_append] at hlength; omega) ⟨0, 0⟩ hk
  obtain ⟨-, hunit⟩ := read_append_iff.mp hread
  obtain ⟨-, hunit⟩ := read_append_iff.mp hunit
  obtain ⟨hunit, -⟩ := read_append_iff.mp hunit
  rw [length_lengthPrefix] at hunit
  obtain ⟨-, hpayload⟩ := read_cons_iff.mp hunit
  rw [← hk] at hpayload
  simp only [AvcStream.byLength, length_append, length_lengthPrefix, NalUnit.bytes,
    length_cons] at hlength
  obtain ⟨ends, hparse⟩ := parseUnit_found stream.set turns heap before
    (m := k + stream.set.unit.payload.length + 9) hpayload (by omega) (by omega) (by omega)
    (by omega) (by omega) readEnd
  subst hs
  rw [parseByLength]
  rw [hplace, bind_some, hparse]
  exact ⟨_, rfl, rfl, rfl⟩

/-- In each format the same is found. -/
theorem avc_found (before : AvcSize) (hframed : stream.Framed s.H264BitStreamFormat)
    (hbytes : buffer.pBuffer.read 0 buffer.nFilledLen =
      stream.bytes s.H264BitStreamFormat s.bIsNALBigEndian)
    (hfree : s.pInternalConfigBufferAVC = none)
    (hcounter : s.nConfigBufferCounter + buffer.nFilledLen < 2 ^ 32)
    (hlarge : buffer.nFilledLen < 2 ^ 29) (hturns : buffer.nFilledLen + 32 ≤ turns) :
    ∃ r, VIDDEC_ParseVideo_H264 turns fresh heap s buffer before = some r ∧
      r.eError = .OMX_ErrorNone ∧ r.size = stream.set.sps.found before := by
  rw [AvcStream.bytes] at hbytes
  rw [VIDDEC_ParseVideo_H264]
  rcases hframed with hzero | ⟨hformat, hothers, hset, -⟩
  · rw [if_pos hzero] at hbytes ⊢
    exact parseByStartCode_found fresh heap before hbytes hfree hcounter hlarge hturns
  · have hne : s.H264BitStreamFormat ≠ 0 := by omega
    rw [if_neg hne] at hbytes ⊢
    exact parseByLength_found heap before hformat rfl hothers hset hbytes hlarge hturns

/-- A frame of two fields is found with half its height. -/
theorem found_eq_iff (set : CodedSet) (size : FrameSize) :
    set.sps.found ⟨size, ⟨0, 0⟩⟩ = ⟨set.sps.size, set.sps.crop⟩ ↔
      set.sps.frame_mbs_only_flag = true := by
  have hwidth := set.valid.width
  have hheight := set.valid.height
  have hcropWidth := set.valid.cropWidth
  have hcropHeight := set.valid.cropHeight
  simp only [SeqParameterSet.size] at hwidth hheight hcropWidth hcropHeight
  rw [SeqParameterSet.found, SeqParameterSet.foundSize, SeqParameterSet.size, AvcSize.mk.injEq,
    FrameSize.mk.injEq]
  constructor
  · rintro ⟨⟨-, hfound⟩, -⟩
    cases hflag : set.sps.frame_mbs_only_flag with
    | true => rfl
    | false =>
      rw [SeqParameterSet.fieldFactor, hflag, if_neg Bool.false_ne_true] at hfound hheight
      omega
  · intro hflag
    have hfactor : set.sps.fieldFactor = 1 := by rw [SeqParameterSet.fieldFactor, if_pos hflag]
    rw [hfactor] at hheight hcropHeight ⊢
    refine ⟨⟨by omega, by omega⟩, ?_⟩
    rw [SeqParameterSet.crop] at hcropWidth hcropHeight ⊢
    rw [hfactor] at hcropHeight ⊢
    cases hcrop : set.sps.frame_cropping with
    | none => rfl
    | some crop =>
      rw [hcrop] at hcropWidth hcropHeight
      dsimp only at hcropWidth hcropHeight
      simp only [foundCrop, getD_some, FrameSize.mk.injEq]
      omega

/-- The size and the cropping of a stream are found just where the pictures are frames. -/
theorem avc_size_iff (stream : AvcStream) (s : AvcComponent) (buffer : ConfigBuffer)
    (fresh heap : Memory) (size : FrameSize) (hframed : stream.Framed s.H264BitStreamFormat)
    (hbytes : buffer.pBuffer.read 0 buffer.nFilledLen =
      stream.bytes s.H264BitStreamFormat s.bIsNALBigEndian)
    (hfree : s.pInternalConfigBufferAVC = none)
    (hcounter : s.nConfigBufferCounter + buffer.nFilledLen < 2 ^ 32)
    (hlarge : buffer.nFilledLen < 2 ^ 29) :
    (∃ n, ∀ turns, n ≤ turns → ∃ r,
      VIDDEC_ParseVideo_H264 turns fresh heap s buffer ⟨size, ⟨0, 0⟩⟩ = some r ∧
        r.eError = .OMX_ErrorNone ∧ r.size = ⟨stream.set.sps.size, stream.set.sps.crop⟩) ↔
      stream.set.sps.frame_mbs_only_flag = true := by
  rw [← found_eq_iff stream.set size]
  have hfound (turns : Nat) (hturns : buffer.nFilledLen + 32 ≤ turns) :=
    avc_found fresh heap ⟨size, ⟨0, 0⟩⟩ hframed hbytes hfree hcounter hlarge hturns
  constructor
  · rintro ⟨n, hn⟩
    obtain ⟨r, hrun, -, hsize⟩ := hn (max n (buffer.nFilledLen + 32)) (le_max_left _ _)
    obtain ⟨r', hrun', -, hsize'⟩ := hfound _ (le_max_right n _)
    rw [hrun, some.injEq] at hrun'
    rw [← hsize', ← hrun', hsize]
  · intro heq
    refine ⟨buffer.nFilledLen + 32, fun turns hturns => ?_⟩
    rw [← heq]
    exact hfound turns hturns

def frameSet : SeqParameterSet where
  profile := .main
  constraint_set0_flag := false
  constraint_set1_flag := true
  constraint_set2_flag := false
  reserved := 0
  level_idc := 30
  seq_parameter_set_id := 0
  log2_max_frame_num_minus4 := 0
  pic_order_cnt := .cycle false (-2 ^ 27) 0 [2]
  num_ref_frames := 1
  gaps_in_frame_num_value_allowed_flag := false
  pic_width_in_mbs_minus1 := 10
  pic_height_in_map_units_minus1 := 8
  frame_mbs_only_flag := true
  mb_adaptive_frame_field_flag := false
  direct_8x8_inference_flag := true
  frame_cropping := some ⟨0, 2, 0, 4⟩

/-- A set whose offset needs the emulation prevention. -/
def codedFrames : CodedSet where
  sps := frameSet
  valid := ⟨by decide, by decide, by decide, by decide, by decide⟩
  nal_ref_idc := 3
  rbsp := [77, 64, 30, 208, 0, 0, 0, 32, 0, 0, 3, 68, 65, 98, 125, 202, 128]
  elements := by decide +kernel
  within := by decide +kernel
  stopped := endsNonzero_of_getLast? (by decide)

/-- A set behind a delimiter. -/
def streamOf (set : CodedSet) : AvcStream where
  others := [(1, .escaped 0x09 (by decide) [0xF0])]
  others_type := by decide
  zeros := 0
  set := set
  ppsZeros := 1
  pps := .escaped 0x68 (by decide) [0xCE, 0x38, 0x80]
  pps_type := rfl
  rest := []

def avcComponent (format : Nat) (bIsNALBigEndian : Bool) : AvcComponent where
  H264BitStreamFormat := format
  bIsNALBigEndian := bIsNALBigEndian
  nBufferSize := 65536
  bConfigBufferCompleteAVC := false
  pInternalConfigBufferAVC := none
  nInternalConfigBufferFilledAVC := 0
  nConfigBufferCounter := 0

def bufferWith (bytes : List UInt8) : ConfigBuffer := ⟨bufferOf bytes, bytes.length⟩

/-- The set with its escapes in both kinds of framing. -/
theorem frames_size :
    (∃ n, ∀ turns, n ≤ turns → ∃ r,
      VIDDEC_ParseVideo_H264 turns (bufferOf []) (bufferOf []) (avcComponent 0 false)
          (bufferWith ((streamOf codedFrames).bytes 0 false)) ⟨⟨0, 0⟩, ⟨0, 0⟩⟩ = some r ∧
        r.eError = .OMX_ErrorNone ∧ r.size = ⟨⟨176, 144⟩, ⟨4, 8⟩⟩) ∧
    ∃ n, ∀ turns, n ≤ turns → ∃ r,
      VIDDEC_ParseVideo_H264 turns (bufferOf []) (bufferOf []) (avcComponent 2 true)
          (bufferWith ((streamOf codedFrames).bytes 2 true)) ⟨⟨0, 0⟩, ⟨0, 0⟩⟩ = some r ∧
        r.eError = .OMX_ErrorNone ∧ r.size = ⟨⟨176, 144⟩, ⟨4, 8⟩⟩ :=
  ⟨(avc_size_iff (streamOf codedFrames) (avcComponent 0 false) _ _ _ _ (.inl rfl)
      (by decide +kernel) rfl (by decide +kernel) (by decide +kernel)).mpr rfl,
    (avc_size_iff (streamOf codedFrames) (avcComponent 2 true) _ _ _ _
      (.inr ⟨by decide, by decide +kernel, by decide +kernel, by decide +kernel⟩)
      (by decide +kernel) rfl (by decide +kernel) (by decide +kernel)).mpr rfl⟩

def fieldSet : SeqParameterSet :=
  { frameSet with
    pic_order_cnt := .lsb 2
    pic_width_in_mbs_minus1 := 44
    pic_height_in_map_units_minus1 := 17
    frame_mbs_only_flag := false
    frame_cropping := none }

/-- Frames of 720 by 576, each of two fields. -/
def codedFields : CodedSet where
  sps := fieldSet
  valid := ⟨by decide, by decide, by decide, by decide, by decide⟩
  nal_ref_idc := 3
  rbsp := [77, 64, 30, 237, 1, 104, 72, 144]
  elements := by decide +kernel
  within := by decide +kernel
  stopped := endsNonzero_of_getLast? (by decide)

theorem fields_misread : ¬∀ (stream : AvcStream) (s : AvcComponent) (buffer : ConfigBuffer)
    (fresh heap : Memory) (size : FrameSize), stream.Framed s.H264BitStreamFormat →
    buffer.pBuffer.read 0 buffer.nFilledLen =
      stream.bytes s.H264BitStreamFormat s.bIsNALBigEndian →
    s.pInternalConfigBufferAVC = none →
    s.nConfigBufferCounter + buffer.nFilledLen < 2 ^ 32 → buffer.nFilledLen < 2 ^ 29 →
    ∃ n, ∀ turns, n ≤ turns → ∃ r,
      VIDDEC_ParseVideo_H264 turns fresh heap s buffer ⟨size, ⟨0, 0⟩⟩ = some r ∧
        r.eError = .OMX_ErrorNone ∧ r.size = ⟨stream.set.sps.size, stream.set.sps.crop⟩ := by
  intro h
  have hframed : (streamOf codedFields).Framed 0 := .inl rfl
  have hbytes : (bufferWith ((streamOf codedFields).bytes 0 false)).pBuffer.read 0
      (bufferWith ((streamOf codedFields).bytes 0 false)).nFilledLen =
      (streamOf codedFields).bytes 0 false := by decide +kernel
  have hlength : (bufferWith ((streamOf codedFields).bytes 0 false)).nFilledLen = 26 := by
    decide +kernel
  have hcounter : (avcComponent 0 false).nConfigBufferCounter +
      (bufferWith ((streamOf codedFields).bytes 0 false)).nFilledLen < 2 ^ 32 := by
    rw [hlength]
    decide
  obtain ⟨n, hn⟩ := h (streamOf codedFields) (avcComponent 0 false) _ (bufferOf []) (bufferOf [])
    ⟨0, 0⟩ hframed hbytes rfl hcounter (by omega)
  obtain ⟨r, hrun, -, hright⟩ := hn (max n 58) (le_max_left _ _)
  have hturns : (bufferWith ((streamOf codedFields).bytes 0 false)).nFilledLen + 32 ≤ max n 58 := by
    rw [hlength]
    exact le_max_right n 58
  obtain ⟨r', hrun', -, hwrong⟩ := avc_found (bufferOf []) (bufferOf [])
    (s := avcComponent 0 false) ⟨⟨0, 0⟩, ⟨0, 0⟩⟩ hframed hbytes rfl hcounter (by omega) hturns
  rw [hrun, some.injEq] at hrun'
  rw [← hrun', hright] at hwrong
  exact absurd hwrong (by decide)

end Streams

end OmapHal.VideoDecoder
