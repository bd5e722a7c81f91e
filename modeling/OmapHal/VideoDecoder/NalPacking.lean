import OmapHal.Core.Bits
import OmapHal.Core.Memory

/-!
# Packing of NAL units

For a stream whose NAL units stand each behind its length, `VIDDEC_HandleDataBuf_FromApp` moves the
units together and puts their lengths into the parameters of the buffer. A store behind the array
of lengths has no result. Positions are below the size of the address space.
-/

namespace OmapHal.VideoDecoder

open OmapHal.Core OmapHal.Core.Memory List Nat

def H264VDEC_SN_MAX_NALUNITS : Nat := 1620

/-- The errors of the packing. -/
inductive PackError where
  | OMX_ErrorNone | OMX_ErrorBadParameter
  deriving DecidableEq, Repr

/-- The length at `length_pos`, for the values of `H264BitStreamFormat` that there are. -/
def nalLen (H264BitStreamFormat : Nat) (bIsNALBigEndian : Bool) (pDataBuf : Memory)
    (length_pos : Nat) : Option Nat :=
  let byte i := (pDataBuf (length_pos + i)).toNat
  if H264BitStreamFormat = 1 then some (byte 0)
  else if H264BitStreamFormat = 2 then
    if bIsNALBigEndian then some (byte 0 <<< 8 ||| byte 1)
    else some (byte 0 <<< 0 ||| byte 1 <<< 8)
  else if H264BitStreamFormat = 4 then
    if bIsNALBigEndian then
      some (byte 0 <<< 24 ||| byte 1 <<< 16 ||| byte 2 <<< 8 ||| byte 3)
    else some (byte 0 <<< 0 ||| byte 1 <<< 8 ||| byte 2 <<< 16 ||| byte 3 <<< 24)
  else none

/-- The loop that moves a unit, with the bytes that are left last. -/
def moveUnit (pDataBuf : Memory) (data_pos length_pos : Nat) : Nat → Memory
  | 0 => pDataBuf
  | i + 1 =>
    let moved := moveUnit pDataBuf data_pos length_pos i
    Function.update moved (data_pos + i) (moved (length_pos + i))

/-- The variables of the loop; of `pNALUSizeArray` the places that are filled. -/
structure Packing where
  pDataBuf : Memory
  length_pos : Nat
  data_pos : Nat
  pNALUSizeArray : List Nat

/-- The loop over the units, for so many turns. Every turn goes on by at least one byte. -/
def packLoop (H264BitStreamFormat : Nat) (bIsNALBigEndian : Bool) (nFilledLen : Nat) :
    Nat → Packing → Option (PackError × Packing)
  | 0, s => some (.OMX_ErrorNone, s)
  | turns + 1, s =>
    if nFilledLen > s.length_pos + H264BitStreamFormat then
      match nalLen H264BitStreamFormat bIsNALBigEndian s.pDataBuf s.length_pos with
      | none => some (.OMX_ErrorBadParameter, s)
      | some nal_len =>
        let length_pos := s.length_pos + H264BitStreamFormat
        if nal_len > nFilledLen - length_pos then some (.OMX_ErrorBadParameter, s)
        else if s.pNALUSizeArray.length < H264VDEC_SN_MAX_NALUNITS then
          packLoop H264BitStreamFormat bIsNALBigEndian nFilledLen turns
            { pDataBuf := moveUnit s.pDataBuf s.data_pos length_pos nal_len
              length_pos := length_pos + nal_len
              data_pos := s.data_pos + nal_len
              pNALUSizeArray := s.pNALUSizeArray ++ [nal_len] }
        else none
    else some (.OMX_ErrorNone, s)

/-- The buffer and the lengths that belong to it. -/
structure NalBuffer where
  pBuffer : Memory
  nFilledLen : Nat
  pNALUSizeArray : List Nat

/-- The block around the loop. -/
def packUnits (H264BitStreamFormat : Nat) (bIsNALBigEndian : Bool) (pBuffHead : NalBuffer) :
    Option (PackError × NalBuffer) :=
  (packLoop H264BitStreamFormat bIsNALBigEndian pBuffHead.nFilledLen pBuffHead.nFilledLen
    ⟨pBuffHead.pBuffer, 0, 0, []⟩).map fun (eError, s) =>
      (eError, ⟨s.pDataBuf, if eError = .OMX_ErrorNone then s.data_pos else pBuffHead.nFilledLen,
        s.pNALUSizeArray⟩)

/-- The copy for a buffer with the end of the stream. -/
def HandleDataBuf_FromApp_EOS (H264BitStreamFormat : Nat) (bIsNALBigEndian : Bool)
    (pBuffHead : NalBuffer) : Option (PackError × NalBuffer) :=
  packUnits H264BitStreamFormat bIsNALBigEndian pBuffHead

/-- The copy for any other buffer. -/
def HandleDataBuf_FromApp_Data (H264BitStreamFormat : Nat) (bIsNALBigEndian : Bool)
    (pBuffHead : NalBuffer) : Option (PackError × NalBuffer) :=
  packUnits H264BitStreamFormat bIsNALBigEndian pBuffHead

/-! ## Sequences of units -/

section Units

variable (F : Nat) (big : Bool)

/-- The length of a unit in `F` bytes. -/
def lengthPrefix (n : Nat) : List UInt8 := if big then (encode F n).reverse else encode F n

/-- The number that the bytes of a length stand for. -/
def lengthOf (bytes : List UInt8) : Nat := decode (if big then bytes.reverse else bytes)

/-- Units, each behind its length. -/
def prefixedUnits (us : List (List UInt8)) : List UInt8 :=
  us.flatMap fun u => lengthPrefix F big u.length ++ u

/-- The lengths of the units have room in their bytes. -/
def Fits (us : List (List UInt8)) : Prop := ∀ u ∈ us, u.length < 256 ^ F

/-- A length, and less than so many bytes behind it. -/
def Truncated (bytes : List UInt8) : Prop :=
  F < bytes.length ∧ bytes.length - F < lengthOf big (bytes.take F)

/-- A sequence of units is packed; all else is rejected and left as it was. -/
structure PacksRight (pBuffHead : NalBuffer) (result : Option (PackError × NalBuffer)) : Prop where
  packs : ∀ us, Fits F us → us.length ≤ H264VDEC_SN_MAX_NALUNITS →
    pBuffHead.pBuffer.read 0 pBuffHead.nFilledLen = prefixedUnits F big us →
      ∃ t, result = some (.OMX_ErrorNone, t) ∧ t.nFilledLen = us.flatten.length ∧
        t.pBuffer.read 0 t.nFilledLen = us.flatten ∧ t.pNALUSizeArray = us.map List.length
  rejects : (¬∃ us, Fits F us ∧ us.length ≤ H264VDEC_SN_MAX_NALUNITS ∧
      pBuffHead.pBuffer.read 0 pBuffHead.nFilledLen = prefixedUnits F big us) →
    ∃ t, result = some (.OMX_ErrorBadParameter, t) ∧ t.nFilledLen = pBuffHead.nFilledLen ∧
      t.pBuffer.read 0 t.nFilledLen = pBuffHead.pBuffer.read 0 pBuffHead.nFilledLen

/-- The condition on the bytes: they are at most `H264VDEC_SN_MAX_NALUNITS` units of which the last
is not empty, or behind such units one is truncated, and the units before it stand where they would
be moved to. -/
def Packable (bytes : List UInt8) : Prop :=
  ∃ us rest, Fits F us ∧ us.length ≤ H264VDEC_SN_MAX_NALUNITS ∧
    bytes = prefixedUnits F big us ++ rest ∧
      (rest = [] ∧ us.getLast? ≠ some [] ∨ Truncated F big rest ∧ us.flatten <+: bytes)

end Units

variable {F n pos d p turns : Nat} {big : Bool} {m : Memory} {us done : List (List UInt8)}
  {u rest bytes : List UInt8} {s : Packing}

/-! ## Lengths and moves -/

/-- A unit that is moved down. -/
theorem moveUnit_apply (h : d ≤ p) (n x : Nat) :
    moveUnit m d p n x = if d ≤ x ∧ x < d + n then m (p + (x - d)) else m x := by
  induction n generalizing x with
  | zero =>
    rw [if_neg (by omega)]
    rfl
  | succ n ih =>
    rw [moveUnit]
    by_cases hx : x = d + n
    · subst hx
      have hsource : d + n - d = n := by omega
      rw [Function.update_self, ih, if_neg (by omega), if_pos (by omega), hsource]
    · rw [Function.update_of_ne hx, ih]
      refine if_congr ?_ rfl rfl
      omega

private theorem decode_cons (b : UInt8) (bytes : List UInt8) :
    decode (b :: bytes) = b.toNat ||| decode bytes <<< 8 := by
  have hb : b.toNat < 2 ^ 8 := UInt8.toNat_lt b
  rw [Nat.or_comm, ← place_eq_shift_or hb, decode]
  omega

private theorem decode_one (a : UInt8) : decode [a] = a.toNat := by
  rw [decode, decode, mul_zero, add_zero]

theorem decode_two (a b : UInt8) : decode [a, b] = a.toNat ||| b.toNat <<< 8 := by
  rw [decode_cons, decode_one]

theorem decode_four (a b c d : UInt8) :
    decode [a, b, c, d] = a.toNat ||| b.toNat <<< 8 ||| c.toNat <<< 16 ||| d.toNat <<< 24 := by
  rw [decode_cons, decode_cons, decode_two, shiftLeft_or_distrib, shiftLeft_or_distrib,
    shiftLeft_or_distrib, ← shiftLeft_add, ← shiftLeft_add, ← shiftLeft_add,
    Nat.or_assoc, Nat.or_assoc]

theorem or_four (a b c d : Nat) : a ||| b ||| c ||| d = d ||| c ||| b ||| a := by
  rw [Nat.or_comm (a ||| b ||| c) d, Nat.or_comm (a ||| b) c, Nat.or_comm a b, Nat.or_assoc,
    Nat.or_assoc]

/-- The length that is read is that of the bytes that stand there. -/
theorem nalLen_eq (hF : F = 1 ∨ F = 2 ∨ F = 4) (big : Bool) (m : Memory) (pos : Nat) :
    nalLen F big m pos = some (lengthOf big (m.read pos F)) := by
  rw [lengthOf]
  rcases hF with rfl | rfl | rfl
  · cases big <;> exact congrArg some (decode_one _).symm
  · cases big with
    | false => exact congrArg some (decode_two ..).symm
    | true => exact congrArg some ((Nat.or_comm ..).trans (decode_two ..).symm)
  · cases big with
    | false => exact congrArg some (decode_four ..).symm
    | true => exact congrArg some ((or_four ..).trans (decode_four ..).symm)

/-! ## Prefixes -/

theorem length_lengthPrefix (F : Nat) (big : Bool) (n : Nat) :
    (lengthPrefix F big n).length = F := by
  unfold lengthPrefix
  split
  · rw [length_reverse, length_encode]
  · exact length_encode F n

theorem lengthOf_lengthPrefix (big : Bool) (h : n < 256 ^ F) :
    lengthOf big (lengthPrefix F big n) = n := by
  unfold lengthOf lengthPrefix
  cases big
  · exact decode_encode_of_lt h
  · rw [if_pos rfl, if_pos rfl, reverse_reverse]
    exact decode_encode_of_lt h

theorem lengthOf_lt (h : bytes.length = F) (big : Bool) : lengthOf big bytes < 256 ^ F := by
  rw [← h]
  unfold lengthOf
  cases big
  · exact decode_lt bytes
  · rw [if_pos rfl, ← length_reverse]
    exact decode_lt _

theorem lengthPrefix_lengthOf (h : bytes.length = F) (big : Bool) :
    lengthPrefix F big (lengthOf big bytes) = bytes := by
  rw [← h]
  unfold lengthOf lengthPrefix
  cases big
  · exact encode_decode bytes
  · rw [if_pos rfl, if_pos rfl, ← length_reverse, encode_decode, reverse_reverse]

theorem prefixedUnits_cons : prefixedUnits F big (u :: us) =
    lengthPrefix F big u.length ++ (u ++ prefixedUnits F big us) := by
  rw [prefixedUnits, flatMap_cons, append_assoc]
  rfl

theorem prefixedUnits_append (done : List (List UInt8)) : prefixedUnits F big (done ++ us) =
    prefixedUnits F big done ++ prefixedUnits F big us := flatMap_append

theorem length_prefixedUnits (us : List (List UInt8)) :
    (prefixedUnits F big us).length = us.length * F + us.flatten.length := by
  induction us with
  | nil => exact (zero_mul F).symm
  | cons u us ih =>
    rw [prefixedUnits_cons, length_append, length_append, length_lengthPrefix, ih,
      length_cons, flatten_cons, length_append, succ_mul]
    omega

theorem Fits.tail (h : Fits F (u :: us)) : Fits F us := fun v hv => h v (mem_cons_of_mem u hv)

/-- Bytes that are no unit and no part of one fall into units and a rest. -/
theorem exists_prefixedUnits (hF : 0 < F) (big : Bool) (bytes : List UInt8) :
    ∃ us rest, Fits F us ∧ bytes = prefixedUnits F big us ++ rest ∧
      (rest ≠ [] ∨ us.getLast? ≠ some []) ∧ (rest.length ≤ F ∨ Truncated F big rest) := by
  induction hsize : bytes.length using Nat.strong_induction_on generalizing bytes with
  | _ size ih =>
    by_cases hshort : bytes.length ≤ F
    · exact ⟨[], bytes, fun u hu => absurd hu not_mem_nil, rfl, .inr nofun, .inl hshort⟩
    by_cases htruncated : bytes.length - F < lengthOf big (bytes.take F)
    · exact ⟨[], bytes, fun u hu => absurd hu not_mem_nil, rfl, .inr nofun,
        .inr ⟨not_le.mp hshort, htruncated⟩⟩
    have htake : (bytes.take F).length = F := by
      rw [length_take]
      omega
    let u := (bytes.drop F).take (lengthOf big (bytes.take F))
    have hu : u.length = lengthOf big (bytes.take F) := by
      rw [length_take, length_drop]
      omega
    have hsplit : bytes = lengthPrefix F big u.length ++
        (u ++ (bytes.drop F).drop (lengthOf big (bytes.take F))) := by
      rw [hu, lengthPrefix_lengthOf htake, take_append_drop, take_append_drop]
    have hbehind : ((bytes.drop F).drop (lengthOf big (bytes.take F))).length < size := by
      rw [length_drop, length_drop]
      omega
    obtain ⟨us, rest, hfits, heq, hlast, hend⟩ := ih _ hbehind _ rfl
    refine ⟨u :: us, rest, ?_, ?_, ?_, hend⟩
    · intro v hv
      rcases mem_cons.mp hv with rfl | hv
      · rw [hu]
        exact lengthOf_lt htake big
      · exact hfits v hv
    · rw [prefixedUnits_cons, append_assoc, append_assoc, ← heq]
      exact hsplit
    · cases us with
      | cons v us => rwa [getLast?_cons_cons]
      | nil =>
        refine or_iff_not_imp_left.mpr fun hnone hempty => ?_
        have hrest : rest = [] := not_not.mp hnone
        have hnil : u = [] := Option.some.inj hempty
        have hlength := congrArg length hsplit
        rw [heq, hrest, hnil, length_append, length_lengthPrefix] at hlength
        exact hshort (by rw [hlength]; exact le_refl F)

/-- The units are known from their bytes. -/
theorem prefixedUnits_inj (hF : 0 < F) {us' : List (List UInt8)} (h : Fits F us) (h' : Fits F us')
    (hend : rest = [] ∨ Truncated F big rest)
    (heq : prefixedUnits F big us ++ rest = prefixedUnits F big us') : us = us' ∧ rest = [] := by
  induction us generalizing us' with
  | nil =>
    rw [show prefixedUnits F big [] ++ rest = rest from rfl] at heq
    cases us' with
    | nil => exact ⟨rfl, heq⟩
    | cons v us' =>
      rw [prefixedUnits_cons] at heq
      have hlength := congrArg length heq
      rw [length_append, length_append, length_lengthPrefix] at hlength
      rcases hend with rfl | htruncated
      · rw [length_nil] at hlength
        omega
      · have hv : lengthOf big (rest.take F) = v.length := by
          rw [heq, take_left' (length_lengthPrefix ..)]
          exact lengthOf_lengthPrefix big (h' v mem_cons_self)
        have hmore := htruncated.2
        rw [hv] at hmore
        omega
  | cons u us ih =>
    cases us' with
    | nil =>
      have hlength := congrArg length heq
      rw [prefixedUnits_cons, length_append, length_append, length_lengthPrefix] at hlength
      change F + _ + _ = 0 at hlength
      omega
    | cons v us' =>
      rw [prefixedUnits_cons, prefixedUnits_cons, append_assoc, append_assoc] at heq
      obtain ⟨ hprefix, hbehind⟩ := append_inj heq
        (by rw [length_lengthPrefix, length_lengthPrefix])
      have hlength : u.length = v.length := by
        rw [← lengthOf_lengthPrefix big (h u mem_cons_self), hprefix,
          lengthOf_lengthPrefix big (h' v mem_cons_self)]
      obtain ⟨rfl, hmore⟩ := append_inj hbehind hlength
      obtain ⟨rfl, hrest⟩ := ih h.tail h'.tail hmore
      exact ⟨rfl, hrest⟩

/-! ## The loop -/

/-- The loop stands behind these units of the buffer, and has moved them to its front. -/
structure Standing (m : Memory) (F : Nat) (big : Bool) (done : List (List UInt8)) (s : Packing) :
    Prop where
  length_pos : s.length_pos = (prefixedUnits F big done).length
  data_pos : s.data_pos = done.flatten.length
  sizes : s.pNALUSizeArray = done.map List.length
  packed : s.pDataBuf.read 0 s.data_pos = done.flatten
  kept : ∀ k, s.data_pos ≤ k → s.pDataBuf k = m k

theorem standing_start (m : Memory) (F : Nat) (big : Bool) : Standing m F big [] ⟨m, 0, 0, []⟩ where
  length_pos := rfl
  data_pos := rfl
  sizes := rfl
  packed := rfl
  kept _ _ := rfl

namespace Standing

theorem data_le (h : Standing m F big done s) : s.data_pos ≤ s.length_pos := by
  rw [h.length_pos, h.data_pos, length_prefixedUnits]
  omega

theorem count (h : Standing m F big done s) : s.pNALUSizeArray.length = done.length := by
  rw [h.sizes, length_map]

/-- What the loop reads next is still as it was. -/
theorem read_ahead (h : Standing m F big done s) (bytes ahead : List UInt8)
    (hbuf : m.read 0 n = prefixedUnits F big done ++ (bytes ++ ahead)) :
    s.pDataBuf.read s.length_pos bytes.length = bytes := by
  have hread := Memory.read_part hbuf
  rw [zero_add, ← h.length_pos] at hread
  rw [← hread, length_read]
  exact read_congr fun x hx _ => h.kept x (h.data_le.trans hx)

/-- The end of the buffer. -/
theorem end_eq (h : Standing m F big done s) {ahead : List UInt8}
    (hbuf : m.read 0 n = prefixedUnits F big done ++ ahead) : n = s.length_pos + ahead.length := by
  rw [← length_read m 0 n, hbuf, length_append, h.length_pos]

/-- A unit is moved. -/
theorem move (h : Standing m F big done s) {ahead : List UInt8}
    (hbuf : m.read 0 n =
      prefixedUnits F big done ++ (lengthPrefix F big u.length ++ (u ++ ahead))) :
    Standing m F big (done ++ [u])
      { pDataBuf := moveUnit s.pDataBuf s.data_pos (s.length_pos + F) u.length
        length_pos := s.length_pos + F + u.length
        data_pos := s.data_pos + u.length
        pNALUSizeArray := s.pNALUSizeArray ++ [u.length] } := by
  have hle : s.data_pos ≤ s.length_pos + F := h.data_le.trans (le_add_right _ F)
  have hunit : s.pDataBuf.read (s.length_pos + F) u.length = u := by
    have hsplit : m.read 0 n =
        (prefixedUnits F big done ++ lengthPrefix F big u.length) ++ (u ++ ahead) := by
      rw [hbuf, append_assoc]
    have hread := Memory.read_part hsplit
    rw [zero_add, length_append, length_lengthPrefix, ← h.length_pos] at hread
    rw [← hread, length_read]
    exact read_congr fun x hx _ => h.kept x (hle.trans hx)
  refine ⟨?_, ?_, ?_, ?_, fun k hk => ?_⟩
  · show s.length_pos + F + u.length = _
    rw [prefixedUnits_append, length_append, ← h.length_pos, length_prefixedUnits,
      flatten_singleton, length_singleton, one_mul, add_assoc]
  · show s.data_pos + u.length = _
    rw [flatten_append, length_append, ← h.data_pos, flatten_singleton]
  · show s.pNALUSizeArray ++ [u.length] = _
    rw [h.sizes, map_append, map_singleton]
  · show (moveUnit s.pDataBuf s.data_pos (s.length_pos + F) u.length).read 0
      (s.data_pos + u.length) = _
    have hfront : (moveUnit s.pDataBuf s.data_pos (s.length_pos + F) u.length).read 0 s.data_pos =
        done.flatten := by
      rw [← h.packed]
      refine read_congr fun x _ hx => ?_
      rw [moveUnit_apply hle, if_neg (by omega)]
    have hmoved : (moveUnit s.pDataBuf s.data_pos (s.length_pos + F) u.length).read s.data_pos
        u.length = u := by
      refine (read_eq_read fun k hk => ?_).trans hunit
      rw [moveUnit_apply hle, if_pos (by omega), Nat.add_sub_cancel_left]
    rw [Memory.read_append, hfront, zero_add, hmoved, flatten_append, flatten_singleton]
  · show moveUnit s.pDataBuf s.data_pos (s.length_pos + F) u.length k = m k
    change s.data_pos + u.length ≤ k at hk
    rw [moveUnit_apply hle, if_neg (by omega)]
    exact h.kept k (by omega)

/-- One turn, on a unit with something in it or behind it. -/
theorem turn (h : Standing m F big done s) (hF : F = 1 ∨ F = 2 ∨ F = 4) {ahead : List UInt8}
    (hu : u.length < 256 ^ F) (hsome : u ++ ahead ≠ [])
    (hbuf : m.read 0 n =
      prefixedUnits F big done ++ (lengthPrefix F big u.length ++ (u ++ ahead))) (turns : Nat) :
    ∃ s', Standing m F big (done ++ [u]) s' ∧ packLoop F big n (turns + 1) s =
      if done.length < H264VDEC_SN_MAX_NALUNITS then packLoop F big n turns s' else none := by
  refine ⟨_, h.move hbuf, ?_⟩
  have hend := h.end_eq hbuf
  have hpos := length_pos_of_ne_nil hsome
  rw [length_append, length_lengthPrefix] at hend
  have hlen : nalLen F big s.pDataBuf s.length_pos = some u.length := by
    have hprefix := h.read_ahead _ _ hbuf
    rw [length_lengthPrefix] at hprefix
    rw [nalLen_eq hF, hprefix, lengthOf_lengthPrefix big hu]
  have hroom : ¬u.length > n - (s.length_pos + F) := by
    rw [length_append] at hend
    omega
  rw [packLoop, if_pos (by omega), hlen]
  dsimp only
  rw [if_neg hroom, h.count]

/-- The turns over units with something in the last of them or behind it. -/
theorem units (h : Standing m F big done s) (hF : F = 1 ∨ F = 2 ∨ F = 4) (hfits : Fits F us)
    (hsome : rest ≠ [] ∨ us.getLast? ≠ some [])
    (hbuf : m.read 0 n = prefixedUnits F big done ++ (prefixedUnits F big us ++ rest))
    (hdone : done.length ≤ H264VDEC_SN_MAX_NALUNITS) (turns : Nat) :
    ((done ++ us).length ≤ H264VDEC_SN_MAX_NALUNITS → ∃ s', Standing m F big (done ++ us) s' ∧
      packLoop F big n (us.length + turns) s = packLoop F big n turns s') ∧
    (H264VDEC_SN_MAX_NALUNITS < (done ++ us).length →
      packLoop F big n (us.length + turns) s = none) := by
  induction us generalizing done s with
  | nil =>
    rw [append_nil, length_nil, zero_add]
    exact ⟨fun _ => ⟨s, h, rfl⟩, fun hover => absurd hdone (not_le.mpr hover)⟩
  | cons u us ih =>
    have hahead : u ++ (prefixedUnits F big us ++ rest) ≠ [] := by
      intro hnil
      obtain ⟨rfl, hbehind⟩ := append_eq_nil_iff.mp hnil
      obtain ⟨hunits, rfl⟩ := append_eq_nil_iff.mp hbehind
      cases us with
      | nil => exact hsome.elim (fun hrest => hrest rfl) fun hlast => hlast rfl
      | cons v us =>
        have hlength := congrArg length hunits
        rw [prefixedUnits_cons, length_append, length_lengthPrefix, length_nil] at hlength
        omega
    have hsome' : rest ≠ [] ∨ us.getLast? ≠ some [] := by
      refine hsome.imp id fun hlast => ?_
      cases us with
      | nil => exact nofun
      | cons v us => rwa [getLast?_cons_cons] at hlast
    rw [prefixedUnits_cons, append_assoc, append_assoc] at hbuf
    obtain ⟨s₁, h₁, hturn⟩ :=
      h.turn hF (hfits u mem_cons_self) hahead hbuf (us.length + turns)
    have hmove : (u :: us).length + turns = us.length + turns + 1 := by
      rw [length_cons]
      omega
    have hassoc : done ++ u :: us = done ++ [u] ++ us := by
      rw [append_assoc, singleton_append]
    rw [hmove, hturn, hassoc]
    by_cases hroom : done.length < H264VDEC_SN_MAX_NALUNITS
    · rw [if_pos hroom]
      refine ih h₁ hfits.tail hsome' ?_ ?_
      · rw [hbuf, prefixedUnits_append, prefixedUnits_cons]
        simp only [append_assoc]
        rfl
      · rw [length_append]
        exact hroom
    · rw [if_neg hroom]
      refine ⟨fun hfew => absurd hfew ?_, fun _ => rfl⟩
      rw [length_append, length_append, length_singleton]
      omega

/-- The end of the loop, where no more than a length is left. -/
theorem stop (h : Standing m F big done s) (hbuf : m.read 0 n = prefixedUnits F big done ++ rest)
    (hrest : rest.length ≤ F) (turns : Nat) :
    packLoop F big n turns s = some (.OMX_ErrorNone, s) := by
  have hend := h.end_eq hbuf
  cases turns with
  | zero => rfl
  | succ turns => rw [packLoop, if_neg (by omega)]

/-- The end of the loop at a unit that is truncated. -/
theorem reject (h : Standing m F big done s) (hF : F = 1 ∨ F = 2 ∨ F = 4)
    (hbuf : m.read 0 n = prefixedUnits F big done ++ rest) (hrest : Truncated F big rest)
    (turns : Nat) : packLoop F big n (turns + 1) s = some (.OMX_ErrorBadParameter, s) := by
  have hend := h.end_eq hbuf
  have hlong : F < rest.length := hrest.1
  have htake : (rest.take F).length = F := by
    rw [length_take]
    omega
  have hprefix := h.read_ahead (rest.take F) (rest.drop F)
    (by rw [take_append_drop]; exact hbuf)
  rw [htake] at hprefix
  have hmore : lengthOf big (rest.take F) > n - (s.length_pos + F) := by
    have hless := hrest.2
    omega
  rw [packLoop, if_pos (by omega), nalLen_eq hF, hprefix]
  dsimp only
  rw [if_pos hmore]

end Standing

/-! ## The buffer -/

/-- What becomes of a buffer, by the units in it and what is behind them. -/
theorem packUnits_cases (hF : F = 1 ∨ F = 2 ∨ F = 4) (hfits : Fits F us)
    (hsome : rest ≠ [] ∨ us.getLast? ≠ some []) (pBuffHead : NalBuffer)
    (hbuf : pBuffHead.pBuffer.read 0 pBuffHead.nFilledLen = prefixedUnits F big us ++ rest) :
    (us.length ≤ H264VDEC_SN_MAX_NALUNITS → rest.length ≤ F →
      ∃ s, Standing pBuffHead.pBuffer F big us s ∧ packUnits F big pBuffHead =
        some (.OMX_ErrorNone, ⟨s.pDataBuf, s.data_pos, s.pNALUSizeArray⟩)) ∧
    (us.length ≤ H264VDEC_SN_MAX_NALUNITS → Truncated F big rest →
      ∃ s, Standing pBuffHead.pBuffer F big us s ∧ packUnits F big pBuffHead =
        some (.OMX_ErrorBadParameter, ⟨s.pDataBuf, pBuffHead.nFilledLen, s.pNALUSizeArray⟩)) ∧
    (H264VDEC_SN_MAX_NALUNITS < us.length → packUnits F big pBuffHead = none) := by
  have hlength : pBuffHead.nFilledLen = us.length * F + us.flatten.length + rest.length := by
    rw [← length_read pBuffHead.pBuffer 0 pBuffHead.nFilledLen, hbuf, length_append,
      length_prefixedUnits]
  have hcount : us.length ≤ us.length * F := Nat.le_mul_of_pos_right _ (by omega)
  obtain ⟨turns, hturns⟩ : ∃ k, pBuffHead.nFilledLen = us.length + k :=
    ⟨pBuffHead.nFilledLen - us.length, by omega⟩
  have hunits := (standing_start pBuffHead.pBuffer F big).units hF hfits hsome hbuf
    (zero_le _) turns
  rw [nil_append, ← hturns] at hunits
  unfold packUnits
  refine ⟨fun hfew hrest => ?_, fun hfew hrest => ?_, fun hover => ?_⟩
  · obtain ⟨s, hs, hloop⟩ := hunits.1 hfew
    rw [hloop, hs.stop hbuf hrest]
    exact ⟨s, hs, rfl⟩
  · obtain ⟨s, hs, hloop⟩ := hunits.1 hfew
    obtain ⟨k, rfl⟩ : ∃ k, turns = k + 1 := ⟨turns - 1, by have := hrest.1; omega⟩
    rw [hloop, hs.reject hF hbuf hrest]
    exact ⟨s, hs, rfl⟩
  · rw [hunits.2 hover]
    rfl

/-- What the loop leaves in the buffer where it moved units that stood at the front already. -/
theorem Standing.unmoved (h : Standing m F big us s) (hbytes : us.flatten <+: m.read 0 n) :
    s.pDataBuf.read 0 n = m.read 0 n := by
  have hle : s.data_pos ≤ n := by
    rw [h.data_pos, ← length_read m 0 n]
    exact hbytes.length_le
  obtain ⟨k, rfl⟩ : ∃ k, n = s.data_pos + k := ⟨n - s.data_pos, by omega⟩
  have hfront : m.read 0 s.data_pos = us.flatten := by
    obtain ⟨behind, hbehind⟩ := hbytes
    rw [Memory.read_append] at hbehind
    exact ((append_inj hbehind (by rw [length_read, h.data_pos])).1).symm
  rw [Memory.read_append, Memory.read_append, h.packed, hfront]
  congr 1
  exact read_congr fun x hx _ => h.kept x (by omega)

/-- Units of the same lengths take the same room. -/
theorem length_prefixedUnits_congr {us' : List (List UInt8)}
    (h : us.map List.length = us'.map List.length) :
    (prefixedUnits F big us).length = (prefixedUnits F big us').length := by
  have hcount := congrArg length h
  rw [length_map, length_map] at hcount
  rw [length_prefixedUnits, length_prefixedUnits, hcount, length_flatten, length_flatten, h]

/-- A buffer that is packable is packed right. -/
theorem packUnits_right (hF : F = 1 ∨ F = 2 ∨ F = 4) (pBuffHead : NalBuffer)
    (h : Packable F big (pBuffHead.pBuffer.read 0 pBuffHead.nFilledLen)) :
    PacksRight F big pBuffHead (packUnits F big pBuffHead) := by
  have hFpos : 0 < F := by omega
  obtain ⟨us, rest, hfits, hfew, hbuf, ⟨rfl, hlast⟩ | ⟨htruncated, hfront⟩⟩ := h
  · obtain ⟨s, hs, hresult⟩ :=
      (packUnits_cases hF hfits (.inr hlast) pBuffHead hbuf).1 hfew (zero_le F)
    refine ⟨fun us' hfits' _ hbuf' => ?_, fun hno => absurd ⟨us, hfits, hfew, ?_⟩ hno⟩
    · obtain ⟨rfl, -⟩ :=
        prefixedUnits_inj hFpos hfits hfits' (.inl rfl) (hbuf.symm.trans hbuf')
      exact ⟨_, hresult, hs.data_pos, hs.packed, hs.sizes⟩
    · rw [hbuf, append_nil]
  · have hrest : rest ≠ [] := by
      rintro rfl
      exact absurd htruncated.1 (not_lt_zero F)
    obtain ⟨s, hs, hresult⟩ :=
      (packUnits_cases hF hfits (.inl hrest) pBuffHead hbuf).2.1 hfew htruncated
    refine ⟨fun us' hfits' _ hbuf' => ?_, fun _ => ⟨_, hresult, rfl, hs.unmoved hfront⟩⟩
    exact absurd (prefixedUnits_inj hFpos hfits hfits' (.inr htruncated)
      (hbuf.symm.trans hbuf')).2 hrest

/-- A buffer that is packed right is packable. -/
theorem packable_of_right (hF : F = 1 ∨ F = 2 ∨ F = 4) (pBuffHead : NalBuffer)
    (hright : PacksRight F big pBuffHead (packUnits F big pBuffHead)) :
    Packable F big (pBuffHead.pBuffer.read 0 pBuffHead.nFilledLen) := by
  obtain ⟨us, rest, hfits, hbuf, hsome, hend⟩ := exists_prefixedUnits (by omega : 0 < F) big
    (pBuffHead.pBuffer.read 0 pBuffHead.nFilledLen)
  obtain ⟨hstops, hrejects, hovers⟩ := packUnits_cases hF hfits hsome pBuffHead hbuf
  by_cases hfew : us.length ≤ H264VDEC_SN_MAX_NALUNITS
  swap
  -- a store behind the array
  · exfalso
    have hnone := hovers (not_le.mp hfew)
    by_cases hunits : ∃ us, Fits F us ∧ us.length ≤ H264VDEC_SN_MAX_NALUNITS ∧
        pBuffHead.pBuffer.read 0 pBuffHead.nFilledLen = prefixedUnits F big us
    · obtain ⟨us', hfits', hfew', hbuf'⟩ := hunits
      obtain ⟨t, ht, -⟩ := hright.packs us' hfits' hfew' hbuf'
      rw [hnone] at ht
      cases ht
    · obtain ⟨t, ht, -⟩ := hright.rejects hunits
      rw [hnone] at ht
      cases ht
  by_cases hunits : ∃ us, Fits F us ∧ us.length ≤ H264VDEC_SN_MAX_NALUNITS ∧
      pBuffHead.pBuffer.read 0 pBuffHead.nFilledLen = prefixedUnits F big us
  · obtain ⟨us', hfits', hfew', hbuf'⟩ := hunits
    obtain ⟨t, ht, -, -, hsizes⟩ := hright.packs us' hfits' hfew' hbuf'
    rcases hend with hshort | htruncated
    · obtain ⟨s, hs, hresult⟩ := hstops hfew hshort
      rw [hresult] at ht
      obtain rfl := (Prod.mk.inj (Option.some.inj ht)).2
      have hlength := congrArg length (hbuf.symm.trans hbuf')
      rw [length_append, length_prefixedUnits_congr (hs.sizes.symm.trans hsizes)] at hlength
      obtain rfl : rest = [] := eq_nil_of_length_eq_zero (by omega)
      exact ⟨us, [], hfits, hfew, hbuf, .inl ⟨rfl, hsome.resolve_left fun h => h rfl⟩⟩
    · obtain ⟨s, hs, hresult⟩ := hrejects hfew htruncated
      rw [hresult] at ht
      cases ht
  · obtain ⟨t, ht, hlen, hsame⟩ := hright.rejects hunits
    rcases hend with hshort | htruncated
    · obtain ⟨s, hs, hresult⟩ := hstops hfew hshort
      rw [hresult] at ht
      cases ht
    · obtain ⟨s, hs, hresult⟩ := hrejects hfew htruncated
      rw [hresult] at ht
      obtain rfl := (Prod.mk.inj (Option.some.inj ht)).2
      refine ⟨us, rest, hfits, hfew, hbuf, .inr ⟨htruncated, ?_⟩⟩
      have hle : s.data_pos ≤ pBuffHead.nFilledLen := by
        rw [hs.end_eq hbuf]
        exact hs.data_le.trans (le_add_right _ _)
      obtain ⟨k, hk⟩ : ∃ k, pBuffHead.nFilledLen = s.data_pos + k :=
        ⟨pBuffHead.nFilledLen - s.data_pos, by omega⟩
      rw [← hsame]
      rw [hk, Memory.read_append, hs.packed]
      exact prefix_append _ _

/-- Both copies of the loop pack the units of exactly the buffers that are packable. -/
theorem nal_units_packed_iff (H264BitStreamFormat : Nat)
    (hformat : H264BitStreamFormat = 1 ∨ H264BitStreamFormat = 2 ∨ H264BitStreamFormat = 4)
    (bIsNALBigEndian : Bool) (pBuffHead : NalBuffer) :
    (PacksRight H264BitStreamFormat bIsNALBigEndian pBuffHead
        (HandleDataBuf_FromApp_EOS H264BitStreamFormat bIsNALBigEndian pBuffHead) ∧
      PacksRight H264BitStreamFormat bIsNALBigEndian pBuffHead
        (HandleDataBuf_FromApp_Data H264BitStreamFormat bIsNALBigEndian pBuffHead)) ↔
      Packable H264BitStreamFormat bIsNALBigEndian
        (pBuffHead.pBuffer.read 0 pBuffHead.nFilledLen) :=
  ⟨fun h => packable_of_right hformat pBuffHead h.1, fun h =>
    ⟨packUnits_right hformat pBuffHead h, packUnits_right hformat pBuffHead h⟩⟩

/-! ## Two buffers -/

namespace NalBuffers

/-- Two units, of one byte and of two. -/
def twoUnits : NalBuffer := ⟨fun i => [1, 0x65, 2, 0x41, 0x42].getD i 0, 5, []⟩

/-- A unit of one byte, and one with nothing in it. -/
def emptyLast : NalBuffer := ⟨fun i => [1, 0x65, 0].getD i 0, 3, []⟩

end NalBuffers

open NalBuffers in
theorem two_units_packed :
    PacksRight 1 true twoUnits (HandleDataBuf_FromApp_EOS 1 true twoUnits) ∧
      PacksRight 1 true twoUnits (HandleDataBuf_FromApp_Data 1 true twoUnits) :=
  (nal_units_packed_iff 1 (.inl rfl) true twoUnits).mpr
    ⟨[[0x65], [0x41, 0x42]], [], by simp [Fits], by decide, by decide, .inl ⟨rfl, by decide⟩⟩

open NalBuffers in
/-- The length of the last unit is not stored. -/
theorem empty_last_unit_lost : ¬∀ (H264BitStreamFormat : Nat),
    H264BitStreamFormat = 1 ∨ H264BitStreamFormat = 2 ∨ H264BitStreamFormat = 4 →
      ∀ (bIsNALBigEndian : Bool) (pBuffHead : NalBuffer),
        PacksRight H264BitStreamFormat bIsNALBigEndian pBuffHead
          (HandleDataBuf_FromApp_EOS H264BitStreamFormat bIsNALBigEndian pBuffHead) ∧
        PacksRight H264BitStreamFormat bIsNALBigEndian pBuffHead
          (HandleDataBuf_FromApp_Data H264BitStreamFormat bIsNALBigEndian pBuffHead) := by
  intro hclaim
  obtain ⟨t, ht, -, -, hsizes⟩ := (hclaim 1 (.inl rfl) true emptyLast).1.packs [[0x65], []]
    (by simp [Fits]) (by decide) (by decide)
  have hstored : (HandleDataBuf_FromApp_EOS 1 true emptyLast).map
      (fun result => result.2.pNALUSizeArray) = some [1] := by decide
  rw [ht, Option.map_some, hsizes] at hstored
  exact absurd hstored (by decide)

end OmapHal.VideoDecoder
