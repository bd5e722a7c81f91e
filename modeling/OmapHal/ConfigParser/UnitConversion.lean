import OmapHal.ConfigParser.Emulation
import OmapHal.ConfigParser.AvcConfig

/-!
# From start codes to lengths

What stands between the start codes 00 00 01 of a byte stream, and streams whose units follow the
standard: each behind a start code of three bytes, or of four with one more zero in front.
-/

namespace OmapHal.ConfigParser

open List Nat Function

section Units

variable {x y z u : List UInt8} {us : List (List UInt8)} {c e : Nat}

/-- The bytes before the first start code, between start codes and behind the last one, `c` zeros
having been seen before. -/
def units (c : Nat) : List UInt8 → List (List UInt8)
  | [] => [.replicate c 0]
  | b :: z =>
    if b = 0 then units (c + 1) z
    else if b = 1 ∧ 2 ≤ c then .replicate (c - 2) 0 :: units 0 z
    else (units 0 z).modifyHead fun u => .replicate c 0 ++ b :: u

theorem replicate_cons (c : Nat) (z : List UInt8) :
    List.replicate c 0 ++ 0 :: z = List.replicate (c + 1) 0 ++ z := by
  rw [replicate_succ', append_assoc, singleton_append]

/-- The first unit, and what is behind it. -/
theorem units_split (c : Nat) (z : List UInt8) :
    ∃ u us rest, units c z = u :: us ∧ List.replicate c 0 ++ z = u ++ rest ∧
      (rest = [] ∧ us = [] ∨ ∃ z', rest = 0 :: 0 :: 1 :: z' ∧ us = units 0 z') := by
  induction z generalizing c with
  | nil => exact ⟨_, _, [], rfl, rfl, .inl ⟨rfl, rfl⟩⟩
  | cons b z ih =>
    rw [units]
    by_cases h0 : b = 0
    · rw [if_pos h0, h0, replicate_cons]
      exact ih (c + 1)
    · rw [if_neg h0]
      by_cases h1 : b = 1 ∧ 2 ≤ c
      · rw [if_pos h1]
        refine ⟨_, _, 0 :: 0 :: 1 :: z, rfl, ?_, .inr ⟨z, rfl, rfl⟩⟩
        obtain ⟨d, rfl⟩ : ∃ d, c = d + 2 := ⟨c - 2, by omega⟩
        rw [Nat.add_sub_cancel, h1.1, replicate_cons, replicate_cons]
      · rw [if_neg h1]
        obtain ⟨u, us, rest, hunits, hsplit, hrest⟩ := ih 0
        rw [replicate_zero, nil_append] at hsplit
        refine ⟨.replicate c 0 ++ b :: u, us, rest, by rw [hunits]; rfl, ?_, hrest⟩
        rw [hsplit, append_assoc, cons_append]

/-- Behind zeros and 01, the units begin anew. -/
theorem units_startCode (c a : Nat) (h : 2 ≤ c + a) (z : List UInt8) :
    units c (List.replicate a 0 ++ 1 :: z) = List.replicate (c + a - 2) 0 :: units 0 z := by
  induction a generalizing c with
  | zero =>
    rw [replicate_zero, nil_append, units, if_neg (by decide), if_pos ⟨rfl, h⟩]
    rfl
  | succ a ih =>
    rw [replicate_succ, cons_append, units, if_pos rfl, ih (c + 1) (by omega)]
    congr 2
    omega

/-- No byte below 3 stands behind two zeros. -/
def Prevented (x : List UInt8) : Prop :=
  ∀ before b after, x = before ++ 0 :: 0 :: b :: after → 3 ≤ b

theorem Prevented.suffix (h : Prevented (x ++ y)) : Prevented y := fun before b after hy =>
  h (x ++ before) b after (by rw [hy, append_assoc])

/-- The byte behind the zeros does not end a start code, and what follows it is prevented too. -/
theorem Prevented.behind_zeros {b : UInt8} (h : Prevented (List.replicate c 0 ++ b :: y)) :
    ¬(b = 1 ∧ 2 ≤ c) ∧ Prevented (List.replicate 0 0 ++ y) := by
  constructor
  · rintro ⟨rfl, hc⟩
    obtain ⟨d, rfl⟩ : ∃ d, c = d + 2 := ⟨c - 2, by omega⟩
    rw [← replicate_cons, ← replicate_cons] at h
    exact absurd (h _ 1 y rfl) (by decide)
  · have hcons : replicate c 0 ++ b :: y = (replicate c 0 ++ [b]) ++ y := by
      rw [append_assoc, singleton_append]
    rw [hcons] at h
    exact h.suffix

/-- A prevented unit before a start code. -/
theorem units_prevented (h : Prevented (List.replicate c 0 ++ y)) (e : Nat) (z : List UInt8) :
    units c (y ++ (List.replicate (e + 2) 0 ++ 1 :: z)) =
      (List.replicate c 0 ++ y ++ List.replicate e 0) :: units 0 z := by
  induction y generalizing c with
  | nil =>
    rw [nil_append, units_startCode c (e + 2) (by omega), append_nil, replicate_append_replicate]
    rfl
  | cons b y ih =>
    rw [cons_append, units]
    by_cases h0 : b = 0
    · subst h0
      rw [replicate_cons] at h ⊢
      rw [if_pos rfl, ih h]
    · obtain ⟨h1, hrest⟩ := h.behind_zeros
      rw [if_neg h0, if_neg h1, ih hrest]
      simp

/-- A prevented unit at the end. -/
theorem units_last (h : Prevented (List.replicate c 0 ++ y)) :
    units c y = [List.replicate c 0 ++ y] := by
  induction y generalizing c with
  | nil => rw [units, append_nil]
  | cons b y ih =>
    rw [units]
    by_cases h0 : b = 0
    · subst h0
      rw [replicate_cons] at h ⊢
      rw [if_pos rfl, ih h]
    · obtain ⟨h1, hrest⟩ := h.behind_zeros
      rw [if_neg h0, if_neg h1, ih hrest]
      simp

/-- A unit of an AVC stream. -/
structure Nal where
  bytes : List UInt8
  prevented : Prevented bytes
  last : bytes.getLast? ≠ some 0

/-- Each unit behind its start code, of four bytes where the flag is set. -/
def stream : List (Bool × Nal) → List UInt8
  | [] => []
  | (long, nal) :: nals => .replicate (2 + long.toNat) 0 ++ 1 :: (nal.bytes ++ stream nals)

/-- A unit and the first zero of a start code of four bytes behind it. -/
def chunks : List (Bool × Nal) → List (List UInt8)
  | [] => []
  | (_, nal) :: nals =>
    (nal.bytes ++ .replicate (nals.head?.elim 0 fun next => next.1.toNat) 0) :: chunks nals

/-- The units of a stream. -/
theorem units_stream (long : Bool) (nal : Nal) (nals : List (Bool × Nal)) :
    units 0 (stream ((long, nal) :: nals)) =
      .replicate long.toNat 0 :: chunks ((long, nal) :: nals) := by
  rw [stream, units_startCode 0 (2 + long.toNat) (by omega), Nat.zero_add, Nat.add_sub_cancel_left]
  congr 1
  induction nals generalizing nal with
  | nil =>
    have hlast := units_last (c := 0) (y := nal.bytes) nal.prevented
    simpa [stream, chunks] using hlast
  | cons next nals ih =>
    obtain ⟨long', nal'⟩ := next
    have hnext := units_prevented (c := 0) (y := nal.bytes) nal.prevented long'.toNat
      (nal'.bytes ++ stream nals)
    rw [stream, add_comm 2, hnext, ih nal']
    rfl

end Units

/-!
## From start codes to lengths

The loop of `ti_video_config_parser` that replaces, in place, the start codes of an AVC stream by
lengths of 16 bits. `GetNAL_Config` finds the units; the loop keeps a length in an `int16` and
copies with `oscl_memcpy`, here byte by byte from the front.
-/

section Conversion

open OmapHal.Core

variable {data nal_unit : Memory} {u z : List UInt8} {us : List (List UInt8)} {a i k n count : Nat}
  {size : Int}

/-- The value of an `int16` variable. -/
def int16 (v : Int) : Int := (v + 2 ^ 15) % 2 ^ 16 - 2 ^ 15

/-- A pointer after an addition. -/
def advance (p : Nat) (v : Int) : Nat := ((p + v) % 2 ^ 32).toNat

/-- A byte that is read or written. -/
inductive Access where
  | read (p : Nat)
  | write (p : Nat)
  deriving DecidableEq, Repr

/-- The second loop of `GetNAL_Config`: its `i`, and up to where it has looked. -/
def findNextUnit (nal_unit : Memory) (size : Int) : Nat → Nat → Nat → Nat × Nat
  | 0, i, _ => (i, i)
  | n + 1, i, count =>
    if (i : Int) < size then
      if count ≥ 2 ∧ nal_unit i = 1 then (i - 2, i + 1)
      else findNextUnit nal_unit size n (i + 1) (zeros count (nal_unit i))
    else (i, i)

/-- What `GetNAL_Config` leaves in its arguments, with `*bitstream` as an offset, what it returns
and how many bytes it has looked at. -/
structure NalConfig where
  bitstream : Nat
  size : Int
  result : Int
  seen : Nat

/-- `GetNAL_Config`. -/
def GetNAL_Config (nal_unit : Memory) (size : Int) : NalConfig :=
  let i := skipZeros nal_unit size (size.toNat + 1) 0
  if nal_unit (i - 1) = 1 then
    let (next, seen) := findNextUnit nal_unit size size.toNat i 0
    { bitstream := i, size := size - next, result := next - i, seen := seen }
  else
    -- no SC at the beginning, not supposed to happen
    { bitstream := 0, size := 0, result := size, seen := i }

/-- Assumed of `oscl_memcpy`, which is not in the sources: it copies forwards byte by byte, also
where the ranges overlap. -/
def oscl_memcpy (data : Memory) (dst src : Nat) : Nat → Memory
  | 0 => data
  | n + 1 => oscl_memcpy (Function.update data dst (data src)) (dst + 1) (src + 1) n

/-- What `oscl_memcpy` reads and writes. -/
def copyLog (dst src : Nat) : Nat → List Access
  | 0 => []
  | n + 1 => .read src :: .write dst :: copyLog (dst + 1) (src + 1) n

/-- The variables of the conversion; the log is not in the code. -/
structure Conversion where
  data : Memory
  tmp_ptr : Nat
  buffer_begin : Nat
  length : Int
  initbufsize : Int
  tConfigSize : Int
  log : List Access

/-- The variables before the loop. -/
def Conversion.start (data : Memory) (inBytes : Nat) : Conversion where
  data := data
  tmp_ptr := 0
  buffer_begin := 0
  length := 0
  -- the size becomes an `int`
  initbufsize := (inBytes + 2 ^ 31) % 2 ^ 32 - 2 ^ 31
  tConfigSize := 0
  log := [.read 0, .read 1]

/-- One round of the loop. -/
def Conversion.round (s : Conversion) : Conversion :=
  let unit := advance s.tmp_ptr s.length
  let nal := GetNAL_Config (fun k => s.data (unit + k)) s.initbufsize
  let tmp_ptr := unit + nal.bitstream
  let length := int16 nal.result
  -- a negative length becomes a large `size_t`
  let n := (length % 2 ^ 32).toNat
  let data := Function.update (Function.update s.data s.buffer_begin (.ofNat (length % 256).toNat))
    (s.buffer_begin + 1) (.ofNat (length / 256 % 256).toNat)
  { data := oscl_memcpy data (s.buffer_begin + 2) tmp_ptr n
    tmp_ptr := tmp_ptr
    buffer_begin := advance s.buffer_begin (length + 2)
    length := length
    initbufsize := nal.size
    tConfigSize := s.tConfigSize + (length + 2)
    log := s.log ++ (List.range' unit nal.seen).map .read ++
      [.write s.buffer_begin, .write (s.buffer_begin + 1)] ++
      copyLog (s.buffer_begin + 2) tmp_ptr n }

/-- `do … while (initbufsize > 0)`; `none` is a loop that is not over after so many rounds. -/
def Conversion.run : Nat → Conversion → Option Conversion
  | 0, _ => none
  | n + 1, s => if s.round.initbufsize > 0 then s.round.run n else some s.round

/-- The conversion in `ti_video_config_parser`. -/
def convertUnits (data : Memory) (inBytes : Nat) (fuel : Nat) : Option Conversion :=
  if inBytes > 1 then
    if data 0 = 0 ∧ data 1 = 0 then (Conversion.start data inBytes).run fuel
    else some (.start data inBytes)
  else some { Conversion.start data inBytes with log := [] }

/-! ### Copying -/

theorem oscl_memcpy_outside {dst src : Nat} (n : Nat) (h : k < dst ∨ dst + n ≤ k) :
    oscl_memcpy data dst src n k = data k := by
  induction n generalizing data dst src with
  | zero => rfl
  | succ n ih =>
    rw [oscl_memcpy, ih (by omega), update_of_ne (by omega)]

/-- A copy towards the front. -/
theorem oscl_memcpy_inside {dst src : Nat} (hle : dst ≤ src) (n : Nat) (hk : k < n) :
    oscl_memcpy data dst src n (dst + k) = data (src + k) := by
  induction n generalizing data dst src k with
  | zero => omega
  | succ n ih =>
    rw [oscl_memcpy]
    cases k with
    | zero =>
      rw [oscl_memcpy_outside n (.inl (by omega)), add_zero, update_self]
      rfl
    | succ k =>
      have hdst : dst + (k + 1) = dst + 1 + k := by omega
      have hsrc : src + (k + 1) = src + 1 + k := by omega
      rw [hdst, hsrc, ih (by omega) (by omega), update_of_ne (by omega)]

theorem mem_copyLog_write {dst src : Nat} :
    Access.write k ∈ copyLog dst src n ↔ dst ≤ k ∧ k < dst + n := by
  induction n generalizing dst src with
  | zero =>
    rw [copyLog]
    exact iff_of_false not_mem_nil (by omega)
  | succ n ih =>
    rw [copyLog, mem_cons, mem_cons, ih, Access.write.injEq]
    constructor
    · rintro (h | h | h)
      · cases h
      · omega
      · omega
    · intro h
      by_cases hk : k = dst
      · exact .inr (.inl hk)
      · exact .inr (.inr (by omega))

/-! ### Finding a unit -/

/-- The second loop finds the end of a unit. -/
theorem findNextUnit_spec {m : Nat} (hm : size - i ≤ m) (hi : (i : Int) ≤ size) (hcount : count ≤ i)
    (hunits : units count (nal_unit.read i (size - i).toNat) = u :: us) :
    (findNextUnit nal_unit size m i count).1 + count = i + u.length ∧
      (findNextUnit nal_unit size m i count).1 ≤ (findNextUnit nal_unit size m i count).2 ∧
      i ≤ (findNextUnit nal_unit size m i count).2 ∧
      ((findNextUnit nal_unit size m i count).2 : Int) ≤ size := by
  induction m generalizing i count u us with
  | zero =>
    have hzero : (size - i).toNat = 0 := by omega
    rw [hzero] at hunits
    obtain ⟨rfl, -⟩ := cons.inj (hunits : [_] = _)
    rw [findNextUnit, length_replicate]
    exact ⟨rfl, le_refl i, le_refl i, hi⟩
  | succ m ih =>
    rw [findNextUnit]
    by_cases hlt : (i : Int) < size
    · have hsucc : (size - i).toNat = (size - (i + 1 : Nat)).toNat + 1 := by omega
      rw [hsucc, Memory.read, units] at hunits
      rw [if_pos hlt]
      by_cases hcode : count ≥ 2 ∧ nal_unit i = 1
      · rw [if_pos hcode]
        rw [if_neg (by rw [hcode.2]; decide), if_pos ⟨hcode.2, hcode.1⟩] at hunits
        obtain ⟨rfl, -⟩ := cons.inj hunits
        rw [length_replicate]
        refine ⟨?_, ?_, ?_, ?_⟩
        · show i - 2 + count = i + (count - 2)
          omega
        · show i - 2 ≤ i + 1
          omega
        · show i ≤ i + 1
          omega
        · show ((i + 1 : Nat) : Int) ≤ size
          omega
      · rw [if_neg hcode]
        -- the zeros that the loop goes on with, and the bytes that are sure to be in the unit
        obtain ⟨u', hrest, hlen⟩ : ∃ u',
            units (zeros count (nal_unit i))
              (nal_unit.read (i + 1) (size - (i + 1 : Nat)).toNat) = u' :: us ∧
            u.length + zeros count (nal_unit i) = count + 1 + u'.length := by
          by_cases h0 : nal_unit i = 0
          · rw [if_pos h0] at hunits
            have hzeros : zeros count (nal_unit i) = count + 1 := if_neg (not_not.mpr h0)
            rw [hzeros]
            exact ⟨u, hunits, add_comm ..⟩
          · rw [if_neg h0, if_neg fun h => hcode ⟨h.2, h.1⟩] at hunits
            have hzeros : zeros count (nal_unit i) = 0 := if_pos h0
            rw [hzeros]
            obtain ⟨u', us', rest, hsplit, -, -⟩ := units_split 0
              (nal_unit.read (i + 1) (size - (i + 1 : Nat)).toNat)
            rw [hsplit] at hunits
            obtain ⟨rfl, rfl⟩ := cons.inj hunits
            refine ⟨u', hsplit, ?_⟩
            rw [length_append, length_replicate, length_cons]
            omega
        have hzeros : zeros count (nal_unit i) ≤ count + 1 := by
          rw [zeros]
          split <;> omega
        obtain ⟨hnext, hle, hseen, hsize⟩ :=
          ih (by push_cast; omega) (by push_cast; omega) (by omega) hrest
        exact ⟨by omega, hle, by omega, hsize⟩
    · have hzero : (size - i).toNat = 0 := by omega
      rw [hzero] at hunits
      obtain ⟨rfl, -⟩ := cons.inj (hunits : [_] = _)
      rw [if_neg hlt, length_replicate]
      exact ⟨rfl, le_refl i, le_refl i, hi⟩

/-- A unit behind a start code is found. -/
theorem GetNAL_Config_unit (ha : 2 ≤ a) (hsize : nal_unit.read 0 n = List.replicate a 0 ++ 1 :: z)
    (hunits : units 0 z = u :: us) :
    (GetNAL_Config nal_unit n).bitstream = a + 1 ∧
      (GetNAL_Config nal_unit n).result = u.length ∧
      (GetNAL_Config nal_unit n).size = n - (a + 1 + u.length : Nat) ∧
      a + 1 + u.length ≤ (GetNAL_Config nal_unit n).seen ∧
      (GetNAL_Config nal_unit n).seen ≤ n := by
  have hn : n = a + 1 + z.length := by
    have hlen := congrArg length hsize
    rw [Memory.length_read, length_append, length_replicate, length_cons] at hlen
    omega
  rw [hn, Memory.read_append, zero_add] at hsize
  have hcode : replicate a 0 ++ 1 :: z = (replicate a 0 ++ [1]) ++ z := by
    rw [append_assoc, singleton_append]
  rw [hcode, Memory.read_append, zero_add] at hsize
  obtain ⟨hfirst, hz⟩ := append_inj hsize (by simp)
  obtain ⟨hzeros, hone⟩ := append_inj hfirst (by simp)
  have hbegin : BeginsUnit nal_unit (a + 1) := by
    refine ⟨by omega, fun k hk => ?_, ?_⟩
    · have hk' : k < a := hk
      have hget := Memory.getElem?_read nal_unit 0 hk'
      rw [hzeros, getElem?_replicate, if_pos hk', zero_add] at hget
      exact (Option.some.inj hget).symm
    · exact (cons.inj hone).1
  have hskip : skipZeros nal_unit n ((n : Int).toNat + 1) 0 = a + 1 :=
    hbegin.skipZeros (by omega) _ (by omega) (by omega)
  have hrest : ((n : Int) - (a + 1 : Nat)).toNat = z.length := by omega
  obtain ⟨hnext, hle, hseen, hin⟩ := @findNextUnit_spec nal_unit u us (a + 1) 0 n (n : Int).toNat
    (by push_cast; omega) (by omega) (by omega) (by rw [hrest, hz]; exact hunits)
  rw [add_zero] at hnext
  rw [GetNAL_Config, hskip, Nat.add_sub_cancel, if_pos (cons.inj hone).1]
  refine ⟨rfl, ?_, ?_, ?_, ?_⟩
  · show (((findNextUnit nal_unit n (n : Int).toNat (a + 1) 0).1 : Int) - (a + 1 : Nat)) = _
    omega
  · show ((n : Int) - ((findNextUnit nal_unit n (n : Int).toNat (a + 1) 0).1 : Int)) = _
    omega
  · show a + 1 + u.length ≤ (findNextUnit nal_unit n (n : Int).toNat (a + 1) 0).2
    omega
  · show (findNextUnit nal_unit n (n : Int).toNat (a + 1) 0).2 ≤ n
    omega

end Conversion

end OmapHal.ConfigParser
