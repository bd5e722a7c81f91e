import OmapHal.Dynload.Field
import OmapHal.Dynload.State

/-!
# Initialization records

`cload_cinit` of `cload.c`: the records of a `.cinit` section come in packets, and a state machine
in the loader's state carries a record from one packet into the next.
-/

namespace OmapHal.Dynload

open OmapHal.Core List

inductive cinit_mode where
  | CI_count
  | CI_address
  | CI_copy
  | CI_done
  deriving DecidableEq, Repr

def CINIT_ALIGN : Nat := 8

def CINIT_COUNT : Nat := 4

def CINIT_ADDRESS : Nat := 4

def CINIT_DEFAULT_PAGE : UInt16 := 0

/-- A call of `writemem`. -/
structure TargetWrite where
  page : UInt16
  locn : LDR_ADDR
  bits : List UInt8
  deriving DecidableEq, Repr

/-- What `cload_cinit` uses of the loader's state, and the calls that it has made. -/
structure CinitState where
  cinit_state : cinit_mode
  cinit_count : Nat
  cinit_addr : LDR_ADDR
  cinit_page : UInt16
  dload_errcount : Nat
  writes : List TargetWrite
  deriving DecidableEq, Repr

/-- The loader's state is cleared before the load. -/
def CinitState.start : CinitState where
  cinit_state := .CI_count
  cinit_count := 0
  cinit_addr := 0
  cinit_page := 0
  dload_errcount := 0
  writes := []

/-- A word at the front of the packet. The field is a whole word, so it has a value. -/
def unpackWord (pktp : List UInt8) (sgn : Nat) : RVALUE :=
  (dload_unpack (fun i => pktp.getD i 0) 0 32 0 sgn).getD 0

/-- The count of the record at the front. -/
def recordCount (pktp : List UInt8) : Int := (unpackWord pktp ROP_SGN).toInt

/-- `(init_count + CINIT_ALIGN - 1) & -CINIT_ALIGN`. -/
def alignInit (init_count : Nat) : Nat :=
  (init_count + CINIT_ALIGN - 1) / CINIT_ALIGN * CINIT_ALIGN

namespace CinitState

/-- `loopexit`. A packet pointer behind the packet's end counts as nothing left over. -/
def loopexit (dlthis : CinitState) (pktp : List UInt8) : CinitState :=
  if 0 < pktp.length then
    { dlthis with dload_errcount := dlthis.dload_errcount + 1, cinit_state := .CI_done }
  else dlthis

/-- The state after a count. -/
def count (dlthis : CinitState) (temp : Int) : CinitState :=
  if temp ≤ 0 then { dlthis with cinit_state := .CI_done }
  else { dlthis with cinit_count := temp.toNat, cinit_state := .CI_address }

/-- The state after an address. -/
def address (dlthis : CinitState) (atmp : RVALUE) : CinitState :=
  { dlthis with
    cinit_page := CINIT_DEFAULT_PAGE, cinit_addr := .ofBitVec atmp, cinit_state := .CI_copy }

/-- How far the packet pointer goes after `init_count` bytes are copied. -/
def advance (dlthis : CinitState) (init_count : Nat) : Nat :=
  if dlthis.cinit_count ≤ init_count then alignInit init_count else init_count

/-- The state after bytes are copied to the target. -/
def copy (writemem : TargetWrite → Bool) (dlthis : CinitState) (bits : List UInt8) : CinitState :=
  let call : TargetWrite := ⟨dlthis.cinit_page, dlthis.cinit_addr, bits⟩
  { dlthis with
    writes := dlthis.writes ++ [call]
    dload_errcount := if writemem call then dlthis.dload_errcount else dlthis.dload_errcount + 1
    cinit_count := dlthis.cinit_count - bits.length
    cinit_state := if dlthis.cinit_count ≤ bits.length then .CI_count else .CI_copy
    cinit_addr := dlthis.cinit_addr + .ofNat (dlthis.advance bits.length) }

end CinitState

/-- The loop over the packet. Each round but the last takes bytes from the packet, so a round
for each byte and one more are enough. -/
def cinitLoop (writemem : TargetWrite → Bool) : Nat → CinitState → List UInt8 → CinitState
  | 0, dlthis, _ => dlthis
  | rounds + 1, dlthis, pktp =>
    match dlthis.cinit_state with
    | .CI_count =>
      if pktp.length < CINIT_COUNT then dlthis.loopexit pktp
      else cinitLoop writemem rounds (dlthis.count (recordCount pktp)) (pktp.drop CINIT_COUNT)
    | .CI_address =>
      if pktp.length < CINIT_ADDRESS then dlthis.loopexit pktp
      else
        cinitLoop writemem rounds (dlthis.address (unpackWord pktp ROP_UNS))
          (pktp.drop CINIT_ADDRESS)
    | .CI_copy =>
      let init_count := min pktp.length dlthis.cinit_count
      if init_count = 0 then dlthis.loopexit pktp
      else
        cinitLoop writemem rounds (dlthis.copy writemem (pktp.take init_count))
          (pktp.drop (dlthis.advance init_count))
    | .CI_done => dlthis

def cload_cinit (writemem : TargetWrite → Bool) (dlthis : CinitState) (i_bits : List UInt8) :
    CinitState :=
  cinitLoop writemem (i_bits.length + 1) dlthis i_bits

section

variable {writemem : TargetWrite → Bool} {dlthis : CinitState} {pktp : List UInt8}

theorem CinitState.le_advance (dlthis : CinitState) (init_count : Nat) :
    init_count ≤ dlthis.advance init_count := by
  unfold advance alignInit CINIT_ALIGN
  split <;> omega

/-- Rounds that the loop does not need. -/
theorem cinitLoop_rounds (rounds : Nat) (h : pktp.length < rounds) :
    cinitLoop writemem rounds dlthis pktp = cload_cinit writemem dlthis pktp := by
  have hmore : ∀ (n m : Nat) (dl : CinitState) (bits : List UInt8), bits.length < n →
      bits.length < m → cinitLoop writemem n dl bits = cinitLoop writemem m dl bits := by
    intro n
    induction n with
    | zero => intro m dl bits hn; omega
    | succ n ih =>
      intro m dl bits hn hm
      obtain ⟨m, rfl⟩ : ∃ k, m = k + 1 := ⟨m - 1, by omega⟩
      rw [cinitLoop, cinitLoop]
      cases dl.cinit_state with
      | CI_count =>
        dsimp only
        split
        · rfl
        · apply ih
          · rw [length_drop]
            unfold CINIT_COUNT at *
            omega
          · rw [length_drop]
            unfold CINIT_COUNT at *
            omega
      | CI_address =>
        dsimp only
        split
        · rfl
        · apply ih
          · rw [length_drop]
            unfold CINIT_ADDRESS at *
            omega
          · rw [length_drop]
            unfold CINIT_ADDRESS at *
            omega
      | CI_copy =>
        dsimp only
        split
        · rfl
        · have hadv := dl.le_advance (min bits.length dl.cinit_count)
          apply ih
          · rw [length_drop]
            omega
          · rw [length_drop]
            omega
      | CI_done => rfl
  exact hmore rounds _ dlthis pktp h (Nat.lt_succ_self _)

/-! A round of the loop, state by state. -/

theorem cload_cinit_done (hs : dlthis.cinit_state = .CI_done) :
    cload_cinit writemem dlthis pktp = dlthis := by
  rw [cload_cinit, cinitLoop, hs]

theorem cload_cinit_nil : cload_cinit writemem dlthis [] = dlthis := by
  rw [cload_cinit, cinitLoop]
  cases dlthis.cinit_state <;> simp [CinitState.loopexit, CINIT_COUNT, CINIT_ADDRESS]

theorem cload_cinit_count (hs : dlthis.cinit_state = .CI_count) (h : CINIT_COUNT ≤ pktp.length) :
    cload_cinit writemem dlthis pktp =
      cload_cinit writemem (dlthis.count (recordCount pktp)) (pktp.drop CINIT_COUNT) := by
  rw [cload_cinit, cinitLoop, hs]
  rw [if_neg (Nat.not_lt.2 h)]
  apply cinitLoop_rounds
  rw [length_drop]
  unfold CINIT_COUNT at *
  omega

theorem cload_cinit_address (hs : dlthis.cinit_state = .CI_address)
    (h : CINIT_ADDRESS ≤ pktp.length) :
    cload_cinit writemem dlthis pktp =
      cload_cinit writemem (dlthis.address (unpackWord pktp ROP_UNS))
        (pktp.drop CINIT_ADDRESS) := by
  rw [cload_cinit, cinitLoop, hs]
  rw [if_neg (Nat.not_lt.2 h)]
  apply cinitLoop_rounds
  rw [length_drop]
  unfold CINIT_ADDRESS at *
  omega

theorem cload_cinit_copy (hs : dlthis.cinit_state = .CI_copy) (h : pktp ≠ [])
    (hc : 0 < dlthis.cinit_count) :
    cload_cinit writemem dlthis pktp =
      cload_cinit writemem (dlthis.copy writemem (pktp.take dlthis.cinit_count))
        (pktp.drop (dlthis.advance (min pktp.length dlthis.cinit_count))) := by
  have hpos := length_pos_of_ne_nil h
  have hmin : min pktp.length dlthis.cinit_count ≠ 0 := by omega
  have hadv := dlthis.le_advance (min pktp.length dlthis.cinit_count)
  have htake : pktp.take (min pktp.length dlthis.cinit_count) = pktp.take dlthis.cinit_count := by
    rw [take_eq_take_iff]
    omega
  rw [cload_cinit, cinitLoop, hs]
  rw [if_neg hmin, htake]
  apply cinitLoop_rounds
  rw [length_drop]
  omega

end

end OmapHal.Dynload
