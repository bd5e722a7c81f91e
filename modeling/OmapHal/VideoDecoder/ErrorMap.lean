import OmapHal.Core.Memory

/-!
# The map of macroblock errors

`Convert1ByteTo1BitMBErrorArray` packs the error bytes of the macroblocks into one bit each. The
index `j` of the byte being written starts before the map and moves on at every eighth entry; it
is what the function returns.
-/

namespace OmapHal.VideoDecoder

open OmapHal.Core Function

/-- One entry or-ed into the byte of the map at `j`. -/
def setErrorBit (ErrMapFrom ErrMapTo : Memory) (j i : Nat) : Memory :=
  Function.update ErrMapTo j
    (ErrMapTo j ||| (if ErrMapFrom i ≠ 0 then 1 else 0) <<< UInt8.ofNat (i % 8))

/-- The map and the index `j` when the loop has gone through the first entries. -/
def convertEntries (ErrMapFrom ErrMapTo : Memory) : Nat → Memory × Int
  | 0 => (ErrMapTo, -1)
  | i + 1 =>
    let (ErrMapTo, j) := convertEntries ErrMapFrom ErrMapTo i
    if i % 8 = 0 then
      (setErrorBit ErrMapFrom (Function.update ErrMapTo (j + 1).toNat 0) (j + 1).toNat i, j + 1)
    else (setErrorBit ErrMapFrom ErrMapTo j.toNat i, j)

/-- `Convert1ByteTo1BitMBErrorArray`: the bytes at `ErrMapTo` afterwards and the result. -/
def Convert1ByteTo1BitMBErrorArray (ErrMapFrom ErrMapTo : Memory) (nErrMapSize : Nat) :
    Memory × Int :=
  convertEntries ErrMapFrom ErrMapTo nErrMapSize

variable {ErrMapFrom ErrMapTo : Memory} {i j n k b : Nat}

/-- Or-ing in an entry sets its bit and keeps every other one. -/
theorem testBit_setErrorBit :
    (setErrorBit ErrMapFrom ErrMapTo j i k).toNat.testBit b =
      ((ErrMapTo k).toNat.testBit b || decide (k = j ∧ b = i % 8 ∧ ErrMapFrom i ≠ 0)) := by
  have hi : i % 8 < 8 := Nat.mod_lt i (by omega)
  rw [setErrorBit, update_apply]
  by_cases hk : k = j
  · subst hk
    by_cases hf : ErrMapFrom i = 0
    · simp [hf]
    · have hone : ((1 : UInt8) <<< UInt8.ofNat (i % 8)).toNat = 2 ^ (i % 8) := by
        interval_cases i % 8 <;> rfl
      simp [hf, hone, Nat.testBit_two_pow, eq_comm]
  · simp [hk]

/-- What the loop has written: the bytes it has begun, with the bits of the entries it has gone
through and no others. -/
structure Packed (ErrMapFrom ErrMapTo : Memory) (n : Nat) (written : Memory) : Prop where
  bit : ∀ k < (n + 7) / 8, ∀ b < 8,
    (written k).toNat.testBit b = decide (8 * k + b < n ∧ ErrMapFrom (8 * k + b) ≠ 0)
  kept : ∀ k, (n + 7) / 8 ≤ k → written k = ErrMapTo k

/-- The index is that of the last byte begun. -/
theorem convertEntries_index :
    (convertEntries ErrMapFrom ErrMapTo n).2 = ((n + 7) / 8 : Nat) - 1 := by
  induction n with
  | zero => simp [convertEntries]
  | succ i ih =>
    rw [convertEntries]
    dsimp only
    split
    · rw [ih]
      omega
    · rw [ih]
      omega

/-- One round begins a byte with its first bit. -/
theorem Packed.begin {written : Memory} (h : Packed ErrMapFrom ErrMapTo i written)
    (hi : i % 8 = 0) : Packed ErrMapFrom ErrMapTo (i + 1)
      (setErrorBit ErrMapFrom (Function.update written (i / 8) 0) (i / 8) i) := by
  refine ⟨fun k hk b hb => ?_, fun k hk => ?_⟩
  · rw [testBit_setErrorBit, update_apply]
    by_cases hki : k = i / 8
    · subst hki
      by_cases hb0 : b = 0
      · subst hb0
        have hat : 8 * (i / 8) + 0 = i := by omega
        simp [hat, hi]
      · have hbehind : ¬ 8 * (i / 8) + b < i + 1 := by omega
        simp [hbehind, hi, hb0]
    · have hbefore : 8 * k + b < i := by omega
      have hwithin : 8 * k + b < i + 1 := by omega
      simp [hki, h.bit k (by omega) b hb, hbefore, hwithin]
  · have hki : k ≠ i / 8 := by omega
    simp [setErrorBit, hki, h.kept k (by omega)]

/-- One round within a byte adds its bit. -/
theorem Packed.add {written : Memory} (h : Packed ErrMapFrom ErrMapTo i written)
    (hi : i % 8 ≠ 0) :
    Packed ErrMapFrom ErrMapTo (i + 1) (setErrorBit ErrMapFrom written (i / 8) i) := by
  refine ⟨fun k hk b hb => ?_, fun k hk => ?_⟩
  · rw [testBit_setErrorBit, h.bit k (by omega) b hb]
    by_cases hat : 8 * k + b = i
    · have hki : k = i / 8 := by omega
      have hbi : b = i % 8 := by omega
      have hnot : ¬ 8 * k + b < i := by omega
      simp [hat, ← hki, ← hbi]
    · have hoff : ¬ (k = i / 8 ∧ b = i % 8) := by omega
      have hiff : 8 * k + b < i + 1 ↔ 8 * k + b < i := by omega
      simp only [hiff]
      rw [decide_eq_false (p := k = i / 8 ∧ b = i % 8 ∧ _) fun hall =>
        hoff ⟨hall.1, hall.2.1⟩, Bool.or_false]
  · have hki : k ≠ i / 8 := by omega
    simp [setErrorBit, hki, h.kept k (by omega)]

theorem packed_convertEntries :
    Packed ErrMapFrom ErrMapTo n (convertEntries ErrMapFrom ErrMapTo n).1 := by
  induction n with
  | zero => exact ⟨fun k hk => absurd hk (Nat.not_lt_zero k), fun k hk => rfl⟩
  | succ i ih =>
    have hj := @convertEntries_index ErrMapFrom ErrMapTo i
    rw [convertEntries]
    dsimp only
    split
    · rename_i hi
      rw [hj, show (((i + 7) / 8 : Nat) - 1 + 1 : Int).toNat = i / 8 by omega]
      exact ih.begin hi
    · rename_i hi
      rw [hj, show (((i + 7) / 8 : Nat) - 1 : Int).toNat = i / 8 by omega]
      exact ih.add hi

/-- The map is written as it should be and the result is its number of bytes. -/
def PacksErrorMap (ErrMapFrom ErrMapTo : Memory) (n : Nat) (r : Memory × Int) : Prop :=
  Packed ErrMapFrom ErrMapTo n r.1 ∧ r.2 = ((n + 7) / 8 : Nat)

/-- The bytes of the map are right for every array, and its size is always one too small. -/
theorem error_map_size_short (ErrMapFrom ErrMapTo : Memory) (nErrMapSize : Nat) :
    Packed ErrMapFrom ErrMapTo nErrMapSize
        (Convert1ByteTo1BitMBErrorArray ErrMapFrom ErrMapTo nErrMapSize).1 ∧
      (Convert1ByteTo1BitMBErrorArray ErrMapFrom ErrMapTo nErrMapSize).2 + 1 =
        ((nErrMapSize + 7) / 8 : Nat) ∧
      ¬ PacksErrorMap ErrMapFrom ErrMapTo nErrMapSize
        (Convert1ByteTo1BitMBErrorArray ErrMapFrom ErrMapTo nErrMapSize) := by
  have hsize : (Convert1ByteTo1BitMBErrorArray ErrMapFrom ErrMapTo nErrMapSize).2 + 1 =
      ((nErrMapSize + 7) / 8 : Nat) := by
    rw [Convert1ByteTo1BitMBErrorArray, convertEntries_index]
    omega
  refine ⟨packed_convertEntries, hsize, fun h => ?_⟩
  have hclaimed := h.2
  omega

/-- One macroblock in error: the byte is written, and the size returned is zero. -/
theorem one_macroblock_size_zero :
    Convert1ByteTo1BitMBErrorArray (fun _ => 1) (fun _ => 255) 1 =
        (Function.update (fun _ => 255) 0 1, 0) ∧
      ¬ PacksErrorMap (fun _ => 1) (fun _ => 255) 1
        (Convert1ByteTo1BitMBErrorArray (fun _ => 1) (fun _ => 255) 1) := by
  have hrun : Convert1ByteTo1BitMBErrorArray (fun _ => 1) (fun _ => 255) 1 =
      (update (fun _ => 255) 0 1, 0) := by
    simp [Convert1ByteTo1BitMBErrorArray, convertEntries, setErrorBit]
  refine ⟨hrun, fun h => ?_⟩
  rw [hrun] at h
  exact absurd h.2 (by decide)

end OmapHal.VideoDecoder
