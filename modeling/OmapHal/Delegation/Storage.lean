import OmapHal.Core.Run
import OmapHal.Delegation.Files

/-!
# Partitions as arrays of sectors

Runs of instructions on one partition, with the data that was last written to each sector.
-/

namespace OmapHal.Delegation

open Nat

open OmapHal.Core (Along overwrite sector sectors)

variable {σ : Type} {nSectorSize : Nat}

/-- An instruction on the partition. -/
inductive StorageEvent (nSectorSize : Nat) where
  | create
  | openPartition
  | close
  | destroy
  | read (nSectorIndex : UInt32)
  | write (nSectorIndex : UInt32) (data : List UInt8) (hdata : data.length = nSectorSize)
  | setSize (nNewSectorCount : UInt32)
  | sync

/-- The partition, with the data last written to the sectors that have stayed there. -/
structure Storage (σ : Type) where
  partition : Partition σ
  written : Nat → Option (List UInt8)

namespace Storage

variable (os : Stdio σ) (bytes : σ → List UInt8)

/-- The sectors' data after an instruction that leaves so many of them, if it succeeds. -/
def cut (s : Storage σ) (result : TEECResult) (n : Nat) : Nat → Option (List UInt8) :=
  fun j => if result = .success ∧ n ≤ j then none else s.written j

def step (s : Storage σ) : StorageEvent nSectorSize → Storage σ
  | .create =>
    let r := partitionCreate os s.partition
    ⟨r.2, s.cut r.1 0⟩
  | .openPartition => ⟨(partitionOpen os nSectorSize s.partition).2.2, s.written⟩
  | .close => ⟨(partitionClose os s.partition).2, s.written⟩
  | .destroy =>
    let r := partitionDestroy os s.partition
    ⟨r.2, s.cut r.1 0⟩
  | .read nSectorIndex =>
    ⟨(partitionRead os nSectorSize nSectorIndex.toNat s.partition).2.2, s.written⟩
  | .write nSectorIndex data _ =>
    let r := partitionWrite os nSectorSize nSectorIndex.toNat data s.partition
    ⟨r.2, if r.1 = .success then Function.update s.written nSectorIndex.toNat (some data)
      else s.written⟩
  | .setSize nNewSectorCount =>
    let r := partitionSetSize os nSectorSize nNewSectorCount.toNat s.partition
    ⟨r.2, s.cut r.1 nNewSectorCount.toNat⟩
  | .sync => ⟨(partitionSync os s.partition).2, s.written⟩

/-- The number of sectors in the file. -/
def count (nSectorSize : Nat) (s : Storage σ) : Nat :=
  sectors nSectorSize (bytes s.partition.file)

def data (nSectorSize : Nat) (s : Storage σ) (j : Nat) : List UInt8 :=
  sector nSectorSize (bytes s.partition.file) j

/-- The first sectors hold what they held. -/
def Keeps (nSectorSize : Nat) (s t : Storage σ) (n : Nat) : Prop :=
  ∀ j, j < n → data bytes nSectorSize t j = data bytes nSectorSize s j

/-- All sectors are as before. -/
def Same (nSectorSize : Nat) (s t : Storage σ) : Prop :=
  count bytes nSectorSize t = count bytes nSectorSize s ∧
    Keeps bytes nSectorSize s t (count bytes nSectorSize s)

/-- The system refuses a READ. -/
def ReadFails (s : Storage σ) (nSectorSize nSectorIndex : Nat) : Prop :=
  let found := os.fseek (.set (sectorOffset nSectorSize nSectorIndex)) s.partition.file
  found.1 ≠ none ∨ ∃ e, (os.fread nSectorSize found.2).2.1 = .error e

/-- What an instruction does on an array of sectors. -/
def Serves (s : Storage σ) (event : StorageEvent nSectorSize) : Prop :=
  let t := s.step os event
  match event with
  | .create =>
    if (partitionCreate os s.partition).1 = .success then count bytes nSectorSize t = 0
    else Same bytes nSectorSize s t
  | .destroy =>
    if (partitionDestroy os s.partition).1 = .success then count bytes nSectorSize t = 0
    else Same bytes nSectorSize s t
  | .read nSectorIndex =>
    let r := partitionRead os nSectorSize nSectorIndex.toNat s.partition
    (r.1 = .success → nSectorIndex.toNat < count bytes nSectorSize s ∧
      r.2.1 = data bytes nSectorSize s nSectorIndex.toNat ∧
        ∀ d ∈ s.written nSectorIndex.toNat, r.2.1 = d) ∧
      (s.partition.isOpen → nSectorIndex.toNat < count bytes nSectorSize s →
        ¬ s.ReadFails os nSectorSize nSectorIndex.toNat → r.1 = .success) ∧
      Same bytes nSectorSize s t
  | .write nSectorIndex d _ =>
    if (partitionWrite os nSectorSize nSectorIndex.toNat d s.partition).1 = .success then
      nSectorIndex.toNat < count bytes nSectorSize t ∧
        data bytes nSectorSize t nSectorIndex.toNat = d ∧
          ∀ j, j ≠ nSectorIndex.toNat → j < count bytes nSectorSize s →
            j < count bytes nSectorSize t ∧
              data bytes nSectorSize t j = data bytes nSectorSize s j
    else count bytes nSectorSize s ≤ count bytes nSectorSize t ∧
      Keeps bytes nSectorSize s t (count bytes nSectorSize s)
  | .setSize nNewSectorCount =>
    if (partitionSetSize os nSectorSize nNewSectorCount.toNat s.partition).1 = .success then
      count bytes nSectorSize t = nNewSectorCount.toNat ∧
        Keeps bytes nSectorSize s t (min (count bytes nSectorSize s) nNewSectorCount.toNat)
    else Same bytes nSectorSize s t
  | _ => Same bytes nSectorSize s t

/-- The 32-bit product of the sector's index and size wraps. -/
def Wraps (nSectorSize nSectorIndex : Nat) : Prop := 2 ^ 32 ≤ nSectorIndex * nSectorSize

/-- A READ whose product wraps finds no sector there; a WRITE's is no offset, and if the system
refuses a WRITE in its middle, a sector that was there is left alone; a SET_SIZE that adds 2^32
bytes or more is refused, and none is refused behind the end of an added sector. -/
def Careful (s : Storage σ) : StorageEvent nSectorSize → Prop
  | .read nSectorIndex =>
    s.partition.isOpen → Wraps nSectorSize nSectorIndex.toNat →
      sectorOffset nSectorSize nSectorIndex.toNat < 0 ∨
        ((bytes s.partition.file).length : Int) <
          sectorOffset nSectorSize nSectorIndex.toNat + nSectorSize
  | .write nSectorIndex d _ =>
    s.partition.isOpen →
      (Wraps nSectorSize nSectorIndex.toNat → sectorOffset nSectorSize nSectorIndex.toNat < 0) ∧
        let found := os.fseek (.set (sectorOffset nSectorSize nSectorIndex.toNat)) s.partition.file
        found.1 = none → (os.fwrite d found.2).1 ≠ none →
          nSectorIndex.toNat < count bytes nSectorSize s →
          sector nSectorSize (bytes (os.fwrite d found.2).2) nSectorIndex.toNat =
            data bytes nSectorSize s nSectorIndex.toNat
  | .setSize nNewSectorCount =>
    s.partition.isOpen → (os.fseek .toEnd s.partition.file).1 = none →
      count bytes nSectorSize s < nNewSectorCount.toNat →
      let added := (nNewSectorCount.toNat - count bytes nSectorSize s) * nSectorSize
      match refused os (added % 2 ^ 32) (os.fseek .toEnd s.partition.file).2 with
      | none => added < 2 ^ 32
      | some k => (bytes s.partition.file).length % nSectorSize + k < nSectorSize
  | _ => True

end Storage

/-! ### The instructions on the bytes -/

section

variable {os : Stdio σ} {bytes : σ → List UInt8} {position : σ → Nat} {pt : Partition σ}

theorem errno_ne (e : Errno) : ¬ errno2serror e = .success := errno2serror_ne_success e

theorem partitionCreate_bytes (hos : os.Files bytes position) (pt : Partition σ) :
    bytes (partitionCreate os pt).2.file =
      if (partitionCreate os pt).1 = .success then [] else bytes pt.file := by
  unfold partitionCreate
  cases hopen : pt.isOpen with
  | true => simp
  | false =>
    have hdone := hos.create_done pt.file
    have hfailed := hos.create_failed pt.file
    rcases hcall : os.fopen .create pt.file with ⟨_ | e, f⟩
    · simpa [hcall] using hdone
    · simpa [hcall, errno_ne] using hfailed

theorem partitionDestroy_bytes (hos : os.Files bytes position) (pt : Partition σ) :
    bytes (partitionDestroy os pt).2.file =
      if (partitionDestroy os pt).1 = .success then [] else bytes pt.file := by
  unfold partitionDestroy
  cases hopen : pt.isOpen with
  | true => simp
  | false =>
    have hdone := hos.unlink_done pt.file
    have hfailed := hos.unlink_failed pt.file
    rcases hcall : os.unlink pt.file with ⟨_ | e, f⟩
    · simpa [hcall] using hdone
    · simpa [hcall, errno_ne] using hfailed

theorem partitionOpen_bytes (hos : os.Files bytes position) (nSectorSize : Nat)
    (pt : Partition σ) : bytes (partitionOpen os nSectorSize pt).2.2.file = bytes pt.file := by
  unfold partitionOpen
  cases hopen : pt.isOpen with
  | true => rfl
  | false =>
    have hupdate := hos.update pt.file
    rcases hcall : os.fopen .update pt.file with ⟨_ | e, f⟩
    · simpa [hcall, hos.fseek] using hupdate
    · cases e <;> simpa [hcall] using hupdate

theorem partitionClose_bytes (hos : os.Files bytes position) (pt : Partition σ) :
    bytes (partitionClose os pt).2.file = bytes pt.file := by
  unfold partitionClose
  cases hopen : pt.isOpen with
  | true => exact hos.fclose pt.file
  | false => rfl

theorem partitionSync_bytes (hos : os.Files bytes position) (pt : Partition σ) :
    bytes (partitionSync os pt).2.file = bytes pt.file := by
  unfold partitionSync
  cases hopen : pt.isOpen with
  | true =>
    have hflush := hos.fflush pt.file
    rcases hcall : os.fflush pt.file with ⟨_ | e, f⟩
    · have hsync := hos.fdatasync f
      rcases hcall' : os.fdatasync f with ⟨_ | e, f'⟩
      · simp_all
      · simp_all
    · simpa [hcall] using hflush
  | false => rfl

theorem bmod_eq {x : Nat} (hx : x < 2 ^ 32) (h : 0 ≤ Int.bmod x (2 ^ 32) ∨ x < 2 ^ 31) :
    Int.bmod x (2 ^ 32) = x := by
  rw [Int.bmod_def] at h ⊢
  omega

/-- An offset that is none is refused, and another one is the product where that does not wrap. -/
theorem sectorOffset_eq {nSectorSize nSectorIndex : Nat}
    (hwraps : ¬ Storage.Wraps nSectorSize nSectorIndex)
    (h : 0 ≤ sectorOffset nSectorSize nSectorIndex ∨ nSectorIndex * nSectorSize < 2 ^ 31) :
    sectorOffset nSectorSize nSectorIndex = (nSectorIndex * nSectorSize : Nat) := by
  have hlt : nSectorIndex * nSectorSize < 2 ^ 32 := not_le.mp hwraps
  have hproduct : mul32 nSectorIndex nSectorSize = nSectorIndex * nSectorSize :=
    mod_eq_of_lt hlt
  have hoffset : sectorOffset nSectorSize nSectorIndex =
      Int.bmod (nSectorIndex * nSectorSize : Nat) (2 ^ 32) :=
    congrArg (fun x : Nat => Int.bmod x (2 ^ 32)) hproduct
  rw [hoffset] at h
  exact hoffset.trans (bmod_eq hlt h)

/-- A READ that succeeds found the bytes of a sector at its offset. -/
theorem partitionRead_spec (hos : os.Files bytes position) (nSectorSize nSectorIndex : Nat)
    (pt : Partition σ) :
    bytes (partitionRead os nSectorSize nSectorIndex pt).2.2.file = bytes pt.file ∧
      ((partitionRead os nSectorSize nSectorIndex pt).1 = .success → pt.isOpen ∧
        ∃ p : Nat, sectorOffset nSectorSize nSectorIndex = p ∧
          p + nSectorSize ≤ (bytes pt.file).length ∧
          (partitionRead os nSectorSize nSectorIndex pt).2.1 =
            ((bytes pt.file).drop p).take nSectorSize) := by
  unfold partitionRead
  cases hopen : pt.isOpen with
  | false => simp
  | true =>
    rw [if_pos rfl]
    have hbytes := hos.fseek (.set (sectorOffset nSectorSize nSectorIndex)) pt.file
    have hposition := hos.fseek_set (sectorOffset nSectorSize nSectorIndex) pt.file
    rcases hseek : os.fseek (.set (sectorOffset nSectorSize nSectorIndex)) pt.file with ⟨_ | e, f⟩
    · rw [hseek] at hbytes hposition
      dsimp only at hbytes hposition ⊢
      have hread := hos.fread nSectorSize f
      have hfull := hos.fread_full nSectorSize f
      rcases hcall : os.fread nSectorSize f with ⟨found, _ | _ | e, f'⟩
      · rw [hcall] at hread hfull
        obtain ⟨hend, rfl⟩ := hfull rfl
        refine ⟨hread.trans hbytes, fun _ => ⟨rfl, position f, (hposition rfl).symm, ?_, ?_⟩⟩
        · rwa [hbytes] at hend
        · simp [hbytes]
      · rw [hcall] at hread
        exact ⟨hread.trans hbytes, nofun⟩
      · rw [hcall] at hread
        exact ⟨hread.trans hbytes, fun h => absurd h (errno2serror_ne_success e)⟩
    · rw [hseek] at hbytes
      exact ⟨hbytes, fun h => absurd h (errno2serror_ne_success e)⟩

/-- A READ of bytes that are there succeeds unless the system refuses it. -/
theorem partitionRead_success (hos : os.Files bytes position) {nSectorSize nSectorIndex : Nat}
    (hopen : pt.isOpen) {p : Nat} (hp : sectorOffset nSectorSize nSectorIndex = p)
    (hend : p + nSectorSize ≤ (bytes pt.file).length)
    (hseek : (os.fseek (.set (sectorOffset nSectorSize nSectorIndex)) pt.file).1 = none)
    (hread : ∀ e, (os.fread nSectorSize
      (os.fseek (.set (sectorOffset nSectorSize nSectorIndex)) pt.file).2).2.1 ≠ .error e) :
    (partitionRead os nSectorSize nSectorIndex pt).1 = .success := by
  unfold partitionRead
  rw [if_pos hopen]
  have hbytes := hos.fseek (.set (sectorOffset nSectorSize nSectorIndex)) pt.file
  have hposition := hos.fseek_set (sectorOffset nSectorSize nSectorIndex) pt.file hseek
  rcases hcall : os.fseek (.set (sectorOffset nSectorSize nSectorIndex)) pt.file with ⟨_ | e, f⟩
  · rw [hcall] at hbytes hposition hread
    dsimp only at hbytes hposition hread ⊢
    have heof := hos.fread_eof nSectorSize f
    rcases hcall' : os.fread nSectorSize f with ⟨found, _ | _ | e, f'⟩
    · rfl
    · rw [hcall'] at heof
      have hshort := heof rfl
      rw [hbytes] at hshort
      omega
    · exact absurd (by rw [hcall']) (hread e)
  · rw [hcall] at hseek
    cases hseek

/-- A WRITE puts the data at its offset, or a part of it where the system refuses the rest. -/
theorem partitionWrite_spec (hos : os.Files bytes position) (nSectorSize nSectorIndex : Nat)
    (d : List UInt8) (pt : Partition σ) :
    ((partitionWrite os nSectorSize nSectorIndex d pt).1 = .success → pt.isOpen ∧
        ∃ p : Nat, sectorOffset nSectorSize nSectorIndex = p ∧
          bytes (partitionWrite os nSectorSize nSectorIndex d pt).2.file =
            overwrite 0 (bytes pt.file) p d) ∧
      ((partitionWrite os nSectorSize nSectorIndex d pt).1 ≠ .success →
        bytes (partitionWrite os nSectorSize nSectorIndex d pt).2.file = bytes pt.file ∨
          pt.isOpen ∧ ∃ p k : Nat, sectorOffset nSectorSize nSectorIndex = p ∧
            (os.fseek (.set (sectorOffset nSectorSize nSectorIndex)) pt.file).1 = none ∧
            (os.fwrite d
              (os.fseek (.set (sectorOffset nSectorSize nSectorIndex)) pt.file).2).1 ≠ none ∧
            bytes (partitionWrite os nSectorSize nSectorIndex d pt).2.file = bytes (os.fwrite d
                (os.fseek (.set (sectorOffset nSectorSize nSectorIndex)) pt.file).2).2 ∧
            bytes (partitionWrite os nSectorSize nSectorIndex d pt).2.file =
              overwrite 0 (bytes pt.file) p (d.take k)) := by
  unfold partitionWrite
  cases hopen : pt.isOpen with
  | false => simp
  | true =>
    rw [if_pos rfl]
    have hbytes := hos.fseek (.set (sectorOffset nSectorSize nSectorIndex)) pt.file
    have hposition := hos.fseek_set (sectorOffset nSectorSize nSectorIndex) pt.file
    rcases hseek : os.fseek (.set (sectorOffset nSectorSize nSectorIndex)) pt.file with ⟨_ | e, f⟩
    · rw [hseek] at hbytes hposition
      dsimp only at hbytes hposition ⊢
      have hoffset := (hposition rfl).symm
      have hdone := hos.fwrite_done d f
      have hfailed := hos.fwrite_failed d f
      rcases hcall : os.fwrite d f with ⟨_ | e, f'⟩
      · rw [hcall, hbytes] at hdone
        exact ⟨fun _ => ⟨rfl, position f, hoffset, hdone rfl⟩, fun h => absurd rfl h⟩
      · rw [hcall] at hfailed
        obtain ⟨k, hk⟩ := hfailed (Option.some_ne_none e)
        rw [hbytes] at hk
        refine ⟨fun h => absurd h (errno2serror_ne_success e), fun _ => .inr ⟨rfl, position f, k,
          hoffset, rfl, Option.some_ne_none e, rfl, hk⟩⟩
    · rw [hseek] at hbytes
      exact ⟨fun h => absurd h (errno2serror_ne_success e), fun _ => .inl hbytes⟩

theorem sectorCount_eq (hos : os.Files bytes position) {f : σ} {n : Nat} (hn : n < 2 ^ 31)
    (hposition : position f = n) (nSectorSize : Nat) :
    sectorCount nSectorSize (os.ftell f) = n / nSectorSize := by
  rw [sectorCount, hos.ftell, hposition]
  congr 1
  omega

/-- What SET_SIZE comes to, on an open partition whose end can be found. -/
theorem partitionSetSize_spec (hos : os.Files bytes position) (nSectorSize nNewSectorCount : Nat)
    (hopen : pt.isOpen) (hseek : (os.fseek .toEnd pt.file).1 = none) :
    let r := partitionSetSize os nSectorSize nNewSectorCount pt
    let nCurrentSectorCount := sectors nSectorSize (bytes pt.file)
    if nCurrentSectorCount < nNewSectorCount then
      let added := mul32 (nNewSectorCount - nCurrentSectorCount) nSectorSize
      let taken := refused os added (os.fseek .toEnd pt.file).2
      (r.1 = .success ↔ taken = none) ∧
        bytes r.2.file = bytes pt.file ++ List.replicate (taken.getD added) 0xA5
    else if nNewSectorCount < nCurrentSectorCount then
      bytes r.2.file = if r.1 = .success then
          (bytes pt.file).take (nNewSectorCount * nSectorSize)
        else bytes pt.file
    else r.1 = .success ∧ bytes r.2.file = bytes pt.file := by
  unfold partitionSetSize
  rw [if_pos hopen]
  have hbytes := hos.fseek .toEnd pt.file
  have hposition := hos.fseek_toEnd pt.file hseek
  have hlength := hos.length_lt pt.file
  rcases hcall : os.fseek .toEnd pt.file with ⟨_ | e, f⟩
  · rw [hcall] at hbytes hposition
    dsimp only at hbytes hposition ⊢
    rw [sectorCount_eq hos hlength hposition, ← sectors]
    by_cases hgrow : sectors nSectorSize (bytes pt.file) < nNewSectorCount
    · rw [if_pos hgrow, if_pos hgrow]
      have hfill := hos.fillSectors
        (mul32 (nNewSectorCount - sectors nSectorSize (bytes pt.file)) nSectorSize) f
        (by rw [hposition, hbytes])
      have hfirst := fillSectors_fst os
        (mul32 (nNewSectorCount - sectors nSectorSize (bytes pt.file)) nSectorSize) f
      rw [hbytes] at hfill
      rcases hfilled : fillSectors os
        (mul32 (nNewSectorCount - sectors nSectorSize (bytes pt.file)) nSectorSize) f
          with ⟨_ | e, f'⟩
      · rw [hfilled] at hfill hfirst
        exact ⟨iff_of_true rfl (hfirst.mp rfl), hfill⟩
      · rw [hfilled] at hfill hfirst
        refine ⟨iff_of_false (errno2serror_ne_success e) fun h => ?_, hfill⟩
        cases hfirst.mpr h
    · rw [if_neg hgrow, if_neg hgrow]
      by_cases hshrink : nNewSectorCount < sectors nSectorSize (bytes pt.file)
      · rw [if_pos hshrink, if_pos hshrink]
        have hmul : nNewSectorCount * nSectorSize ≤ (bytes pt.file).length :=
          le_trans (mul_le_mul_right nSectorSize (le_of_lt hshrink))
            (div_mul_le_self _ _)
        have hproduct : mul32 nNewSectorCount nSectorSize = nNewSectorCount * nSectorSize :=
          mod_eq_of_lt (by omega)
        rw [hproduct]
        have hdone := hos.ftruncate_done (nNewSectorCount * nSectorSize) f
        have hfailed := hos.ftruncate_failed (nNewSectorCount * nSectorSize) f
        rcases hcut : os.ftruncate (nNewSectorCount * nSectorSize) f with ⟨_ | e, f'⟩
        · rw [hcut, hbytes, Nat.sub_eq_zero_of_le hmul, List.replicate_zero, List.append_nil]
            at hdone
          exact hdone rfl
        · rw [hcut, hbytes] at hfailed
          rw [if_neg (errno2serror_ne_success e)]
          exact hfailed (Option.some_ne_none e)
      · rw [if_neg hshrink, if_neg hshrink]
        exact ⟨rfl, hbytes⟩
  · rw [hcall] at hseek
    cases hseek

end

end OmapHal.Delegation
