import OmapHal.Core.Sectors
import OmapHal.Delegation.Partition

/-!
# Files behind the C library

What is documented of the library calls of the daemon on a regular file: its bytes and the position
of its stream. Any call may fail.
-/

namespace OmapHal.Delegation

open List

open OmapHal.Core (overwrite)

variable {d : List UInt8}

variable {σ : Type}

/-- The bytes of the file and its position under each call. -/
structure Stdio.Files (os : Stdio σ) (bytes : σ → List UInt8) (position : σ → Nat) : Prop where
  /-- A position is a 32-bit `long`. -/
  length_lt : ∀ f, (bytes f).length < 2 ^ 31
  unlink_done : ∀ f, (os.unlink f).1 = none → bytes (os.unlink f).2 = []
  unlink_failed : ∀ f, (os.unlink f).1 ≠ none → bytes (os.unlink f).2 = bytes f
  create_done : ∀ f, (os.fopen .create f).1 = none → bytes (os.fopen .create f).2 = []
  create_failed : ∀ f, (os.fopen .create f).1 ≠ none → bytes (os.fopen .create f).2 = bytes f
  update : ∀ f, bytes (os.fopen .update f).2 = bytes f
  fclose : ∀ f, bytes (os.fclose f) = bytes f
  fseek : ∀ origin f, bytes (os.fseek origin f).2 = bytes f
  fseek_set : ∀ k f, (os.fseek (.set k) f).1 = none → (position (os.fseek (.set k) f).2 : Int) = k
  fseek_toEnd : ∀ f, (os.fseek .toEnd f).1 = none →
    position (os.fseek .toEnd f).2 = (bytes f).length
  ftell : ∀ f, os.ftell f = position f
  fread : ∀ n f, bytes (os.fread n f).2.2 = bytes f
  fread_full : ∀ n f, (os.fread n f).2.1 = .full → position f + n ≤ (bytes f).length ∧
    (os.fread n f).1 = ((bytes f).drop (position f)).take n
  fread_eof : ∀ n f, (os.fread n f).2.1 = .eof → (bytes f).length < position f + n
  fwrite_done : ∀ d f, (os.fwrite d f).1 = none →
    bytes (os.fwrite d f).2 = overwrite 0 (bytes f) (position f) d
  fwrite_failed : ∀ d f, (os.fwrite d f).1 ≠ none →
    ∃ k, bytes (os.fwrite d f).2 = overwrite 0 (bytes f) (position f) (d.take k)
  fputc_done : ∀ c f, (os.fputc c f).1 = none →
    bytes (os.fputc c f).2 = overwrite 0 (bytes f) (position f) [c] ∧
      position (os.fputc c f).2 = position f + 1
  fputc_failed : ∀ c f, (os.fputc c f).1 ≠ none → bytes (os.fputc c f).2 = bytes f
  ftruncate_done : ∀ n f, (os.ftruncate n f).1 = none →
    bytes (os.ftruncate n f).2 = (bytes f).take n ++ List.replicate (n - (bytes f).length) 0
  ftruncate_failed : ∀ n f, (os.ftruncate n f).1 ≠ none → bytes (os.ftruncate n f).2 = bytes f
  fflush : ∀ f, bytes (os.fflush f).2 = bytes f
  fdatasync : ∀ f, bytes (os.fdatasync f).2 = bytes f

variable (os : Stdio σ) {bytes : σ → List UInt8} {position : σ → Nat} {f : σ}

/-- How many bytes the library takes of those that fill added sectors before it refuses one; `none`
where it takes them all. -/
def refused : Nat → σ → Option Nat
  | 0, _ => none
  | n + 1, f =>
    if (os.fputc 0xA5 f).1 = none then (refused n (os.fputc 0xA5 f).2).map (· + 1) else some 0

variable {os}

theorem fillSectors_fst (os : Stdio σ) (n : Nat) (f : σ) :
    (fillSectors os n f).1 = none ↔ refused os n f = none := by
  induction n generalizing f with
  | zero => exact iff_of_true rfl rfl
  | succ n ih =>
    rw [fillSectors, refused]
    rcases hput : os.fputc 0xA5 f with ⟨_ | e, f'⟩
    · simpa [hput] using ih f'
    · simp

/-- The bytes taken stand behind the end of the file. -/
theorem Stdio.Files.fillSectors (hos : os.Files bytes position) (n : Nat) (f : σ)
    (hend : position f = (bytes f).length) :
    bytes (fillSectors os n f).2 =
      bytes f ++ List.replicate ((refused os n f).getD n) 0xA5 := by
  induction n generalizing f with
  | zero => simp [Delegation.fillSectors, refused]
  | succ n ih =>
    rw [Delegation.fillSectors, refused]
    rcases hput : os.fputc 0xA5 f with ⟨_ | e, f'⟩
    · obtain ⟨hbytes, hposition⟩ := hos.fputc_done 0xA5 f (by rw [hput])
      rw [hput] at hbytes hposition
      rw [hend, Core.overwrite_length (cons_ne_nil _ _)] at hbytes
      have hrest := ih f' (by rw [hposition, hbytes, hend, length_append]; rfl)
      rw [hbytes, append_assoc] at hrest
      cases htaken : refused os n f' with
      | none =>
        rw [htaken] at hrest
        simpa [htaken, replicate_succ] using hrest
      | some k =>
        rw [htaken] at hrest
        simpa [htaken, replicate_succ] using hrest
    · have hbytes := hos.fputc_failed 0xA5 f (by simp [hput])
      simpa [hput] using hbytes

/-! ### A file in memory -/

/-- A file that takes what fits. -/
structure MemoryFile where
  bytes : List UInt8
  position : Nat
  length_lt : bytes.length < 2 ^ 31

namespace MemoryFile

def empty : MemoryFile := ⟨[], 0, by decide⟩

def put (f : MemoryFile) (d : List UInt8) : Option Errno × MemoryFile :=
  if h : (overwrite 0 f.bytes f.position d).length < 2 ^ 31 then
    (none, ⟨overwrite 0 f.bytes f.position d, f.position + d.length, h⟩)
  else (some .ENOSPC, f)

def seekTo (f : MemoryFile) (offset : Int) : Option Errno × MemoryFile :=
  if 0 ≤ offset then (none, { f with position := offset.toNat }) else (some .EINVAL, f)

def get (f : MemoryFile) (n : Nat) : List UInt8 × ReadStatus × MemoryFile :=
  if f.position + n ≤ f.bytes.length then
    ((f.bytes.drop f.position).take n, .full, { f with position := f.position + n })
  else (f.bytes.drop f.position, .eof, { f with position := f.bytes.length })

def shorten (f : MemoryFile) (n : Nat) : Option Errno × MemoryFile :=
  if n ≤ f.bytes.length then
    (none, ⟨f.bytes.take n, f.position, Nat.lt_of_le_of_lt (f.bytes.length_take_le' n) f.length_lt⟩)
  else (some .EINVAL, f)

def stdio : Stdio MemoryFile where
  unlink _ := (none, empty)
  fopen
    | .create, _ => (none, empty)
    | .update, f => (none, { f with position := 0 })
  fclose f := f
  fseek
    | .set offset, f => f.seekTo offset
    | .toEnd, f => (none, { f with position := f.bytes.length })
  ftell f := f.position
  fread n f := f.get n
  fwrite d f := f.put d
  fputc c f := f.put [c]
  ftruncate n f := f.shorten n
  fflush f := (none, f)
  fdatasync f := (none, f)

theorem put_fits {f : MemoryFile} (hd : d ≠ [])
    (h : max f.bytes.length (f.position + d.length) < 2 ^ 31) : (f.put d).1 = none := by
  unfold put
  rw [dif_pos]
  rwa [Core.length_overwrite hd]

theorem put_done {f : MemoryFile} (h : (f.put d).1 = none) :
    (f.put d).2.bytes = overwrite 0 f.bytes f.position d ∧
      (f.put d).2.position = f.position + d.length := by
  unfold put at h ⊢
  split at h
  · rename_i hfits
    rw [dif_pos hfits]
    exact ⟨rfl, rfl⟩
  · cases h

theorem put_failed {f : MemoryFile} (h : (f.put d).1 ≠ none) :
    (f.put d).2 = f := by
  unfold put at h ⊢
  split at h
  · exact absurd rfl h
  · rename_i hfull
    rw [dif_neg hfull]

theorem stdio_files : stdio.Files MemoryFile.bytes MemoryFile.position where
  length_lt := length_lt
  unlink_done _ _ := rfl
  unlink_failed _ h := absurd rfl h
  create_done _ _ := rfl
  create_failed _ h := absurd rfl h
  update _ := rfl
  fclose _ := rfl
  fseek
    | .set offset, f => by
      change (f.seekTo offset).2.bytes = f.bytes
      unfold seekTo
      split <;> rfl
    | .toEnd, f => rfl
  fseek_set offset f h := by
    change (f.seekTo offset).1 = none at h
    change ((f.seekTo offset).2.position : Int) = offset
    unfold seekTo at h ⊢
    split at h
    · rename_i hoffset
      rw [if_pos hoffset]
      exact Int.toNat_of_nonneg hoffset
    · cases h
  fseek_toEnd _ _ := rfl
  ftell _ := rfl
  fread n f := by
    change (f.get n).2.2.bytes = f.bytes
    unfold get
    split <;> rfl
  fread_full n f h := by
    change (f.get n).2.1 = .full at h
    change _ ∧ (f.get n).1 = _
    unfold get at h ⊢
    split at h
    · rename_i hend
      rw [if_pos hend]
      exact ⟨hend, rfl⟩
    · cases h
  fread_eof n f h := by
    change (f.get n).2.1 = .eof at h
    unfold get at h
    split at h
    · cases h
    · rename_i hend
      exact not_le.mp hend
  fwrite_done _ _ h := (put_done h).1
  fwrite_failed d f h := ⟨0, by
    change (f.put d).2.bytes = _
    rw [put_failed h, take_zero, Core.overwrite_nil]⟩
  fputc_done _ _ h := put_done h
  fputc_failed c f h := congrArg bytes (put_failed (f := f) (d := [c]) h)
  ftruncate_done n f h := by
    change (f.shorten n).1 = none at h
    change (f.shorten n).2.bytes = _
    unfold shorten at h ⊢
    split at h
    · rename_i hn
      rw [if_pos hn, Nat.sub_eq_zero_of_le hn, replicate_zero, append_nil]
    · cases h
  ftruncate_failed n f h := by
    change (f.shorten n).1 ≠ none at h
    change (f.shorten n).2.bytes = _
    unfold shorten at h ⊢
    split at h
    · exact absurd rfl h
    · rename_i hn
      rw [if_neg hn]
  fflush _ := rfl
  fdatasync _ := rfl

end MemoryFile

end OmapHal.Delegation
