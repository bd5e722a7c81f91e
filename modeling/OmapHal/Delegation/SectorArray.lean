import OmapHal.Delegation.Storage

/-!
# Runs on the sectors of a partition

Careful instructions keep the data that was last written to each sector.
-/

namespace OmapHal.Delegation

open Nat List

open OmapHal.Core (Along overwrite sector sectors)

variable {σ : Type} {nSectorSize : Nat} {os : Stdio σ} {bytes : σ → List UInt8}
  {position : σ → Nat}

namespace Storage

variable {s t : Storage σ}

/-- The sectors hold what was written to them last. -/
def Inv (bytes : σ → List UInt8) (nSectorSize : Nat) (s : Storage σ) : Prop :=
  ∀ j d, s.written j = some d → j < count bytes nSectorSize s ∧ data bytes nSectorSize s j = d

theorem same_of_bytes (nSectorSize : Nat)
    (h : bytes t.partition.file = bytes s.partition.file) :
    Same bytes nSectorSize s t := by
  refine ⟨?_, fun j _ => ?_⟩
  · rw [count, h, count]
  · rw [data, h, data]

theorem Inv.same (hs : Inv bytes nSectorSize s) (h : Same bytes nSectorSize s t)
    (hwritten : ∀ j d, t.written j = some d → s.written j = some d) :
    Inv bytes nSectorSize t := by
  intro j d hj
  obtain ⟨hlt, hdata⟩ := hs j d (hwritten j d hj)
  exact ⟨h.1 ▸ hlt, (h.2 j hlt).trans hdata⟩

theorem cut_of_some {result : TEECResult} {n j : Nat} {d : List UInt8}
    (h : s.cut result n j = some d) : s.written j = some d ∧ (result = .success → j < n) := by
  unfold cut at h
  split at h
  · cases h
  · rename_i hkept
    exact ⟨h, fun hsuccess => not_le.mp fun hle => hkept ⟨hsuccess, hle⟩⟩

/-- An emptied file has no sectors, and nothing is written. -/
theorem Inv.emptied (hs : Inv bytes nSectorSize s) {result : TEECResult}
    (hwritten : t.written = s.cut result 0)
    (hbytes : bytes t.partition.file = if result = .success then [] else bytes s.partition.file) :
    (if result = .success then count bytes nSectorSize t = 0 else Same bytes nSectorSize s t) ∧
      Inv bytes nSectorSize t := by
  by_cases hsuccess : result = .success
  · rw [if_pos hsuccess] at hbytes ⊢
    refine ⟨?_, fun j d hj => ?_⟩
    · rw [count, hbytes, sectors, length_nil, Nat.zero_div]
    · rw [hwritten] at hj
      exact absurd ((cut_of_some hj).2 hsuccess) (not_lt_zero j)
  · rw [if_neg hsuccess] at hbytes ⊢
    have hsame := same_of_bytes nSectorSize hbytes
    refine ⟨hsame, hs.same hsame fun j d hj => ?_⟩
    rw [hwritten] at hj
    exact (cut_of_some hj).1

variable {nSectorIndex nNewSectorCount : UInt32} {d : List UInt8}

theorem serves_read (hos : os.Files bytes position) (hsize : 0 < nSectorSize)
    (hs : Inv bytes nSectorSize s)
    (hcareful : Careful os bytes s (.read nSectorIndex : StorageEvent nSectorSize)) :
    Serves os bytes s (.read nSectorIndex : StorageEvent nSectorSize) := by
  obtain ⟨hbytes, hsuccess⟩ :=
    partitionRead_spec hos nSectorSize nSectorIndex.toNat s.partition
  refine ⟨fun hok => ?_, fun hopen hlt hsystem => ?_, same_of_bytes _ hbytes⟩
  · obtain ⟨hopen, p, hp, hend, hfound⟩ := hsuccess hok
    have hwraps : ¬ Wraps nSectorSize nSectorIndex.toNat := by
      intro hwraps
      have hshort := hcareful hopen hwraps
      omega
    have hproduct := sectorOffset_eq hwraps (.inl (hp ▸ Int.natCast_nonneg p))
    obtain rfl : p = nSectorIndex.toNat * nSectorSize := by omega
    have hlt : nSectorIndex.toNat < count bytes nSectorSize s := by
      rw [count, Core.lt_sectors_iff hsize, add_mul, one_mul]
      exact hend
    refine ⟨hlt, hfound, fun e he => ?_⟩
    exact hfound.trans (hs _ e he).2
  · have hend := (Core.lt_sectors_iff hsize).mp hlt
    rw [add_mul, one_mul] at hend
    have hlength := hos.length_lt s.partition.file
    have hshort : nSectorIndex.toNat * nSectorSize < 2 ^ 31 := by omega
    have hoffset := sectorOffset_eq (not_le.mpr (by omega)) (.inr hshort)
    obtain ⟨hseek, hread⟩ := not_or.mp hsystem
    exact partitionRead_success hos hopen hoffset hend (not_not.mp hseek) (not_exists.mp hread)

/-- Data within one sector leaves the other ones. -/
theorem kept_of_overwrite (hsize : 0 < nSectorSize) {i : Nat} (hd : d.length ≤ nSectorSize)
    (hbytes : bytes t.partition.file =
      overwrite 0 (bytes s.partition.file) (i * nSectorSize) d) (j : Nat) (hji : j ≠ i)
    (hj : j < count bytes nSectorSize s) : j < count bytes nSectorSize t ∧
      data bytes nSectorSize t j = data bytes nSectorSize s j := by
  rw [count, data, hbytes]
  exact ⟨lt_of_lt_of_le hj Core.sectors_le_overwrite,
    Core.sector_overwrite_of_ne hsize hd hji hj⟩

theorem serves_write (hos : os.Files bytes position) (hsize : 0 < nSectorSize)
    (hs : Inv bytes nSectorSize s) (hd : d.length = nSectorSize)
    (hcareful : Careful os bytes s (.write nSectorIndex d hd)) :
    Serves os bytes s (.write nSectorIndex d hd) ∧
      Inv bytes nSectorSize (s.step os (.write nSectorIndex d hd)) := by
  obtain ⟨hdone, hfailed⟩ := partitionWrite_spec hos nSectorSize nSectorIndex.toNat d s.partition
  have hoffset : ∀ p : Nat, s.partition.isOpen →
      sectorOffset nSectorSize nSectorIndex.toNat = p → p = nSectorIndex.toNat * nSectorSize := by
    intro p hopen hp
    have hproduct := sectorOffset_eq (fun hwraps => absurd ((hcareful hopen).1 hwraps) (by omega))
      (.inl (hp ▸ Int.natCast_nonneg p))
    omega
  by_cases hok : (partitionWrite os nSectorSize nSectorIndex.toNat d s.partition).1 = .success
  · obtain ⟨hopen, p, hp, hbytes⟩ := hdone hok
    obtain rfl := hoffset p hopen hp
    have hothers := kept_of_overwrite (t := s.step os (.write nSectorIndex d hd)) hsize
      (le_of_eq hd) hbytes
    have hnew : nSectorIndex.toNat <
        count bytes nSectorSize (s.step os (.write nSectorIndex d hd)) := by
      rw [count, step, hbytes]
      exact Core.lt_sectors_overwrite_self hsize hd
    have hdata : data bytes nSectorSize (s.step os (.write nSectorIndex d hd))
        nSectorIndex.toNat = d := by
      rw [data, step, hbytes]
      exact Core.sector_overwrite_self hd
    constructor
    · rw [Serves, if_pos hok]
      exact ⟨hnew, hdata, hothers⟩
    · intro j e hj
      rw [step, if_pos hok] at hj
      dsimp only at hj
      by_cases hji : j = nSectorIndex.toNat
      · subst hji
        rw [Function.update_self] at hj
        obtain rfl := Option.some.inj hj
        exact ⟨hnew, hdata⟩
      · rw [Function.update_of_ne hji] at hj
        obtain ⟨hlt, he⟩ := hs j e hj
        obtain ⟨hlt', hkept⟩ := hothers j hji hlt
        exact ⟨hlt', hkept.trans he⟩
  · have hkept : count bytes nSectorSize s ≤
          count bytes nSectorSize (s.step os (.write nSectorIndex d hd)) ∧
        Keeps bytes nSectorSize s (s.step os (.write nSectorIndex d hd))
          (count bytes nSectorSize s) := by
      rcases hfailed hok with hbytes | ⟨hopen, p, k, hp, hseek, hwrite, htorn, hbytes⟩
      · have hsame := same_of_bytes nSectorSize
          (t := s.step os (.write nSectorIndex d hd)) hbytes
        exact ⟨le_of_eq hsame.1.symm, hsame.2⟩
      · obtain rfl := hoffset p hopen hp
        have hothers := kept_of_overwrite (t := s.step os (.write nSectorIndex d hd)) hsize
          (by rw [length_take]; omega) hbytes
        refine ⟨?_, fun j hj => ?_⟩
        · rw [count, count, step, hbytes]
          exact Core.sectors_le_overwrite
        · by_cases hji : j = nSectorIndex.toNat
          · rw [hji] at hj ⊢
            rw [data, step, htorn]
            exact (hcareful hopen).2 hseek hwrite hj
          · exact (hothers j hji hj).2
    constructor
    · rw [Serves, if_neg hok]
      exact hkept
    · intro j e hj
      rw [step, if_neg hok] at hj
      obtain ⟨hlt, he⟩ := hs j e hj
      exact ⟨lt_of_lt_of_le hlt hkept.1, (hkept.2 j hlt).trans he⟩

theorem serves_setSize (hos : os.Files bytes position) (hsize : 0 < nSectorSize)
    (hs : Inv bytes nSectorSize s)
    (hcareful : Careful os bytes s (.setSize nNewSectorCount : StorageEvent nSectorSize)) :
    Serves os bytes s (.setSize nNewSectorCount : StorageEvent nSectorSize) ∧
      Inv bytes nSectorSize
        (s.step os (.setSize nNewSectorCount : StorageEvent nSectorSize)) := by
  set t := s.step os (.setSize nNewSectorCount : StorageEvent nSectorSize) with ht
  set r := partitionSetSize os nSectorSize nNewSectorCount.toNat s.partition with hr
  have hwritten : t.written = s.cut r.1 nNewSectorCount.toNat := rfl
  have hpartition : t.partition = r.2 := rfl
  -- it is enough that the sectors are right
  suffices h : if r.1 = .success then count bytes nSectorSize t = nNewSectorCount.toNat ∧
        Keeps bytes nSectorSize s t (min (count bytes nSectorSize s) nNewSectorCount.toNat)
      else Same bytes nSectorSize s t by
    refine ⟨h, ?_⟩
    by_cases hok : r.1 = .success
    · rw [if_pos hok] at h
      intro j e hj
      rw [hwritten] at hj
      obtain ⟨hj, hcut⟩ := cut_of_some hj
      obtain ⟨hlt, he⟩ := hs j e hj
      exact ⟨h.1.symm ▸ hcut hok, (h.2 j (Nat.lt_min.mpr ⟨hlt, hcut hok⟩)).trans he⟩
    · rw [if_neg hok] at h
      refine hs.same h fun j e hj => ?_
      rw [hwritten] at hj
      exact (cut_of_some hj).1
  by_cases hopen : s.partition.isOpen
  swap
  · have hclosed : r = (.badState, s.partition) := by
      rw [hr, partitionSetSize, if_neg hopen]
    rw [hclosed] at hpartition ⊢
    exact same_of_bytes _ (by rw [hpartition])
  by_cases hseek : (os.fseek .toEnd s.partition.file).1 = none
  swap
  · obtain ⟨e, he⟩ := Option.ne_none_iff_exists'.mp hseek
    have hfailed : r.1 = errno2serror e ∧
        r.2.file = (os.fseek .toEnd s.partition.file).2 := by
      rw [hr, partitionSetSize, if_pos hopen]
      rcases hcall : os.fseek .toEnd s.partition.file with ⟨_ | e', f⟩
      · rw [hcall] at he
        cases he
      · rw [hcall] at he
        cases he
        exact ⟨rfl, rfl⟩
    rw [if_neg (hfailed.1 ▸ errno2serror_ne_success e)]
    exact same_of_bytes _ (by rw [hpartition, hfailed.2, hos.fseek])
  have hspec := partitionSetSize_spec hos nSectorSize nNewSectorCount.toNat hopen hseek
  rw [← hr, ← count] at hspec
  by_cases hgrow : count bytes nSectorSize s < nNewSectorCount.toNat
  · rw [if_pos hgrow] at hspec
    obtain ⟨hiff, hbytes⟩ := hspec
    have htold := hcareful hopen hseek hgrow
    dsimp only at htold
    rw [mul32] at hiff hbytes
    cases htaken : refused os ((nNewSectorCount.toNat - count bytes nSectorSize s) *
      nSectorSize % 2 ^ 32) (os.fseek .toEnd s.partition.file).2 with
    | none =>
      rw [htaken] at htold hbytes
      rw [if_pos (hiff.mpr htaken)]
      have hadded : (replicate ((none : Option Nat).getD
          ((nNewSectorCount.toNat - count bytes nSectorSize s) * nSectorSize % 2 ^ 32))
            (0xA5 : UInt8)).length =
          (nNewSectorCount.toNat - count bytes nSectorSize s) * nSectorSize := by
        rw [length_replicate]
        exact mod_eq_of_lt htold
      refine ⟨?_, fun j hj => ?_⟩
      · rw [count, hpartition, hbytes, Core.sectors_append hsize hadded, ← count]
        omega
      · rw [data, hpartition, hbytes]
        exact Core.sector_append hsize (Nat.lt_min.mp hj).1
    | some k =>
      rw [htaken] at htold hbytes
      rw [if_neg fun h => absurd (htaken.symm.trans (hiff.mp h)) (Option.some_ne_none k)]
      refine ⟨?_, fun j hj => ?_⟩
      · rw [count, hpartition, hbytes, Core.sectors_append_of_lt]
        · rfl
        · rwa [length_replicate]
      · rw [data, hpartition, hbytes]
        exact Core.sector_append hsize hj
  · rw [if_neg hgrow] at hspec
    by_cases hshrink : nNewSectorCount.toNat < count bytes nSectorSize s
    · rw [if_pos hshrink] at hspec
      by_cases hok : r.1 = .success
      · rw [if_pos hok] at hspec ⊢
        refine ⟨?_, fun j hj => ?_⟩
        · rw [count, hpartition, hspec]
          exact Core.sectors_take hsize (le_of_lt hshrink)
        · rw [data, hpartition, hspec]
          exact Core.sector_take (Nat.lt_min.mp hj).2
      · rw [if_neg hok] at hspec ⊢
        exact same_of_bytes _ (by rw [hpartition, hspec])
    · rw [if_neg hshrink] at hspec
      obtain ⟨hok, hbytes⟩ := hspec
      have hsame : Same bytes nSectorSize s t := same_of_bytes _ (by rw [hpartition, hbytes])
      rw [if_pos hok]
      refine ⟨hsame.1.trans (by omega), fun j hj => hsame.2 j (Nat.lt_min.mp hj).1⟩

theorem serves_step (hos : os.Files bytes position) (hsize : 0 < nSectorSize)
    {event : StorageEvent nSectorSize} (hs : Inv bytes nSectorSize s)
    (hcareful : s.Careful os bytes event) :
    s.Serves os bytes event ∧ Inv bytes nSectorSize (s.step os event) := by
  have hquiet : ∀ t : Storage σ, t.written = s.written →
      bytes t.partition.file = bytes s.partition.file →
        Same bytes nSectorSize s t ∧ Inv bytes nSectorSize t := by
    intro t hwritten hbytes
    have hsame := same_of_bytes nSectorSize hbytes
    exact ⟨hsame, hs.same hsame fun j d hj => hwritten ▸ hj⟩
  cases event with
  | create => exact hs.emptied rfl (partitionCreate_bytes hos s.partition)
  | openPartition => exact hquiet _ rfl (partitionOpen_bytes hos nSectorSize s.partition)
  | close => exact hquiet _ rfl (partitionClose_bytes hos s.partition)
  | destroy => exact hs.emptied rfl (partitionDestroy_bytes hos s.partition)
  | read nSectorIndex =>
    have hbytes := (partitionRead_spec hos nSectorSize nSectorIndex.toNat s.partition).1
    exact ⟨serves_read hos hsize hs hcareful,
      (hquiet (s.step os (.read nSectorIndex : StorageEvent nSectorSize)) rfl hbytes).2⟩
  | write nSectorIndex d hd => exact serves_write hos hsize hs hd hcareful
  | setSize nNewSectorCount => exact serves_setSize hos hsize hs hcareful
  | sync => exact hquiet _ rfl (partitionSync_bytes hos s.partition)

end Storage

/-- A sector of zeros. -/
def blank : List UInt8 := List.replicate 512 0

theorem length_blank : blank.length = 512 := length_replicate

end OmapHal.Delegation
