import OmapHal.Dynload.SectionBounds

/-!
# Extraction against the size of the section

The run over all packets of a section. The caller's buffer has the rounded size of the section,
which the loop of `DLOAD_GetSection` never looks at.
-/

namespace OmapHal.Dynload

open OmapHal.Core List

/-- What the loop does with so many packets. -/
structure PacketsRead (dlthis : ModuleInfo) (nip : Nat) (s : Extraction) (dest : Nat)
    (r : Option SectionError × Extraction) : Prop where
  none_iff : r.1 = none ↔ ∀ p ∈ dlthis.packets nip s.posn, dlthis.Verifies p
  mem_stored : ∀ a, a ∈ r.2.stored ↔
    a ∈ s.stored ∨ dlthis.StoresAt a (dlthis.packets nip s.posn) dest
  read_eq : (∀ p ∈ dlthis.packets nip s.posn, dlthis.Verifies p) →
    r.2.data.read dest (dlthis.span (dlthis.packets nip s.posn)) =
      (dlthis.packets nip s.posn).flatMap dlthis.packetData
  keeps : (∀ p ∈ dlthis.packets nip s.posn, dlthis.Verifies p) →
    ∀ x < dest, r.2.data x = s.data x

theorem getPackets_spec (dlthis : ModuleInfo) (nip : Nat) (s : Extraction) (dest : Nat) :
    PacketsRead dlthis nip s dest (getPackets dlthis nip s dest) := by
  induction nip generalizing s dest with
  | zero =>
    refine ⟨iff_of_true rfl fun p h => absurd h not_mem_nil, fun a => ?_, fun _ => rfl,
      fun _ _ _ => rfl⟩
    rw [ModuleInfo.packets, ModuleInfo.StoresAt, or_false]
    rfl
  | succ nip ih =>
    have hhead := getPacket_spec dlthis s dest
    have hmem := mem_cons_self (a := s.posn)
      (l := dlthis.packets nip (s.posn + IPH_SIZE + (dlthis.alignedSize s.posn).toNat))
    rw [getPackets]
    rcases hr : getPacket dlthis s dest with ⟨_ | error, s', ipsize⟩
    · rw [hr] at hhead
      have hv : dlthis.Verifies s.posn := hhead.none_iff.1 rfl
      obtain rfl : ipsize = (dlthis.alignedSize s.posn).toNat := hhead.advance_eq hv
      have hposn : s'.posn = s.posn + IPH_SIZE + (dlthis.alignedSize s.posn).toNat :=
        hhead.posn_eq hv
      obtain ⟨hnone, hstored, hread, hkeeps⟩ := ih s' (dest + (dlthis.alignedSize s.posn).toNat)
      rw [hposn] at hnone hread hkeeps
      simp only [hposn] at hstored
      have hall : (∀ p ∈ dlthis.packets (nip + 1) s.posn, dlthis.Verifies p) →
          ∀ p ∈ dlthis.packets nip (s.posn + IPH_SIZE + (dlthis.alignedSize s.posn).toNat),
            dlthis.Verifies p := fun h p hp => h p (mem_cons_of_mem _ hp)
      refine ⟨?_, fun a => ?_, fun h => ?_, fun h x hx => ?_⟩
      · rw [ModuleInfo.packets, forall_mem_cons, and_iff_right hv]
        exact hnone
      · rw [ModuleInfo.packets, ModuleInfo.StoresAt, and_iff_right hv, ← or_assoc,
          ← hhead.mem_stored a]
        exact hstored a
      · -- the packets behind leave the bytes of this one alone
        have hhere : (getPackets dlthis nip s'
            (dest + (dlthis.alignedSize s.posn).toNat)).2.data.read dest
              (dlthis.alignedSize s.posn).toNat = dlthis.packetData s.posn := by
          rw [Memory.read_congr fun x _ hx => hkeeps (hall h) x hx]
          exact hhead.read_eq hv
        rw [ModuleInfo.packets, ModuleInfo.span_cons, flatMap_cons, Memory.read_append]
        exact congrArg₂ (· ++ ·) hhere (hread (hall h))
      · exact (hkeeps (hall h) x (by omega)).trans (hhead.keeps hv x hx)
    · rw [hr] at hhead
      have hnot : ¬ dlthis.Verifies s.posn := fun h => by simpa using hhead.none_iff.2 h
      have hnotAll : ¬ ∀ p ∈ dlthis.packets (nip + 1) s.posn, dlthis.Verifies p := fun h =>
        hnot (h _ hmem)
      refine ⟨iff_of_false (by simp) hnotAll, fun a => ?_, fun h => absurd h hnotAll,
        fun h => absurd h hnotAll⟩
      rw [ModuleInfo.packets, ModuleInfo.StoresAt]
      exact (hhead.mem_stored a).trans (or_congr_right (or_iff_left fun h => hnot h.1).symm)

namespace ModuleInfo

variable (dlthis : ModuleInfo) (sptr : SectionRecord)

/-- The positions of a section's packets. -/
def sectionPackets : List Nat :=
  dlthis.packets sptr.ds_nipacks.toInt.toNat (doffAlign sptr.ds_first_pkt_offset).toNat

/-- The content of a section: its packets whose checksums verify, one behind the other. -/
def content : List UInt8 :=
  ((dlthis.sectionPackets sptr).filter fun p => dlthis.Verifies p).flatMap dlthis.packetData

/-- The size of a packet is no length of at most a packet's image. -/
def BadSize (p : Nat) : Prop :=
  (dlthis.packetSize p).toInt < 0 ∨ IMAGE_PACKET_SIZE < (dlthis.packetSize p).toInt

/-- A section is extracted as its header promises: the bytes that are stored are inside a buffer of
the rounded size, they are the section's content on success, and a malformed number of packets or
size of a packet is no success. -/
structure ExtractsInside (r : SectionResult) : Prop where
  inside : ∀ a ∈ r.stored, a < (DLOAD_RoundUpSectionSize sptr.ds_size).toNat
  stores : r.returned = true →
    r.data.read 0 (dlthis.content sptr).length = dlthis.content sptr ∧
      ∀ a, a ∈ r.stored ↔ a < (dlthis.content sptr).length
  rejects : sptr.ds_nipacks.toInt < 0 ∨ (∃ p ∈ dlthis.sectionPackets sptr, dlthis.BadSize p) →
    r.returned = false

/-- The section's header and packets agree: the packets that are reached end inside the section,
their number and sizes are not negative, and no reordering of an empty packet comes last. -/
def HeaderAgrees : Prop :=
  0 ≤ sptr.ds_nipacks.toInt ∧
    dlthis.Fits (DLOAD_RoundUpSectionSize sptr.ds_size).toNat (dlthis.sectionPackets sptr) 0 ∧
    ((∀ p ∈ dlthis.sectionPackets sptr, dlthis.Verifies p) →
      (∀ p ∈ dlthis.sectionPackets sptr, 0 ≤ (dlthis.packetSize p).toInt) ∧
      (dlthis.reorder_map ≠ 0 → ∀ p, (dlthis.sectionPackets sptr).getLast? = some p →
        dlthis.alignedSize p ≠ 0))

variable {dlthis sptr}

theorem content_eq (hall : ∀ p ∈ dlthis.sectionPackets sptr, dlthis.Verifies p) :
    dlthis.content sptr = (dlthis.sectionPackets sptr).flatMap dlthis.packetData := by
  rw [content, filter_eq_self.2 fun p hp => decide_eq_true (hall p hp)]

/-- The alignment takes no size above a packet's image to one below. -/
theorem Verifies.packetSize_le {p : Nat} (h : dlthis.Verifies p) :
    (dlthis.packetSize p).toInt ≤ IMAGE_PACKET_SIZE := by
  have hsize := h.2.2.1
  have hnonneg := h.2.1
  rw [toInt_of_nonneg hnonneg, alignedSize, toNat_doffAlign] at hsize
  unfold IMAGE_PACKET_SIZE at *
  rw [BitVec.toInt_eq_toNat_cond]
  split <;> omega

/-- Among packets that verify only a negative size is malformed. -/
theorem badSize_iff {p : Nat} (h : dlthis.Verifies p) :
    dlthis.BadSize p ↔ (dlthis.packetSize p).toInt < 0 :=
  or_iff_left (not_lt.2 h.packetSize_le)

end ModuleInfo

/-- A section is extracted as its header promises exactly when the seek to its packets is refused,
or its header and packets agree. -/
theorem extractsInside_iff (dlthis : ModuleInfo) (sptr : SectionRecord) (sectionData : Memory) :
    dlthis.ExtractsInside sptr (DLOAD_GetSection (some dlthis) (some sptr) sectionData) ↔
      set_file_posn (doffAlign sptr.ds_first_pkt_offset) = true ∨ dlthis.HeaderAgrees sptr := by
  rw [DLOAD_GetSection]
  by_cases hseek : set_file_posn (doffAlign sptr.ds_first_pkt_offset)
  · rw [if_pos hseek]
    refine iff_of_true ⟨fun a h => absurd h not_mem_nil, fun h => absurd h Bool.false_ne_true,
      fun _ => rfl⟩ (.inl hseek)
  rw [if_neg hseek, or_iff_right hseek]
  have hrun := getPackets_spec dlthis sptr.ds_nipacks.toInt.toNat
    ⟨(doffAlign sptr.ds_first_pkt_offset).toNat, sectionData, []⟩ 0
  match hr : getPackets dlthis sptr.ds_nipacks.toInt.toNat
    ⟨(doffAlign sptr.ds_first_pkt_offset).toNat, sectionData, []⟩ 0 with
  | (error, s) =>
  rw [hr] at hrun
  have hreturned : error.isNone ↔ ∀ p ∈ dlthis.sectionPackets sptr, dlthis.Verifies p := by
    rw [Option.isNone_iff_eq_none]
    exact hrun.none_iff
  have hstored : ∀ a, a ∈ s.stored ↔ dlthis.StoresAt a (dlthis.sectionPackets sptr) 0 := fun a =>
    (hrun.mem_stored a).trans (or_iff_right not_mem_nil)
  have hfits : (∀ a, dlthis.StoresAt a (dlthis.sectionPackets sptr) 0 →
      a < (DLOAD_RoundUpSectionSize sptr.ds_size).toNat) ↔
      dlthis.Fits (DLOAD_RoundUpSectionSize sptr.ds_size).toNat (dlthis.sectionPackets sptr) 0 :=
    ModuleInfo.storesAt_lt_iff_fits (Nat.zero_le _)
  constructor
  · rintro ⟨hinside, hstores, hrejects⟩
    have hcount : 0 ≤ sptr.ds_nipacks.toInt := by
      by_contra hneg
      have hnone : sptr.ds_nipacks.toInt.toNat = 0 := by omega
      have hempty : error.isNone := hreturned.2 fun p hp => by
        rw [ModuleInfo.sectionPackets, hnone] at hp
        exact absurd hp not_mem_nil
      exact Bool.noConfusion (hempty.symm.trans (hrejects (.inl (by omega))))
    refine ⟨hcount, hfits.1 fun a ha => hinside a ((hstored a).2 ha), fun hall => ?_⟩
    have htrue := hreturned.2 hall
    refine ⟨fun p hp => ?_, fun hmap p hp hempty => ?_⟩
    · by_contra hneg
      exact Bool.noConfusion (htrue.symm.trans (hrejects (.inr ⟨p, hp, .inl (by omega)⟩)))
    · -- the word that is put into order behind the content is stored
      have hbehind : dlthis.StoresAt (0 + dlthis.span (dlthis.sectionPackets sptr))
          (dlthis.sectionPackets sptr) 0 := ModuleInfo.storesAt_behind hall hmap hp hempty
      have hlt := ((hstores htrue).2 _).1 ((hstored _).2 hbehind)
      rw [ModuleInfo.content_eq hall, ModuleInfo.length_flatMap_packetData] at hlt
      omega
  · rintro ⟨hcount, hends, hsizes⟩
    refine ⟨fun a ha => hfits.2 hends a ((hstored a).1 ha), fun htrue => ?_, fun hbad => ?_⟩
    · have hall := hreturned.1 htrue
      rw [ModuleInfo.content_eq hall, ModuleInfo.length_flatMap_packetData]
      refine ⟨hrun.read_eq hall, fun a => ?_⟩
      rw [hstored a, ModuleInfo.storesAt_iff hall (hsizes hall).2]
      omega
    · rw [← Bool.not_eq_true]
      intro htrue
      have hall := hreturned.1 htrue
      rcases hbad with hneg | ⟨p, hp, hbad⟩
      · omega
      · have hneg := (ModuleInfo.badSize_iff (hall p hp)).1 hbad
        have hnonneg := (hsizes hall).1 p hp
        omega

/-- A file with a packet of two words, in host order. -/
def twoWords : ModuleInfo where
  strm := ⟨[0, 0, 0, 0, 8, 0, 0, 0, 247, 255, 255, 255, 0, 0, 0, 0, 0, 0, 0, 0], by decide⟩
  reorder_map := 0

/-- A section of four bytes with that packet. -/
def fourBytes : SectionRecord := ⟨4, 0, 1⟩

/-- Eight bytes are stored for a section of four. -/
theorem fourBytes_overruns :
    ¬ twoWords.ExtractsInside fourBytes
      (DLOAD_GetSection (some twoWords) (some fourBytes) fun _ => 0) := by
  intro h
  have hrun := getPackets_spec twoWords 1 ⟨0, fun _ => 0, []⟩ 0
  have hstored := (hrun.mem_stored 4).2 (.inr (.inl (by decide)))
  have hlt := h.inside 4 hstored
  exact absurd hlt (by decide)

end OmapHal.Dynload
