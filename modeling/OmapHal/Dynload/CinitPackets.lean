import OmapHal.Dynload.Cinit

/-!
# Initialization records in packets

A `.cinit` stream that arrives in pieces against the same stream in one packet: the target's
contents, the state of the machine and whether an error has been reported.
-/

namespace OmapHal.Dynload

open OmapHal.Core List Nat

/-- Each byte of a write in its place. -/
def putBytes (m : UInt16 × LDR_ADDR → Option UInt8) (page : UInt16) :
    LDR_ADDR → List UInt8 → UInt16 × LDR_ADDR → Option UInt8
  | _, [] => m
  | locn, b :: tail => putBytes (Function.update m (page, locn) (some b)) page (locn + 1) tail

/-- The last byte written to each address. -/
def written (writes : List TargetWrite) : UInt16 × LDR_ADDR → Option UInt8 :=
  writes.foldl (fun m call => putBytes m call.page call.locn call.bits) fun _ => none

/-- What a state comes to: the target's contents, where the machine stands, and whether an error
has been reported. -/
structure CinitView where
  cinit_state : cinit_mode
  cinit_count : Nat
  cinit_addr : LDR_ADDR
  cinit_page : UInt16
  failed : Bool
  target : UInt16 × LDR_ADDR → Option UInt8

def CinitState.view (dlthis : CinitState) : CinitView where
  cinit_state := dlthis.cinit_state
  cinit_count := dlthis.cinit_count
  cinit_addr := dlthis.cinit_addr
  cinit_page := dlthis.cinit_page
  failed := dlthis.dload_errcount != 0
  target := written dlthis.writes

/-- A cut after `bits` from the start of a record on: it splits the data of a record or the
padding behind it, and what stands before it of the record is no multiple of the alignment. -/
inductive CutsRecord : List UInt8 → Prop
  | within {bits : List UInt8} : 0 < recordCount bits → CINIT_COUNT + CINIT_ADDRESS < bits.length →
      bits.length < CINIT_COUNT + CINIT_ADDRESS + alignInit (recordCount bits).toNat →
      bits.length % CINIT_ALIGN ≠ 0 → CutsRecord bits
  | later {bits : List UInt8} : 0 < recordCount bits →
      CINIT_COUNT + CINIT_ADDRESS + alignInit (recordCount bits).toNat ≤ bits.length →
      CutsRecord (bits.drop (CINIT_COUNT + CINIT_ADDRESS + alignInit (recordCount bits).toNat)) →
      CutsRecord bits

section

variable {writemem : TargetWrite → Bool} {dlthis dl : CinitState} {pktp : List UInt8}

/-! States with one view stay so. -/

theorem view_eq_iff : dlthis.view = dl.view ↔
    dlthis.cinit_state = dl.cinit_state ∧ dlthis.cinit_count = dl.cinit_count ∧
      dlthis.cinit_addr = dl.cinit_addr ∧ dlthis.cinit_page = dl.cinit_page ∧
      (dlthis.dload_errcount = 0 ↔ dl.dload_errcount = 0) ∧
      written dlthis.writes = written dl.writes := by
  have hfailed : ((dlthis.dload_errcount != 0) = (dl.dload_errcount != 0)) ↔
      (dlthis.dload_errcount = 0 ↔ dl.dload_errcount = 0) := by
    rw [Bool.eq_iff_iff, bne_iff_ne, bne_iff_ne, not_iff_not]
  simp only [CinitState.view, CinitView.mk.injEq, hfailed]

theorem written_append (writes : List TargetWrite) (call : TargetWrite) :
    written (writes ++ [call]) = putBytes (written writes) call.page call.locn call.bits := by
  rw [written, foldl_append]
  rfl

theorem CinitState.loopexit_view (h : dlthis.view = dl.view) :
    (dlthis.loopexit pktp).view = (dl.loopexit pktp).view := by
  obtain ⟨hs, hc, ha, hp, he, hw⟩ := view_eq_iff.1 h
  rw [loopexit, loopexit]
  split
  · exact view_eq_iff.2 ⟨rfl, hc, ha, hp, by simp, hw⟩
  · exact h

theorem CinitState.count_view (h : dlthis.view = dl.view) (temp : Int) :
    (dlthis.count temp).view = (dl.count temp).view := by
  obtain ⟨hs, hc, ha, hp, he, hw⟩ := view_eq_iff.1 h
  rw [count, count]
  split
  · exact view_eq_iff.2 ⟨rfl, hc, ha, hp, he, hw⟩
  · exact view_eq_iff.2 ⟨rfl, rfl, ha, hp, he, hw⟩

theorem CinitState.address_view (h : dlthis.view = dl.view) (atmp : RVALUE) :
    (dlthis.address atmp).view = (dl.address atmp).view := by
  obtain ⟨hs, hc, ha, hp, he, hw⟩ := view_eq_iff.1 h
  exact view_eq_iff.2 ⟨rfl, hc, rfl, rfl, he, hw⟩

theorem CinitState.copy_view (h : dlthis.view = dl.view) (bits : List UInt8) :
    (dlthis.copy writemem bits).view = (dl.copy writemem bits).view := by
  obtain ⟨hs, hc, ha, hp, he, hw⟩ := view_eq_iff.1 h
  refine view_eq_iff.2 ⟨?_, ?_, ?_, hp, ?_, ?_⟩
  · simp only [copy, hc]
  · simp only [copy, hc]
  · simp only [copy, advance, hc, ha]
  · simp only [copy, ha, hp]
    split
    · exact he
    · simp
  · simp only [copy, written_append, hw, ha, hp]

theorem cload_cinit_view (h : dlthis.view = dl.view) (bits : List UInt8) :
    (cload_cinit writemem dlthis bits).view = (cload_cinit writemem dl bits).view := by
  have hloop : ∀ (rounds : Nat) (dlthis dl : CinitState) (pktp : List UInt8),
      dlthis.view = dl.view →
        (cinitLoop writemem rounds dlthis pktp).view =
          (cinitLoop writemem rounds dl pktp).view := by
    intro rounds
    induction rounds with
    | zero => intro _ _ _ h; exact h
    | succ rounds ih =>
      intro dlthis dl pktp h
      obtain ⟨hs, hc, -⟩ := view_eq_iff.1 h
      rw [cinitLoop, cinitLoop, hs]
      cases dl.cinit_state with
      | CI_count =>
        dsimp only
        split
        · exact CinitState.loopexit_view h
        · exact ih _ _ _ (CinitState.count_view h _)
      | CI_address =>
        dsimp only
        split
        · exact CinitState.loopexit_view h
        · exact ih _ _ _ (CinitState.address_view h _)
      | CI_copy =>
        dsimp only
        rw [hc, CinitState.advance, CinitState.advance, hc]
        split
        · exact CinitState.loopexit_view h
        · exact ih _ _ _ (CinitState.copy_view h _)
      | CI_done => exact h
  exact hloop _ _ _ _ h

/-! Words at the front of a longer packet. -/

theorem unpackWord_append {bits : List UInt8} (h : 4 ≤ bits.length) (more : List UInt8)
    (sgn : Nat) : unpackWord (bits ++ more) sgn = unpackWord bits sgn := by
  have hfield : Memory.field (fun i => (bits ++ more).getD i 0) (8 * 0 + 0) 32 =
      Memory.field (fun i => bits.getD i 0) (8 * 0 + 0) 32 := by
    refine BitVec.eq_of_getLsbD_eq fun i hi => ?_
    have hlt : (8 * 0 + 0 + i) / 8 < bits.length := by omega
    rw [Memory.getLsbD_field, Memory.getLsbD_field, Memory.bit, Memory.bit,
      getD_eq_getElem?_getD, getElem?_append_left hlt, getD_eq_getElem?_getD]
  have hword : ∀ pktp : List UInt8, unpackWord pktp sgn =
      extend (Memory.field (fun i => pktp.getD i 0) (8 * 0 + 0) 32) sgn := fun pktp =>
    congrArg (Option.getD · 0)
      (dload_unpack_eq (fun i => pktp.getD i 0) 0 (by decide) (by decide) (by decide) sgn)
  rw [hword, hword, hfield]

theorem recordCount_append {bits : List UInt8} (h : 4 ≤ bits.length) (more : List UInt8) :
    recordCount (bits ++ more) = recordCount bits := by
  rw [recordCount, unpackWord_append h, recordCount]

theorem putBytes_append (m : UInt16 × LDR_ADDR → Option UInt8) (page : UInt16) (locn : LDR_ADDR)
    (xs ys : List UInt8) : putBytes m page locn (xs ++ ys) =
      putBytes (putBytes m page locn xs) page (locn + .ofNat xs.length) ys := by
  induction xs generalizing m locn with
  | nil => simp [putBytes]
  | cons x xs ih =>
    have hnext : locn + 1 + .ofNat xs.length = locn + .ofNat (x :: xs).length := by
      rw [length_cons, UInt32.ofNat_add, UInt32.add_assoc, UInt32.add_comm 1]
      rfl
    rw [cons_append, putBytes, putBytes, ih, hnext]

/-- A range is written where its two parts are. -/
def JoinsWrites (writemem : TargetWrite → Bool) : Prop :=
  ∀ page locn xs ys, writemem ⟨page, locn, xs ++ ys⟩ =
    (writemem ⟨page, locn, xs⟩ && writemem ⟨page, locn + .ofNat xs.length, ys⟩)

theorem alignInit_add {k : Nat} (h : k % CINIT_ALIGN = 0) (n : Nat) :
    alignInit (k + n) = k + alignInit n := by
  unfold alignInit CINIT_ALIGN at *
  omega

/-- The pointer after a range whose first part is copied already. -/
theorem CinitState.advance_add {k : Nat} (hlt : k < dlthis.cinit_count)
    (h8 : k % CINIT_ALIGN = 0) (hc : dl.cinit_count = dlthis.cinit_count - k) (n : Nat) :
    dlthis.advance (k + n) = k + dl.advance n := by
  have hiff : dlthis.cinit_count ≤ k + n ↔ dl.cinit_count ≤ n := by omega
  simp only [advance, hiff, alignInit_add h8]
  split <;> rfl

theorem CinitState.advance_of_lt {n : Nat} (h : n < dlthis.cinit_count) :
    dlthis.advance n = n := by
  rw [advance, if_neg (not_le.2 h)]

/-- Data copied in two parts. -/
theorem CinitState.copy_copy (hjoin : JoinsWrites writemem) {xs ys : List UInt8}
    (hlt : xs.length < dlthis.cinit_count) (h8 : xs.length % CINIT_ALIGN = 0) :
    ((dlthis.copy writemem xs).copy writemem ys).view =
      (dlthis.copy writemem (xs ++ ys)).view := by
  have hadv : dlthis.advance (xs.length + ys.length) =
      xs.length + (dlthis.copy writemem xs).advance ys.length := advance_add hlt h8 rfl _
  have haddr : (dlthis.copy writemem xs).cinit_addr = dlthis.cinit_addr + .ofNat xs.length := by
    rw [copy, advance_of_lt hlt]
  refine view_eq_iff.2 ⟨?_, ?_, ?_, rfl, ?_, ?_⟩
  · have hiff : dlthis.cinit_count - xs.length ≤ ys.length ↔
        dlthis.cinit_count ≤ xs.length + ys.length := by omega
    simp only [copy, length_append, hiff]
  · simp only [copy, length_append]
    omega
  · have hsum : ((dlthis.copy writemem xs).copy writemem ys).cinit_addr =
        dlthis.cinit_addr + .ofNat xs.length +
          .ofNat ((dlthis.copy writemem xs).advance ys.length) := by
      rw [← haddr]
      rfl
    have hwhole : (dlthis.copy writemem (xs ++ ys)).cinit_addr =
        dlthis.cinit_addr + .ofNat (dlthis.advance (xs ++ ys).length) := rfl
    rw [hsum, hwhole, length_append, hadv, UInt32.ofNat_add, UInt32.add_assoc]
  · have hcall := hjoin dlthis.cinit_page dlthis.cinit_addr xs ys
    rw [← haddr] at hcall
    have hfst : (dlthis.copy writemem xs).dload_errcount =
        if writemem ⟨dlthis.cinit_page, dlthis.cinit_addr, xs⟩ then dlthis.dload_errcount
        else dlthis.dload_errcount + 1 := rfl
    have hsnd : ((dlthis.copy writemem xs).copy writemem ys).dload_errcount =
        if writemem ⟨dlthis.cinit_page, (dlthis.copy writemem xs).cinit_addr, ys⟩ then
          (dlthis.copy writemem xs).dload_errcount
        else (dlthis.copy writemem xs).dload_errcount + 1 := rfl
    have hwhole : (dlthis.copy writemem (xs ++ ys)).dload_errcount =
        if writemem ⟨dlthis.cinit_page, dlthis.cinit_addr, xs ++ ys⟩ then dlthis.dload_errcount
        else dlthis.dload_errcount + 1 := rfl
    rw [hsnd, hfst, hwhole, hcall]
    cases writemem ⟨dlthis.cinit_page, dlthis.cinit_addr, xs⟩ <;>
      cases writemem ⟨dlthis.cinit_page, (dlthis.copy writemem xs).cinit_addr, ys⟩ <;> simp
  · have hsnd : ((dlthis.copy writemem xs).copy writemem ys).writes = dlthis.writes ++
        [⟨dlthis.cinit_page, dlthis.cinit_addr, xs⟩] ++
          [⟨dlthis.cinit_page, (dlthis.copy writemem xs).cinit_addr, ys⟩] := rfl
    have hwhole : (dlthis.copy writemem (xs ++ ys)).writes =
        dlthis.writes ++ [⟨dlthis.cinit_page, dlthis.cinit_addr, xs ++ ys⟩] := rfl
    rw [hsnd, hwhole, written_append, written_append, written_append, haddr, putBytes_append]

/-- The data of a record that a cut splits at a multiple of the alignment. -/
theorem copy_split (hjoin : JoinsWrites writemem) {xs : List UInt8}
    (hs : dlthis.cinit_state = .CI_copy) (hne : xs ≠ []) (hlt : xs.length < dlthis.cinit_count)
    (h8 : xs.length % CINIT_ALIGN = 0) (bits : List UInt8) :
    (cload_cinit writemem (dlthis.copy writemem xs) bits).view =
      (cload_cinit writemem dlthis (xs ++ bits)).view := by
  have hcount : 0 < dlthis.cinit_count := by omega
  have hstate : (dlthis.copy writemem xs).cinit_state = .CI_copy := by
    simp only [CinitState.copy, if_neg (not_le.2 hlt)]
  have hrest : (dlthis.copy writemem xs).cinit_count = dlthis.cinit_count - xs.length := rfl
  have hnil : xs ++ bits ≠ [] := append_ne_nil_of_left_ne_nil hne bits
  have htake : (xs ++ bits).take dlthis.cinit_count =
      xs ++ bits.take (dlthis.cinit_count - xs.length) := by
    rw [take_append, take_of_length_le (le_of_lt hlt)]
  rw [cload_cinit_copy hs hnil hcount, htake]
  by_cases hb : bits = []
  · subst hb
    have hmin : min (xs ++ []).length dlthis.cinit_count = xs.length := by
      rw [append_nil]
      omega
    rw [hmin, CinitState.advance_of_lt hlt, append_nil, take_nil, append_nil, drop_length]
  · have hmin : min (xs ++ bits).length dlthis.cinit_count =
        xs.length + min bits.length (dlthis.copy writemem xs).cinit_count := by
      rw [length_append, hrest]
      omega
    rw [cload_cinit_copy hstate hb (by omega), hmin, CinitState.advance_add hlt h8 hrest,
      drop_length_add_append, hrest]
    exact cload_cinit_view (CinitState.copy_copy hjoin hlt h8) _

/-- The data of a whole record. -/
theorem cload_cinit_record {rest : List UInt8} (hs : dlthis.cinit_state = .CI_copy)
    (hc : 0 < dlthis.cinit_count) (hle : dlthis.cinit_count ≤ rest.length) :
    cload_cinit writemem dlthis rest =
      cload_cinit writemem (dlthis.copy writemem (rest.take dlthis.cinit_count))
        (rest.drop (alignInit dlthis.cinit_count)) := by
  have hnil : rest ≠ [] := ne_nil_of_length_pos (by omega)
  rw [cload_cinit_copy hs hnil hc, min_eq_right hle, CinitState.advance, if_pos (le_refl _)]

/-- The first data of a record, up to the packet's end. -/
theorem cload_cinit_part {rest : List UInt8} (hs : dlthis.cinit_state = .CI_copy)
    (hnil : rest ≠ []) (hlt : rest.length < dlthis.cinit_count) :
    cload_cinit writemem dlthis rest = dlthis.copy writemem rest := by
  rw [cload_cinit_copy hs hnil (by omega), min_eq_left (le_of_lt hlt),
    CinitState.advance_of_lt hlt, drop_length, cload_cinit_nil,
    take_of_length_le (le_of_lt hlt)]

/-- A record that has been copied ends with the machine before the next one. -/
theorem CinitState.copy_record {rest : List UInt8} (hle : dlthis.cinit_count ≤ rest.length) :
    (dlthis.copy writemem (rest.take dlthis.cinit_count)).cinit_state = .CI_count := by
  have hlen : (rest.take dlthis.cinit_count).length = dlthis.cinit_count := by
    rw [length_take, min_eq_left hle]
  simp only [copy, hlen, le_refl, if_true]

@[simp] theorem CinitState.cinit_count_address (dlthis : CinitState) (atmp : RVALUE) :
    (dlthis.address atmp).cinit_count = dlthis.cinit_count := rfl

@[simp] theorem CinitState.cinit_state_address (dlthis : CinitState) (atmp : RVALUE) :
    (dlthis.address atmp).cinit_state = .CI_copy := rfl

theorem CinitState.copy_record_addr {bits : List UInt8} (hc : dlthis.cinit_count = bits.length) :
    (dlthis.copy writemem bits).cinit_addr =
      dlthis.cinit_addr + .ofNat (alignInit bits.length) := by
  simp only [copy, advance, hc, le_refl, if_true]

/-- The state behind the two words at the front of a record. -/
def CinitState.header (dlthis : CinitState) (bits : List UInt8) : CinitState :=
  (dlthis.count (recordCount bits)).address (unpackWord (bits.drop CINIT_COUNT) ROP_UNS)

@[simp] theorem CinitState.cinit_state_header (dlthis : CinitState) (bits : List UInt8) :
    (dlthis.header bits).cinit_state = .CI_copy := CinitState.cinit_state_address _ _

theorem CinitState.cinit_count_header {bits : List UInt8} (h : 0 < recordCount bits) :
    (dlthis.header bits).cinit_count = (recordCount bits).toNat := by
  rw [header, cinit_count_address, count, if_neg (Int.not_le.2 h)]

theorem CinitState.header_append {bits : List UInt8} (h : 8 ≤ bits.length) (more : List UInt8) :
    dlthis.header (bits ++ more) = dlthis.header bits := by
  have hdrop : (bits ++ more).drop CINIT_COUNT = bits.drop CINIT_COUNT ++ more :=
    drop_append_of_le_length (le_trans (by decide) h)
  have haddress : 4 ≤ (bits.drop CINIT_COUNT).length := by
    rw [length_drop]
    unfold CINIT_COUNT
    omega
  rw [header, header, recordCount_append (le_trans (by decide) h), hdrop,
    unpackWord_append haddress]

theorem cload_cinit_header {bits : List UInt8} (hs : dlthis.cinit_state = .CI_count)
    (h8 : 8 ≤ bits.length) (hpos : 0 < recordCount bits) :
    cload_cinit writemem dlthis bits = cload_cinit writemem (dlthis.header bits) (bits.drop 8) := by
  have haddress : CINIT_ADDRESS ≤ (bits.drop CINIT_COUNT).length := by
    rw [length_drop]
    unfold CINIT_COUNT CINIT_ADDRESS
    omega
  have hstate : (dlthis.count (recordCount bits)).cinit_state = .CI_address := by
    rw [CinitState.count, if_neg (Int.not_le.2 hpos)]
  have hwords : CINIT_COUNT + CINIT_ADDRESS = 8 := rfl
  rw [cload_cinit_count hs (le_trans (by decide) h8), cload_cinit_address hstate haddress,
    drop_drop, CinitState.header, hwords]

/-- The bytes of a stream from a record on, before and behind a cut. -/
theorem record_append {bits more : List UInt8} (hs : dlthis.cinit_state = .CI_count)
    (h8 : 8 ≤ bits.length) (hpos : 0 < recordCount bits) :
    cload_cinit writemem dlthis (bits ++ more) =
      cload_cinit writemem (dlthis.header bits) (bits.drop 8 ++ more) := by
  have hlong : 8 ≤ (bits ++ more).length := by
    rw [length_append]
    omega
  rw [cload_cinit_header hs hlong (by rwa [recordCount_append (le_trans (by decide) h8)]),
    CinitState.header_append h8, drop_append_of_le_length h8]

/-- A cut behind a whole record is a cut in what follows it. -/
theorem later_split {bits : List UInt8} (hs : dlthis.cinit_state = .CI_count)
    (hpos : 0 < recordCount bits) (hle : 8 + alignInit (recordCount bits).toNat ≤ bits.length) :
    ∃ dl : CinitState, dl.cinit_state = .CI_count ∧
      cload_cinit writemem dlthis bits =
        cload_cinit writemem dl (bits.drop (8 + alignInit (recordCount bits).toNat)) ∧
      ∀ more, cload_cinit writemem dlthis (bits ++ more) =
        cload_cinit writemem dl (bits.drop (8 + alignInit (recordCount bits).toNat) ++ more) := by
  have h8 : 8 ≤ bits.length := by omega
  have hcount : (dlthis.header bits).cinit_count = (recordCount bits).toNat :=
    CinitState.cinit_count_header hpos
  have hlen : (bits.drop 8).length = bits.length - 8 := length_drop
  have hale : alignInit (recordCount bits).toNat ≤ (bits.drop 8).length := by omega
  have hcle : (recordCount bits).toNat ≤ (bits.drop 8).length := by
    unfold alignInit CINIT_ALIGN at hale
    omega
  have hcpos : 0 < (dlthis.header bits).cinit_count := by omega
  have hstate : (dlthis.header bits).cinit_state = .CI_copy := CinitState.cinit_state_header _ _
  refine ⟨(dlthis.header bits).copy writemem ((bits.drop 8).take (dlthis.header bits).cinit_count),
    CinitState.copy_record (by omega), ?_, fun more => ?_⟩
  · rw [cload_cinit_header hs h8 hpos, cload_cinit_record hstate hcpos (by omega), hcount,
      drop_drop]
  · have hlong : (dlthis.header bits).cinit_count ≤ (bits.drop 8 ++ more).length := by
      rw [length_append]
      omega
    rw [record_append hs h8 hpos, cload_cinit_record hstate hcpos hlong, hcount,
      take_append_of_le_length hcle, drop_append_of_le_length hale, drop_drop]

/-- Two packets and one: the bytes before the cut start with a record. -/
theorem cload_cinit_split (hjoin : JoinsWrites writemem) (bits more : List UInt8)
    (hs : dlthis.cinit_state = .CI_count) (h4 : bits.length % 4 = 0) (hcut : ¬ CutsRecord bits) :
    (cload_cinit writemem (cload_cinit writemem dlthis bits) more).view =
      (cload_cinit writemem dlthis (bits ++ more)).view := by
  induction hn : bits.length using Nat.strong_induction_on generalizing bits dlthis with
  | _ n ih =>
  subst hn
  by_cases hnil : bits = []
  · rw [hnil, cload_cinit_nil, nil_append]
  have hlen := length_pos_of_ne_nil hnil
  have hcle : CINIT_COUNT ≤ bits.length := by
    unfold CINIT_COUNT
    omega
  have hclong : CINIT_COUNT ≤ (bits ++ more).length := by
    rw [length_append]
    omega
  by_cases hpos : recordCount bits ≤ 0
  · have hdone : (dlthis.count (recordCount bits)).cinit_state = .CI_done := by
      rw [CinitState.count, if_pos hpos]
    rw [cload_cinit_count hs hcle, cload_cinit_count hs hclong, recordCount_append hcle,
      cload_cinit_done hdone, cload_cinit_done hdone, cload_cinit_done hdone]
  replace hpos := Int.not_le.1 hpos
  by_cases h8 : bits.length < 8
  · -- the cut separates the two words
    have hempty : bits.drop CINIT_COUNT = [] := by
      rw [drop_eq_nil_iff]
      unfold CINIT_COUNT
      omega
    rw [cload_cinit_count hs hcle, cload_cinit_count hs hclong, recordCount_append hcle,
      drop_append_of_le_length hcle, hempty, cload_cinit_nil, nil_append]
  replace h8 := not_lt.1 h8
  by_cases hin : bits.length < 8 + alignInit (recordCount bits).toNat
  · rw [cload_cinit_header hs h8 hpos, record_append hs h8 hpos]
    by_cases hempty : bits.drop 8 = []
    · rw [hempty, cload_cinit_nil, nil_append]
    have hdlen : (bits.drop 8).length = bits.length - 8 := length_drop
    have hdpos := length_pos_of_ne_nil hempty
    have halign : bits.length % CINIT_ALIGN = 0 := by
      by_contra h
      exact hcut (.within hpos (by unfold CINIT_COUNT CINIT_ADDRESS; omega) hin h)
    have hlt : (bits.drop 8).length < (dlthis.header bits).cinit_count := by
      rw [CinitState.cinit_count_header hpos]
      unfold alignInit CINIT_ALIGN at *
      omega
    have hdalign : (bits.drop 8).length % CINIT_ALIGN = 0 := by
      unfold CINIT_ALIGN at *
      omega
    rw [cload_cinit_part (CinitState.cinit_state_header _ _) hempty hlt]
    exact copy_split hjoin (CinitState.cinit_state_header _ _) hempty hlt hdalign more
  · replace hin := not_lt.1 hin
    obtain ⟨dl, hdl, hbits, hwhole⟩ := @later_split writemem dlthis bits hs hpos hin
    have halign : alignInit (recordCount bits).toNat % 4 = 0 := by
      unfold alignInit CINIT_ALIGN
      omega
    rw [hbits, hwhole]
    refine ih _ ?_ _ hdl ?_ (fun hlater => hcut (.later hpos hin hlater)) rfl
    · rw [length_drop]
      omega
    · rw [length_drop]
      omega

/-- A cut in the padding: the next packet's first word is taken for a count. -/
theorem padding_split {rest : List UInt8} (hs : dlthis.cinit_state = .CI_copy)
    (hc : 0 < dlthis.cinit_count) (hle : dlthis.cinit_count ≤ rest.length)
    (hlen : rest.length + 4 = alignInit dlthis.cinit_count) :
    (cload_cinit writemem (cload_cinit writemem dlthis rest) [1, 0, 0, 0]).cinit_state ≠
      (cload_cinit writemem dlthis (rest ++ [1, 0, 0, 0])).cinit_state := by
  have hlong : dlthis.cinit_count ≤ (rest ++ [1, 0, 0, 0]).length := by
    rw [length_append]
    omega
  have hend : rest.drop (alignInit dlthis.cinit_count) = [] := by
    rw [drop_eq_nil_iff]
    omega
  have hend' : (rest ++ [1, 0, 0, 0]).drop (alignInit dlthis.cinit_count) = [] := by
    rw [drop_eq_nil_iff, length_append]
    exact le_of_eq hlen
  have hnext : (dlthis.copy writemem (rest.take dlthis.cinit_count)).cinit_state = .CI_count :=
    CinitState.copy_record hle
  have hone : recordCount [1, 0, 0, 0] = 1 := by decide
  have hword : drop CINIT_COUNT [1, 0, 0, 0] = ([] : List UInt8) := rfl
  rw [cload_cinit_record hs hc hle, cload_cinit_record hs hc hlong, hend, hend', cload_cinit_nil,
    cload_cinit_nil, CinitState.copy_record hlong, cload_cinit_count hnext (by decide), hone,
    CinitState.count, if_neg (by decide), hword, cload_cinit_nil]
  exact nofun

/-- A cut in the data off the alignment: the addresses behind the record differ. -/
theorem data_split {rest : List UInt8} (hs : dlthis.cinit_state = .CI_copy)
    (hnil : rest ≠ []) (hlt : rest.length < dlthis.cinit_count)
    (h8 : rest.length % 8 = 4) :
    (cload_cinit writemem (cload_cinit writemem dlthis rest)
        (List.replicate (dlthis.cinit_count - rest.length) 0)).cinit_addr ≠
      (cload_cinit writemem dlthis
        (rest ++ List.replicate (dlthis.cinit_count - rest.length) 0)).cinit_addr := by
  generalize hmore : replicate (dlthis.cinit_count - rest.length) (0 : UInt8) = more
  have hmlen : more.length = dlthis.cinit_count - rest.length := by
    rw [← hmore, length_replicate]
  have hc : 0 < dlthis.cinit_count := by omega
  have hstate : (dlthis.copy writemem rest).cinit_state = .CI_copy := by
    simp only [CinitState.copy, if_neg (not_le.2 hlt)]
  have hrest : (dlthis.copy writemem rest).cinit_count = more.length := hmlen.symm
  have hwhole : (rest ++ more).length = dlthis.cinit_count := by
    rw [length_append]
    omega
  have haddr : (dlthis.copy writemem rest).cinit_addr = dlthis.cinit_addr + .ofNat rest.length := by
    rw [CinitState.copy, CinitState.advance_of_lt hlt]
  have hend : more.drop (alignInit more.length) = [] := by
    rw [drop_eq_nil_iff]
    unfold alignInit CINIT_ALIGN
    omega
  have hend' : (rest ++ more).drop (alignInit (rest ++ more).length) = [] := by
    rw [drop_eq_nil_iff]
    unfold alignInit CINIT_ALIGN
    omega
  have hparts : (cload_cinit writemem (dlthis.copy writemem rest) more).cinit_addr =
      dlthis.cinit_addr + .ofNat rest.length + .ofNat (alignInit more.length) := by
    rw [cload_cinit_record hstate (by omega) (le_of_eq hrest), hrest, hend, cload_cinit_nil,
      take_length, CinitState.copy_record_addr hrest, haddr]
  have htogether : (cload_cinit writemem dlthis (rest ++ more)).cinit_addr =
      dlthis.cinit_addr + .ofNat (alignInit (rest ++ more).length) := by
    rw [cload_cinit_record hs hc (le_of_eq hwhole.symm), ← hwhole, hend', cload_cinit_nil,
      take_length, CinitState.copy_record_addr hwhole.symm]
  rw [cload_cinit_part hs hnil hlt, hparts, htogether, hwhole]
  intro h
  have hnat := congrArg UInt32.toNat h
  simp only [UInt32.toNat_add, UInt32.toNat_ofNat'] at hnat
  unfold alignInit CINIT_ALIGN at hnat
  omega

/-- A bad cut goes wrong for some stream that starts this way. -/
theorem CutsRecord.splits {bits : List UInt8} (hcut : CutsRecord bits) (h4 : bits.length % 4 = 0)
    (hs : dlthis.cinit_state = .CI_count) :
    ∃ more, (cload_cinit writemem (cload_cinit writemem dlthis bits) more).view ≠
      (cload_cinit writemem dlthis (bits ++ more)).view := by
  induction hcut generalizing dlthis with
  | @within bits hpos h8 hin halign =>
    have hcount : (dlthis.header bits).cinit_count = (recordCount bits).toNat :=
      CinitState.cinit_count_header hpos
    have hlen : (bits.drop 8).length = bits.length - 8 := length_drop
    unfold CINIT_COUNT CINIT_ADDRESS CINIT_ALIGN at *
    by_cases hdata : (recordCount bits).toNat ≤ (bits.drop 8).length
    · refine ⟨[1, 0, 0, 0], fun h => ?_⟩
      rw [cload_cinit_header hs (by omega) hpos, record_append hs (by omega) hpos] at h
      refine padding_split (CinitState.cinit_state_header _ _) (by omega) (by omega) ?_
        (view_eq_iff.1 h).1
      rw [hcount]
      unfold alignInit CINIT_ALIGN at *
      omega
    · have hnil : bits.drop 8 ≠ [] := ne_nil_of_length_pos (by omega)
      refine ⟨replicate ((dlthis.header bits).cinit_count - (bits.drop 8).length) 0, fun h => ?_⟩
      rw [cload_cinit_header hs (by omega) hpos, record_append hs (by omega) hpos] at h
      exact data_split (CinitState.cinit_state_header _ _) hnil (by omega) (by omega)
        (view_eq_iff.1 h).2.2.1
  | @later bits hpos hle _ ih =>
    have halign : alignInit (recordCount bits).toNat % 4 = 0 := by
      unfold alignInit CINIT_ALIGN
      omega
    obtain ⟨dl, hdl, hbits, hwhole⟩ := @later_split writemem dlthis bits hs hpos hle
    have hdrop : (bits.drop (8 + alignInit (recordCount bits).toNat)).length % 4 = 0 := by
      rw [length_drop]
      omega
    obtain ⟨more, hmore⟩ := @ih dl hdrop hdl
    exact ⟨more, by rwa [hbits, hwhole]⟩

end

/-- The packets one after the other, where no cut splits a record badly. -/
theorem packets_view {writemem : TargetWrite → Bool} (hjoin : JoinsWrites writemem)
    {packets : List (List UInt8)}
    (h4 : ∀ pre p post, packets = pre ++ p :: post → pre.flatten.length % 4 = 0)
    (hcuts : ∀ pre p post, packets = pre ++ p :: post → p ≠ [] → ¬ CutsRecord pre.flatten) :
    (packets.foldl (cload_cinit writemem) .start).view =
      (cload_cinit writemem .start packets.flatten).view := by
  induction packets using reverseRecOn with
  | nil => rw [foldl_nil, flatten_nil, cload_cinit_nil]
  | append_singleton pre p ih =>
    have hpre := ih (fun l q post h => h4 l q (post ++ [p]) (by rw [h]; simp))
      fun l q post h => hcuts l q (post ++ [p]) (by rw [h]; simp)
    rw [foldl_append, foldl_cons, foldl_nil, cload_cinit_view hpre,
      flatten_append, flatten_singleton]
    by_cases hp : p = []
    · rw [hp, cload_cinit_nil, append_nil]
    · exact cload_cinit_split hjoin _ _ rfl (h4 pre p [] rfl) (hcuts pre p [] rfl hp)

/-- A stream in packets, cut at multiples of the alignment of the file, comes to what the whole
stream in one packet comes to, if no cut splits a record badly; and a cut can be made after some
bytes whatever follows them if and only if it splits no record badly. -/
theorem cload_cinit_packets {writemem : TargetWrite → Bool} (hjoin : JoinsWrites writemem) :
    (∀ packets : List (List UInt8),
      (∀ pre p post, packets = pre ++ p :: post → pre.flatten.length % 4 = 0) →
      (∀ pre p post, packets = pre ++ p :: post → p ≠ [] → ¬ CutsRecord pre.flatten) →
      (packets.foldl (cload_cinit writemem) .start).view =
        (cload_cinit writemem .start packets.flatten).view) ∧
    ∀ bits : List UInt8, bits.length % 4 = 0 →
      ((∀ more, ([bits, more].foldl (cload_cinit writemem) .start).view =
          (cload_cinit writemem .start (bits ++ more)).view) ↔ ¬ CutsRecord bits) := by
  refine ⟨fun packets h4 hcuts => packets_view hjoin h4 hcuts, fun bits h4 => ?_⟩
  constructor
  · intro hright hcut
    obtain ⟨more, hmore⟩ := @CutsRecord.splits writemem .start bits hcut h4 rfl
    exact hmore (hright more)
  · intro hcut more
    exact cload_cinit_split hjoin bits more rfl h4 hcut

def alignedCut : List (List UInt8) :=
  [[12, 0, 0, 0, 0, 16, 0, 0, 1, 2, 3, 4, 5, 6, 7, 8], [9, 10, 11, 12, 0, 0, 0, 0, 0, 0, 0, 0]]

theorem cload_cinit_packets_sample :
    (alignedCut.foldl (cload_cinit fun _ => true) .start).view =
      (cload_cinit (fun _ => true) .start alignedCut.flatten).view ∧
    ∀ more, ([[12, 0, 0, 0], more].foldl (cload_cinit fun _ => true) .start).view =
      (cload_cinit (fun _ => true) .start ([12, 0, 0, 0] ++ more)).view := by
  have hcuts : ∀ (pre : List (List UInt8)) p post, alignedCut = pre ++ p :: post →
      pre.flatten = [] ∨ pre.flatten = [12, 0, 0, 0, 0, 16, 0, 0, 1, 2, 3, 4, 5, 6, 7, 8] := by
    intro pre p post h
    match pre with
    | [] => exact .inl rfl
    | [q] =>
      rw [alignedCut, cons_append, cons.injEq] at h
      exact .inr (by rw [← h.1]; rfl)
    | q :: q' :: pre =>
      have hlen := congrArg length h
      simp only [alignedCut, length_cons, length_append, length_nil] at hlen
      omega
  have hnil : ¬ CutsRecord [] := by
    intro hcut
    cases hcut with
    | within _ hlen => exact absurd hlen (by decide)
    | later _ hlen => exact absurd hlen (by decide)
  constructor
  · apply (cload_cinit_packets fun _ _ _ _ => rfl).1 alignedCut
    · intro pre p post h
      rcases hcuts pre p post h with hpre | hpre <;> rw [hpre] <;> rfl
    · intro pre p post h _ hcut
      rcases hcuts pre p post h with hpre | hpre
      · exact hnil (hpre ▸ hcut)
      · rw [hpre] at hcut
        cases hcut with
        | within _ _ _ h8 => exact h8 rfl
        | later _ hlen => exact absurd hlen (by decide)
  · apply ((cload_cinit_packets fun _ _ _ _ => rfl).2 [12, 0, 0, 0] rfl).2
    intro hcut
    cases hcut with
    | within _ hlen => exact absurd hlen (by decide)
    | later _ hlen => exact absurd hlen (by decide)

/-- A record whose four bytes of data end a packet: the padding that starts the next packet is
read as the count zero, and the record behind it never reaches the target. -/
theorem padding_read_as_count :
    let packets : List (List UInt8) := [[4, 0, 0, 0, 0, 16, 0, 0, 1, 2, 3, 4],
      [0, 0, 0, 0, 4, 0, 0, 0, 0, 32, 0, 0, 5, 6, 7, 8, 0, 0, 0, 0]]
    (∀ p ∈ packets, p.length % 4 = 0) ∧
      written (packets.foldl (cload_cinit fun _ => true) .start).writes (0, 0x2000) = none ∧
      written (cload_cinit (fun _ => true) .start packets.flatten).writes (0, 0x2000) = some 5 := by
  decide +kernel

end OmapHal.Dynload
