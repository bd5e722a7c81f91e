import OmapHal.Dynload.Operators

/-!
# Relocations and their packet

Which bytes a relocation changes, and which records it reports.
-/

namespace OmapHal.Dynload

open OmapHal.Core Option

section

variable {src : RelocSource} {dlthis : RelocState} {data dp : Nat} {rp : reloc_record_t}
  {reloc_action reloc_info : Nat} {val : RVALUE} {top : Int} {field : RelocField}

/-- What the write back does to the image. -/
theorem writeValue_spec {w offset scale : Nat} (hw : reloc_info &&& ROP_W ≠ 0) (h0 : 0 < w)
    (h32 : w ≤ 32) (ho : offset ≤ 8) :
    ∃ after, writeValue src dlthis rp dp reloc_info val top ⟨w, offset, scale⟩ = some after ∧
      (∀ k, k < 8 * dp + offset ∨ 8 * dp + offset + w ≤ k →
        after.image.bytes.bit k = dlthis.image.bytes.bit k) ∧
      after.image.stored = dlthis.image.stored ++ List.range' dp ((offset + w + 7) / 8) := by
  obtain ⟨image, hrepack, hins, hstored⟩ := dload_repack_eq (val.sshiftRight scale) dlthis.image dp
    h0 h32 ho (RFV_SIGN reloc_info)
  have hframe : ∀ k, k < 8 * dp + offset ∨ 8 * dp + offset + w ≤ k →
      image.bytes.bit k = dlthis.image.bytes.bit k := by
    intro k hk
    have hout : ¬ (8 * dp + offset ≤ k ∧ k < 8 * dp + offset + w ∧ k < 8 * dp + offset + w) := by
      omega
    rw [hins k, if_neg hout]
  rw [writeValue, if_pos hw]
  simp only [hrepack, bind_eq_bind, bind_some, pure_def]
  refine ⟨_, rfl, ?_, ?_⟩
  · intro k hk
    rw [← hframe k hk]
    split <;> rfl
  · rw [← hstored]
    split <;> rfl

/-- A relocation that writes. -/
theorem relocValue_write (hfits : EntryFits reloc_action reloc_info)
    (hw : reloc_info &&& ROP_W ≠ 0) (hacc : Accessible rp reloc_action) :
    ∃ after, relocValue src dlthis data rp reloc_action reloc_info val top = some after ∧
      (∀ k, k < 8 * addressOf data rp + fieldOffset rp reloc_action ∨
          8 * addressOf data rp + fieldOffset rp reloc_action + fieldWidth rp reloc_action ≤ k →
        after.image.bytes.bit k = dlthis.image.bytes.bit k) ∧
      dlthis.image.stored.length < after.image.stored.length := by
  obtain ⟨v, hread⟩ := @readValue_accessible dlthis (addressOf data rp) rp reloc_action reloc_info
    val hacc
  have hfield := fieldOf_eq rp reloc_action reloc_info
  simp only [relocValue, hread, bind_eq_bind, bind_some]
  by_cases hs : Scaled (actionOf reloc_action)
  · obtain ⟨hwidth, hposn, -, -⟩ := hfits.scaled_field hs
    have hw19 : fieldWidth rp reloc_action = 19 := by simp [fieldWidth, hwidth]
    have ho4 : fieldOffset rp reloc_action = 4 := by simp [fieldOffset, hwidth, hposn]
    obtain ⟨himage, hfieldsz, hoffset⟩ := @relocAction_scaled src dlthis rp _ v
      (src.amountOf rp reloc_info) (src.symbolOf rp reloc_info) top
      (fieldOf rp reloc_action reloc_info) hs
    have hsize : (fieldOf rp reloc_action reloc_info).fieldsz = 19 := by
      rw [hfield, hw19]
      rfl
    have hplace : (fieldOf rp reloc_action reloc_info).offset = 4 := by
      rw [hfield, ho4]
      rfl
    rw [actionOf] at himage hfieldsz hoffset
    rw [hsize] at hfieldsz
    rw [hplace] at hoffset
    generalize relocAction src dlthis rp _ v _ _ _ _ = result at himage hfieldsz hoffset
    obtain ⟨moved, v', fieldsz, offset, scale⟩ := result
    subst hfieldsz hoffset
    obtain ⟨after, hafter, hframe, hstored⟩ := @writeValue_spec src moved (addressOf data rp) rp
      reloc_info v' top 15 8 scale hw (by decide) (by decide) (by decide)
    refine ⟨after, hafter, ?_, ?_⟩
    · intro k hk
      rw [hframe k (by omega), himage]
    · rw [hstored, himage, List.length_append, List.length_range']
      omega
  · obtain ⟨z, v', haction⟩ := @relocAction_plain src dlthis rp _ v (src.amountOf rp reloc_info)
      (src.symbolOf rp reloc_info) top (fieldOf rp reloc_action reloc_info) hs
    rw [actionOf] at haction
    rw [haction, hfield]
    obtain ⟨after, hafter, hframe, hstored⟩ := @writeValue_spec src
      { dlthis with zero_divisions := z } (addressOf data rp) rp reloc_info v' top _ _
      (RFV_SCALE reloc_info) hw hacc.1 hacc.2.1 hacc.2.2
    refine ⟨after, hafter, hframe, ?_⟩
    have hcount : 0 < (fieldOffset rp reloc_action + fieldWidth rp reloc_action + 7) / 8 := by
      have hpos := hacc.1
      omega
    rw [hstored, List.length_append, List.length_range']
    exact Nat.lt_add_of_pos_right hcount

/-- A relocation that does not write to the image. -/
theorem relocValue_keep (hfits : EntryFits reloc_action reloc_info)
    (hw : reloc_info &&& ROP_W = 0)
    (hacc : reloc_info &&& ROP_RW ≠ 0 → Accessible rp reloc_action) (htop : 0 ≤ top) :
    ∃ after, relocValue src dlthis data rp reloc_action reloc_info val top = some after ∧
      after.image = dlthis.image ∧ after.errors = dlthis.errors := by
  obtain ⟨v, hread⟩ : ∃ v, readValue dlthis (addressOf data rp) reloc_info val
      (fieldOf rp reloc_action reloc_info) = some v := by
    by_cases hr : reloc_info &&& ROP_R = 0
    · refine ⟨val, ?_⟩
      rw [readValue, if_neg (not_not.2 hr)]
    · exact readValue_accessible (hacc (hfits.read_access hr))
  have hs : ¬ Scaled (actionOf reloc_action) := fun hs => (hfits.scaled_field hs).2.2.2 hw
  obtain ⟨z, v', haction⟩ := @relocAction_plain src dlthis rp _ v (src.amountOf rp reloc_info)
    (src.symbolOf rp reloc_info) top (fieldOf rp reloc_action reloc_info) hs
  rw [actionOf] at haction
  simp only [relocValue, hread, bind_eq_bind, bind_some, haction]
  rw [writeValue, if_neg (not_not.2 hw)]
  by_cases h0 : top = 0
  · rw [if_pos h0]
    exact ⟨_, rfl, rfl, rfl⟩
  · have hpos : 0 < top := by omega
    rw [if_neg h0, if_pos hpos]
    exact ⟨_, rfl, rfl, rfl⟩

/-- A field out of reach of the access functions. -/
theorem relocValue_eq_none (hfits : EntryFits reloc_action reloc_info)
    (hrw : reloc_info &&& ROP_RW ≠ 0) (hacc : ¬ Accessible rp reloc_action) :
    relocValue src dlthis data rp reloc_action reloc_info val top = none := by
  have hfield := fieldOf_eq rp reloc_action reloc_info
  by_cases hr : reloc_info &&& ROP_R = 0
  · have hw : reloc_info &&& ROP_W ≠ 0 := (hfits.access hrw).resolve_left (not_not.2 hr)
    have hs : ¬ Scaled (actionOf reloc_action) := by
      intro hs
      obtain ⟨hwidth, hposn, -⟩ := hfits.scaled_field hs
      apply hacc
      rw [Accessible, fieldWidth, fieldOffset, hwidth, hposn]
      simp
    have hread : readValue dlthis (addressOf data rp) reloc_info val
        (fieldOf rp reloc_action reloc_info) = some val := by
      rw [readValue, if_neg (not_not.2 hr)]
    obtain ⟨z, v', haction⟩ := @relocAction_plain src dlthis rp _ val (src.amountOf rp reloc_info)
      (src.symbolOf rp reloc_info) top (fieldOf rp reloc_action reloc_info) hs
    rw [actionOf] at haction
    simp only [relocValue, hread, bind_eq_bind, bind_some, haction]
    rw [hfield, writeValue, if_pos hw]
    simp only [dload_repack_eq_none _ _ _ _ hacc, bind_eq_bind, bind_none]
  · have hread : readValue dlthis (addressOf data rp) reloc_info val
        (fieldOf rp reloc_action reloc_info) = none := by
      rw [hfield, readValue, if_pos hr, dload_unpack_eq_none _ _ _ hacc]
      rfl
    simp only [relocValue, hread, bind_eq_bind, bind_none]

/-- A pop of an operator that stores its result needs room below. -/
theorem relocValue_underflow (hfits : EntryFits reloc_action reloc_info)
    (hw : reloc_info &&& ROP_W = 0) (htop : top < 0) :
    relocValue src dlthis data rp reloc_action reloc_info val top = none := by
  have hs : ¬ Scaled (actionOf reloc_action) := fun hs => (hfits.scaled_field hs).2.2.2 hw
  have h0 : top ≠ 0 := by omega
  have hneg : ¬ 0 < top := by omega
  simp only [relocValue, bind_eq_bind]
  cases readValue dlthis (addressOf data rp) reloc_info val
      (fieldOf rp reloc_action reloc_info) with
  | none => rfl
  | some v =>
    obtain ⟨z, v', haction⟩ := @relocAction_plain src dlthis rp _ v (src.amountOf rp reloc_info)
      (src.symbolOf rp reloc_info) top (fieldOf rp reloc_action reloc_info) hs
    rw [actionOf] at haction
    simp only [bind_some, haction]
    rw [writeValue, if_neg (not_not.2 hw), if_neg h0, if_neg hneg]

theorem length_error (dlthis : RelocState) (e : RelocError) :
    (dlthis.error e).errors.length = dlthis.errors.length + 1 := by
  rw [RelocState.error, List.length_append, List.length_singleton]

/-- What a relocation that goes through leaves is no report. -/
theorem relocValue_ne_error {dl after : RelocState} (hfits : EntryFits reloc_action reloc_info)
    (hacc : reloc_info &&& ROP_RW ≠ 0 → Accessible rp reloc_action)
    (hpop : reloc_info &&& ROP_W = 0 → 0 ≤ top) (himage : dl.image = dlthis.image)
    (herrors : dl.errors = dlthis.errors)
    (h : relocValue src dl data rp reloc_action reloc_info val top = some after) (e : RelocError) :
    after ≠ dlthis.error e := by
  intro he
  by_cases hw : reloc_info &&& ROP_W = 0
  · obtain ⟨after', hafter', -, hsame⟩ := @relocValue_keep src dl data rp reloc_action
      reloc_info val top hfits hw hacc (hpop hw)
    have heq := some.inj (h.symm.trans hafter')
    have hlen := length_error dlthis e
    rw [← he, heq, hsame, herrors] at hlen
    omega
  · obtain ⟨after', hafter', -, hstored⟩ := @relocValue_write src dl data rp reloc_action
      reloc_info val top hfits hw (hacc (hfits.write_access hw))
    have heq := some.inj (h.symm.trans hafter')
    rw [← heq, he, error_image, himage] at hstored
    omega

end

/-- A type that is neither in the table nor one of those that are ignored. -/
def UnknownType (r_type : UInt16) : Prop :=
  (r_type ∉ rop_map1 ∨ r_type = 65535) ∧
    ¬ (r_type = R_C60ALIGN ∨ r_type = R_C60NOCMP ∨ r_type = R_C60FPHEAD)

/-- The symbol index names a symbol, or the current section. -/
def ValidSymbol (src : RelocSource) (rp : reloc_record_t) : Prop :=
  rp.r_uval.toNat < src.df_no_syms.toNat ∨ rp.r_symndx = -1

/-- The field lies in the packet of `size` bytes at `data`. -/
def InPacket (data size : Nat) (rp : reloc_record_t) (reloc_action : Nat) : Prop :=
  data ≤ addressOf data rp ∧
    8 * addressOf data rp + fieldOffset rp reloc_action + fieldWidth rp reloc_action ≤
      8 * (data + size)

/-- A record to be reported. -/
inductive BadRecord (src : RelocSource) (data size : Nat) (rp : reloc_record_t) : Prop
  | type : UnknownType rp.r_type → BadRecord src data size rp
  | symbol {reloc_action reloc_info : Nat} :
      operatorOf rp.r_type = some (reloc_action, reloc_info) → RFV_SYM reloc_info ≠ 0 →
      ¬ ValidSymbol src rp → BadRecord src data size rp
  | field {reloc_action reloc_info : Nat} :
      operatorOf rp.r_type = some (reloc_action, reloc_info) → reloc_info &&& ROP_RW ≠ 0 →
      ¬ InPacket data size rp reloc_action → BadRecord src data size rp

/-- A relocation that has a result, changes no byte but those of the packet that the field covers,
and reports a bad record without doing anything else. -/
def StaysInPacket (src : RelocSource) (dlthis : RelocState) (data size : Nat)
    (rp : reloc_record_t) : Prop :=
  ∃ after, dload_relocate src dlthis data rp = some after ∧
    (∀ a, after.image.bytes a ≠ dlthis.image.bytes a → data ≤ a ∧ a < data + size ∧
      ∃ reloc_action reloc_info, operatorOf rp.r_type = some (reloc_action, reloc_info) ∧
        8 * addressOf data rp + fieldOffset rp reloc_action < 8 * (a + 1) ∧
        8 * a < 8 * addressOf data rp + fieldOffset rp reloc_action +
          fieldWidth rp reloc_action) ∧
    (BadRecord src data size rp → ∃ e, after = dlthis.error e)

/-- The records on which the relocation behaves. -/
def Contained (src : RelocSource) (dlthis : RelocState) (data size : Nat) (rp : reloc_record_t) :
    Prop :=
  match operatorOf rp.r_type with
  | none => rp.r_type ≠ 65535
  | some (reloc_action, reloc_info) =>
    RFV_STK reloc_info ≠ 0 ∧ STATIC_EXPR_STK_SIZE ≤ newTop dlthis reloc_info ∨
      (RFV_SYM reloc_info ≠ 0 → ValidSymbol src rp) ∧
      (reloc_info &&& ROP_RW ≠ 0 →
        InPacket data size rp reloc_action ∧ Accessible rp reloc_action) ∧
      (RFV_STK reloc_info ≠ 0 → reloc_info &&& ROP_W = 0 → 0 ≤ newTop dlthis reloc_info)

theorem unknownType_iff {r_type : UInt16} : UnknownType r_type ↔ operatorOf r_type = none ∧
    ¬ (r_type = R_C60ALIGN ∨ r_type = R_C60NOCMP ∨ r_type = R_C60FPHEAD) := by
  rw [UnknownType, ← not_isSome_iff_eq_none, operatorOf_isSome]
  refine and_congr_left fun _ => ?_
  rw [not_and_or, not_not]

/-- Past the check of the stack. -/
theorem relocate_room (src : RelocSource) (dlthis : RelocState) (data : Nat) (rp : reloc_record_t)
    {reloc_action reloc_info : Nat}
    (hroom : ¬ (RFV_STK reloc_info ≠ 0 ∧ STATIC_EXPR_STK_SIZE ≤ newTop dlthis reloc_info)) :
    ∃ val top dl, relocate src dlthis data rp reloc_action reloc_info =
        relocValue src dl data rp reloc_action reloc_info val top ∧
      dl.image = dlthis.image ∧ dl.errors = dlthis.errors ∧
      (0 ≤ top ↔ (RFV_STK reloc_info ≠ 0 → 0 ≤ newTop dlthis reloc_info)) := by
  by_cases hstk : RFV_STK reloc_info = 0
  · exact ⟨0, 0, dlthis, by rw [relocate, if_pos hstk], rfl, rfl, by simp [hstk]⟩
  · refine ⟨dlthis.relstk dlthis.relstkidx, newTop dlthis reloc_info,
      { dlthis with relstkidx := newTop dlthis reloc_info }, ?_, rfl, rfl, by simp [hstk]⟩
    rw [relocate, if_neg hstk, if_neg fun h => hroom ⟨hstk, h⟩]

theorem staysInPacket_unknown {src : RelocSource} {dlthis : RelocState} {data size : Nat}
    {rp : reloc_record_t} (hop : operatorOf rp.r_type = none) :
    StaysInPacket src dlthis data size rp ↔ rp.r_type ≠ 65535 := by
  have hsentinel := ropIndex_of_unknown hop
  constructor
  · rintro ⟨after, hafter, -⟩ htype
    rw [dload_relocate_unknown hop, if_pos (hsentinel.2 htype)] at hafter
    cases hafter
  · intro htype
    have hresult := @dload_relocate_unknown data src dlthis rp hop
    rw [if_neg (fun h => htype (hsentinel.1 h))] at hresult
    by_cases hignored : rp.r_type = R_C60ALIGN ∨ rp.r_type = R_C60NOCMP ∨
        rp.r_type = R_C60FPHEAD
    · rw [if_pos hignored] at hresult
      refine ⟨dlthis, hresult, fun a ha => absurd rfl ha, fun hbad => ?_⟩
      cases hbad with
      | type hunknown => exact absurd hignored hunknown.2
      | symbol hknown => rw [hop] at hknown; cases hknown
      | field hknown => rw [hop] at hknown; cases hknown
    · rw [if_neg hignored] at hresult
      exact ⟨_, hresult, fun a ha => absurd rfl ha, fun _ => ⟨_, rfl⟩⟩

theorem not_badRecord {src : RelocSource} {data size : Nat} {rp : reloc_record_t}
    {reloc_action reloc_info : Nat} (hop : operatorOf rp.r_type = some (reloc_action, reloc_info))
    (hsymbol : RFV_SYM reloc_info ≠ 0 → ValidSymbol src rp)
    (hfield : reloc_info &&& ROP_RW ≠ 0 → InPacket data size rp reloc_action) :
    ¬ BadRecord src data size rp := by
  intro hbad
  cases hbad with
  | type hunknown =>
    rw [unknownType_iff, hop] at hunknown
    cases hunknown.1
  | symbol hentry hs hbad =>
    rw [hop] at hentry
    cases hentry
    exact hbad (hsymbol hs)
  | field hentry hrw hbad =>
    rw [hop] at hentry
    cases hentry
    exact hbad (hfield hrw)

/-- The guarantee holds of exactly these records. -/
theorem staysInPacket_iff (src : RelocSource) (dlthis : RelocState) (data size : Nat)
    (rp : reloc_record_t) :
    StaysInPacket src dlthis data size rp ↔ Contained src dlthis data size rp := by
  cases hop : operatorOf rp.r_type with
  | none =>
    simpa only [Contained, hop] using staysInPacket_unknown hop
  | some entry =>
    obtain ⟨reloc_action, reloc_info⟩ := entry
    have hfits := operatorOf_fits hop
    have hknown := @dload_relocate_known reloc_action reloc_info data src dlthis rp hop
    simp only [Contained, hop]
    by_cases hfull : RFV_STK reloc_info ≠ 0 ∧ STATIC_EXPR_STK_SIZE ≤ newTop dlthis reloc_info
    · have hresult : dload_relocate src dlthis data rp =
          some (dlthis.error (.stackOverflow (src.offsetOf rp))) := by
        rw [hknown, relocate, if_neg hfull.1, if_pos hfull.2]
      exact iff_of_true ⟨_, hresult, fun a ha => absurd rfl ha, fun _ => ⟨_, rfl⟩⟩ (.inl hfull)
    rw [or_iff_right hfull]
    obtain ⟨val, top, dl, hrelocate, himage, herrors, htop⟩ :=
      @relocate_room src dlthis data rp reloc_action reloc_info hfull
    rw [hrelocate] at hknown
    constructor
    · rintro ⟨after, hafter, -, hbad⟩
      rw [hknown] at hafter
      have hacc : reloc_info &&& ROP_RW ≠ 0 → Accessible rp reloc_action := by
        intro hrw
        by_contra hacc
        rw [relocValue_eq_none hfits hrw hacc] at hafter
        cases hafter
      have hpop : reloc_info &&& ROP_W = 0 → 0 ≤ top := by
        intro hw
        by_contra hneg
        rw [relocValue_underflow hfits hw (Int.not_le.1 hneg)] at hafter
        cases hafter
      have hgood : ¬ BadRecord src data size rp := fun h => by
        obtain ⟨e, he⟩ := hbad h
        exact relocValue_ne_error hfits hacc hpop himage herrors hafter e he
      refine ⟨fun hs => ?_, fun hrw => ⟨?_, hacc hrw⟩, fun hstk hw => htop.1 (hpop hw) hstk⟩
      · by_contra hsymbol
        exact hgood (.symbol hop hs hsymbol)
      · by_contra hfield
        exact hgood (.field hop hrw hfield)
    · rintro ⟨hsymbol, hfield, hpop⟩
      have hgood := @not_badRecord src data size rp _ _ hop hsymbol fun hrw => (hfield hrw).1
      by_cases hw : reloc_info &&& ROP_W = 0
      · obtain ⟨after, hafter, hsame, -⟩ := @relocValue_keep src dl data rp reloc_action reloc_info
          val top hfits hw (fun hrw => (hfield hrw).2) (htop.2 fun hstk => hpop hstk hw)
        refine ⟨after, hknown.trans hafter, fun a ha => ?_, fun hbad => absurd hbad hgood⟩
        rw [hsame, himage] at ha
        exact absurd rfl ha
      · obtain ⟨hin, hacc⟩ := hfield (hfits.write_access hw)
        obtain ⟨after, hafter, hframe, -⟩ := @relocValue_write src dl data rp reloc_action
          reloc_info val top hfits hw hacc
        refine ⟨after, hknown.trans hafter, fun a ha => ?_, fun hbad => absurd hbad hgood⟩
        -- some bit of a changed byte lies in the field
        have hcover : 8 * addressOf data rp + fieldOffset rp reloc_action < 8 * (a + 1) ∧
            8 * a < 8 * addressOf data rp + fieldOffset rp reloc_action +
              fieldWidth rp reloc_action := by
          by_contra hout
          apply ha
          rw [← himage]
          refine Memory.byte_eq fun i hi => hframe (8 * a + i) ?_
          omega
        obtain ⟨hlow, hhigh⟩ := hin
        exact ⟨by omega, by omega, reloc_action, reloc_info, hop, hcover⟩

def wordSource : RelocSource where
  df_no_syms := 0
  local_symtab _ := ⟨0, 0, 0⟩
  ldr_sections _ := 0
  delta_runaddr := 7
  run_addr := 0
  image_offset := 0
  bss := none

def clearState : RelocState where
  image := ⟨fun _ => 0, []⟩
  bss_run_base := 0
  relstkidx := 0
  relstk _ := 0
  errors := []
  zero_divisions := 0

/-- A word relocation at offset eight of a packet of four bytes changes the byte at 108. -/
theorem relocation_behind_packet :
    ¬ StaysInPacket wordSource clearState 100 4 ⟨8, -1, 0, 17⟩ := by
  rintro ⟨after, hafter, hframe, -⟩
  have hbyte : (dload_relocate wordSource clearState 100 ⟨8, -1, 0, 17⟩).map
      (fun after => after.image.bytes 108) = some 7 := by decide
  rw [hafter] at hbyte
  have hseven : after.image.bytes 108 = 7 := some.inj hbyte
  have hchanged : after.image.bytes 108 ≠ clearState.image.bytes 108 := by
    rw [hseven]
    decide
  exact absurd (hframe 108 hchanged).2.1 (by decide)

end OmapHal.Dynload
