import OmapHal.ConfigParser.AvcConfig
import OmapHal.ConfigParser.Elements
import OmapHal.ConfigParser.Emulation
import OmapHal.ConfigParser.SpsSyntax

/-!
# Decoding encoded parameter sets

The decoder's run over the codes of a parameter set: each of its steps reads the elements that
stand at the position, and ends behind them.
-/

namespace OmapHal.ConfigParser

open OmapHal.Core Mp4StreamType Decoder List

/-! ### Steps of the decoder over elements -/

section

variable {α β : Type} {data : Nat → UInt8} {numBytes : Nat} {es es' : List Element}
  {out mid out' : SpsParameters}

/-- From any position where the elements stand, the step returns the value, stores the parameters
and ends behind the elements. -/
def Parses (data : Nat → UInt8) (numBytes : Nat) (m : SpsDecoder α) (es : List Element) (a : α)
    (out out' : SpsParameters) : Prop :=
  ∀ ⦃p s⦄, s.At data numBytes p → Stands (byteBits data) p (encodeElements es) →
    p + (encodeElements es).length ≤ 8 * numBytes → InWords p es →
    ∃ s', m ⟨s, out⟩ = (.ok a, ⟨s', out'⟩) ∧ s'.At data numBytes (p + (encodeElements es).length)

theorem Parses.pure (a : α) : Parses data numBytes (Pure.pure a) [] a out out :=
  fun _ s h _ _ _ => ⟨s, rfl, h⟩

theorem Parses.bind {m : SpsDecoder α} {k : α → SpsDecoder β} {a : α} {b : β}
    (hm : Parses data numBytes m es a out mid) (hk : Parses data numBytes (k a) es' b mid out') :
    Parses data numBytes (m >>= k) (es ++ es') b out out' := by
  intro p s h hstands hp hin
  rw [encodeElements_append, length_append] at hp
  rw [encodeElements_append, stands_append] at hstands
  rw [inWords_append] at hin
  obtain ⟨t, hrun, ht⟩ := hm h hstands.1 (by omega) hin.1
  obtain ⟨s', hrun', hs'⟩ := hk ht hstands.2 (by omega) hin.2
  refine ⟨s', ?_, ?_⟩
  · show ExceptT.bindCont k (m ⟨s, out⟩).1 (m ⟨s, out⟩).2 = _
    rw [hrun]
    exact hrun'
  · rwa [encodeElements_append, length_append, ← Nat.add_assoc]

theorem Parses.store (f : SpsParameters → SpsParameters) :
    Parses data numBytes (store f) [] () out (f out) :=
  fun _ s h _ _ _ => ⟨s, rfl, h⟩

theorem Parses.require {c : Prop} [Decidable c] (hc : c) (status : Int) :
    Parses data numBytes (require c status) [] () out out := by
  rw [Decoder.require, if_pos hc]
  exact Parses.pure ()

theorem Parses.readBits (hn : numBytes < 2 ^ 29) {n value : Nat} (hv : value < 2 ^ n) :
    Parses data numBytes (readBits n) [.u n value] value out out := by
  intro p s h hstands hp hin
  simp only [encodeElements, flatMap_singleton, Element.code] at hstands hp ⊢
  rw [length_unsigned] at hp ⊢
  obtain ⟨s', hread, hat⟩ := h.readBits hn hp hin.1
  rw [hstands.bits_unsigned, Nat.mod_eq_of_lt hv] at hread
  exact ⟨s', by simp only [Decoder.readBits, onStream, hread], hat⟩

theorem Parses.ue (hn : numBytes < 2 ^ 29) (value : Nat) :
    Parses data numBytes ue [.ue value] value out out := by
  intro p s h hstands hp hin
  simp only [encodeElements, flatMap_singleton, Element.code] at hstands hp ⊢
  obtain ⟨s', hread, hat⟩ := h.ue_v hn hstands hp hin.1.1 hin.1.2
  exact ⟨s', by simp only [ConfigParser.ue, onStream, hread], hat⟩

theorem Parses.se (hn : numBytes < 2 ^ 29) (value : Int) :
    Parses data numBytes se [.se value] () out out := by
  intro p s h hstands hp hin
  simp only [encodeElements, flatMap_singleton, Element.code] at hstands hp ⊢
  exact ⟨se_v s, rfl, h.se_v hn hstands hp hin.1⟩

theorem Parses.repeatSe (hn : numBytes < 2 ^ 29) (values : List Int) :
    Parses data numBytes (repeatSe values.length) (values.map Element.se) () out out := by
  induction values with
  | nil => exact Parses.pure ()
  | cons value values ih => exact (Parses.se hn value).bind ih

/-- With `i4_delta_scale` at zero every element of the list is read. -/
theorem Parses.scaling_list_h264 (hn : numBytes < 2 ^ 29) {deltas : List Int} {size : Nat}
    (hsize : deltas.length = size) :
    Parses data numBytes (scaling_list_h264 size) (deltas.map Element.se) () out out := by
  subst hsize
  rw [ConfigParser.scaling_list_h264]
  induction deltas with
  | nil => exact Parses.pure ()
  | cons delta deltas ih => exact (Parses.se hn delta).bind ih

end

/-! ### The run -/

section

variable {data : Nat → UInt8} {numBytes : Nat} {out : SpsParameters}

theorem Parses.flag (hn : numBytes < 2 ^ 29) (b : Bool) :
    Parses data numBytes (Decoder.readBits 1) [.u 1 b.toNat] b.toNat out out :=
  Parses.readBits hn (by cases b <;> decide)

theorem scalingLists_parses (hn : numBytes < 2 ^ 29)
    {lists : (i : Fin 8) → Option (ScalingList (listSize i))}
    (hlists : ∀ i list, lists i = some list → list.deltas.length = listSize i)
    (is : List (Fin 8)) : Parses data numBytes (scalingLists (is.map Fin.val))
      (is.flatMap fun i => scalingListElements (lists i)) () out out := by
  induction is with
  | nil => exact Parses.pure ()
  | cons i is ih =>
    rw [map_cons, flatMap_cons, scalingLists]
    cases hlist : lists i with
    | none => exact (Parses.flag hn false).bind ((Parses.pure ()).bind ih)
    | some list =>
      exact (Parses.flag hn true).bind
        ((Parses.scaling_list_h264 hn (hlists i list hlist)).bind ih)

theorem highProfile_parses (hn : numBytes < 2 ^ 29) {profile : Profile}
    (h : ∀ parameters, profile = .high parameters → parameters.Served) :
    Parses data numBytes (highProfileParameters (profile.idc : Nat)) profile.elements () out
      out := by
  cases profile with
  | baseline => exact Parses.pure ()
  | main => exact Parses.pure ()
  | extended => exact Parses.pure ()
  | high parameters =>
    obtain ⟨hbypass, hlists⟩ := h parameters rfl
    have hidc : ((Profile.high parameters).idc : Int) = H264_PROFILE_IDC_HIGH := rfl
    rw [highProfileParameters, if_pos hidc]
    refine (Parses.ue hn 1).bind ((Parses.require rfl _).bind ?_)
    refine (Parses.ue hn 0).bind ((Parses.require rfl _).bind ?_)
    refine (Parses.ue hn 0).bind ((Parses.require rfl _).bind ?_)
    refine (Parses.flag hn _).bind ((Parses.require (by rw [hbypass]; rfl) _).bind ?_)
    cases hmatrix : parameters.seq_scaling_matrix with
    | none => exact (Parses.flag hn false).bind (Parses.pure ())
    | some lists =>
      have hrange : range 8 = (finRange 8).map Fin.val := by decide
      refine (Parses.flag hn true).bind ?_
      show Parses data numBytes (scalingLists (range 8)) _ () out out
      rw [hrange]
      exact scalingLists_parses hn (hlists lists hmatrix) _

theorem picOrderCnt_parses (hn : numBytes < 2 ^ 29) (poc : PicOrderCnt) :
    Parses data numBytes picOrderCntParameters poc.elements () out out := by
  cases poc with
  | lsb log2_max => exact (Parses.ue hn 0).bind ((Parses.ue hn log2_max).bind (Parses.pure ()))
  | cycle zero nonRef topToBottom refFrame =>
    refine (Parses.ue hn 1).bind ?_
    refine (Parses.flag hn zero).bind ((Parses.se hn nonRef).bind ?_)
    refine (Parses.se hn topToBottom).bind ((Parses.ue hn refFrame.length).bind ?_)
    exact Parses.repeatSe hn refFrame
  | output => exact (Parses.ue hn 2).bind (Parses.pure ())

theorem int32_eq {x : Int} (hmin : -2 ^ 31 ≤ x) (hmax : x < 2 ^ 31) : int32 x = x :=
  Int.bmod_eq_of_le (by omega) (by omega)

theorem cropping_parses (hn : numBytes < 2 ^ 29) (cropping : Option Cropping)
    (hsmall : ∀ value, .ue value ∈ croppingElements cropping → value + 1 < 2 ^ 16)
    (hwidth : 0 ≤ out.width ∧ out.width ≤ 2 ^ 20) (hheight : 0 ≤ out.height ∧ out.height ≤ 2 ^ 20) :
    Parses data numBytes croppingParameters (croppingElements cropping) () out
      (out.cropped cropping) := by
  cases cropping with
  | none => exact (Parses.flag hn false).bind (Parses.pure ())
  | some crop =>
    have hleft := hsmall crop.left (by simp [croppingElements])
    have hright := hsmall crop.right (by simp [croppingElements])
    have htop := hsmall crop.top (by simp [croppingElements])
    have hbottom := hsmall crop.bottom (by simp [croppingElements])
    have hcropped : out.cropped (some crop) = { out with
        display_width := int32 (out.width - 2 * (crop.right + crop.left))
        display_height := int32 (out.height - 2 * (crop.top + crop.bottom)) } := by
      rw [SpsParameters.cropped, int32_eq (by omega) (by omega), int32_eq (by omega) (by omega),
        Int.add_comm (crop.left : Int)]
    rw [hcropped]
    refine (Parses.flag hn true).bind ?_
    refine (Parses.ue hn crop.left).bind ((Parses.ue hn crop.right).bind ?_)
    exact (Parses.ue hn crop.top).bind ((Parses.ue hn crop.bottom).bind (Parses.store _))

/-- The decoder reads a parameter set that it can read. -/
theorem decodeSPS_parses (hn : numBytes < 2 ^ 29) {sps : Sps} (h : sps.Served) :
    Parses data numBytes DecodeSPS sps.elements () out sps.parameters := by
  have hsmall : ∀ value, .ue value ∈ sps.elements → value + 1 < 2 ^ 16 := fun value hmem =>
    lt_of_inWords h.inWords hmem
  have hwidth := hsmall sps.pic_width_in_mbs_minus1 (by simp [Sps.elements])
  have hheight := hsmall sps.pic_height_in_map_units_minus1 (by simp [Sps.elements])
  have hsize : ∀ size : Nat, size + 1 < 2 ^ 16 →
      int32 (((size + 1) <<< 4 : Nat) : Int) = 16 * (size + 1) := fun size hlt => by
    rw [Nat.shiftLeft_eq, int32_eq (by omega) (by omega)]
    omega
  have hheader : (sps.nal_ref_idc * 32 + 7 : Nat) &&& 0x1F = 7 := by
    rw [Nat.and_two_pow_sub_one_eq_mod _ 5]
    omega
  have hprofile : sps.profile.idc < 2 ^ 8 := by
    cases sps.profile <;> simp [Profile.idc]
  refine (Parses.readBits hn (by omega)).bind ((Parses.require hheader _).bind ?_)
  refine (Parses.readBits hn hprofile).bind ((Parses.store _).bind ?_)
  refine (Parses.flag hn _).bind ((Parses.flag hn _).bind ((Parses.flag hn _).bind ?_))
  refine (Parses.readBits hn sps.reserved.isLt).bind ?_
  refine (Parses.readBits hn sps.level_idc.isLt).bind ((Parses.store _).bind ?_)
  refine (Parses.require (Fin.le_def.mp h.level) _).bind ?_
  refine (Parses.ue hn _).bind ((highProfile_parses hn h.high).bind ?_)
  refine (Parses.ue hn _).bind ((picOrderCnt_parses hn _).bind ?_)
  refine (Parses.ue hn _).bind ((Parses.flag hn _).bind ?_)
  refine (Parses.ue hn _).bind ((Parses.store _).bind ?_)
  refine (Parses.ue hn _).bind ((Parses.store _).bind ?_)
  refine (Parses.flag hn true).bind ((Parses.require Nat.one_ne_zero _).bind ?_)
  refine (Parses.store _).bind ((Parses.flag hn _).bind ?_)
  rw [hsize _ hwidth, hsize _ hheight]
  refine cropping_parses hn _ (fun value hmem => hsmall value ?_) ?_ ?_
  · simp [Sps.elements, hmem]
  · show 0 ≤ 16 * (_ : Int) ∧ 16 * (_ : Int) ≤ 2 ^ 20
    omega
  · show 0 ≤ 16 * (_ : Int) ∧ 16 * (_ : Int) ≤ 2 ^ 20
    omega

/-- For every parameter set that the decoder can read, whatever follows its codes, `DecodeSPS`
returns 0 with the parameters of the set. -/
theorem decodeSPS_encoded (sps : Sps) (tail : List Bool) (data : Nat → UInt8) (numBytes : Nat)
    (out : SpsParameters) (hn : numBytes < 2 ^ 29)
    (hlength : (encodeElements sps.elements ++ tail).length = 8 * numBytes)
    (hdata : Stands (byteBits data) 0 (encodeElements sps.elements ++ tail)) (h : sps.Served) :
    ∃ psBits, DecodeSPS ⟨start data numBytes, out⟩ = (.ok (), ⟨psBits, sps.parameters⟩) := by
  rw [length_append] at hlength
  obtain ⟨psBits, hrun, -⟩ := decodeSPS_parses hn h (at_start data numBytes)
    (stands_append.mp hdata).1 (by omega) h.inWords
  exact ⟨psBits, hrun⟩

/-! ### Two parameter sets -/

/-- CIF pictures of the high profile, with one scaling list and a cycle of two offsets. -/
def cif (list : ScalingList 16) : Sps where
  nal_ref_idc := 3
  profile := .high ⟨false, some fun i => match i with
    | 0 => some list
    | _ => none⟩
  constraint_set0_flag := false
  constraint_set1_flag := false
  constraint_set2_flag := false
  reserved := 0
  level_idc := 30
  seq_parameter_set_id := 0
  log2_max_frame_num_minus4 := 0
  pic_order_cnt := .cycle true 0 0 [2, -2]
  max_num_ref_frames := 1
  gaps_in_frame_num_value_allowed_flag := false
  pic_width_in_mbs_minus1 := 21
  pic_height_in_map_units_minus1 := 17
  direct_8x8_inference_flag := true
  frame_cropping := some ⟨0, 0, 0, 4⟩

/-- A stream over a buffer, before any parameter is stored. -/
def unread (bytes : List UInt8) : DecoderState SpsParameters :=
  ⟨start (fun k => bytes.getD k 0) bytes.length, ⟨0, 0, 0, 0, 0, 0, 0⟩⟩

def flatList : ScalingList 16 := ⟨List.replicate 16 0, by decide, by decide⟩

/-- The list that falls back to the default scaling. -/
def defaultList : ScalingList 16 := ⟨[-8], by decide, by decide⟩

theorem decodeSPS_encoded_sample : ∃ psBits,
    DecodeSPS (unread [103, 100, 0, 30, 173, 255, 255, 128, 174, 200, 84, 11, 4, 191, 42]) =
      (.ok (), ⟨psBits, (cif flatList).parameters⟩) := by
  refine decodeSPS_encoded (cif flatList) [false, true, false] _ 15 _ (by decide) (by decide)
    (by decide +kernel) ⟨by decide, ?_, by decide⟩
  rintro parameters ⟨⟩
  refine ⟨rfl, ?_⟩
  rintro lists ⟨⟩ i list hlist
  match i with
  | 0 =>
    obtain rfl := Option.some.inj hlist
    rfl

/-- Of a list that ends after its first delta the function reads sixteen. -/
theorem scaling_list_ends_early : ¬∀ (sps : Sps) (tail : List Bool) (data : Nat → UInt8)
    (numBytes : Nat) (out : SpsParameters), numBytes < 2 ^ 29 →
    (encodeElements sps.elements ++ tail).length = 8 * numBytes →
    Stands (byteBits data) 0 (encodeElements sps.elements ++ tail) →
    ∃ psBits, DecodeSPS ⟨start data numBytes, out⟩ = (.ok (), ⟨psBits, sps.parameters⟩) := by
  intro h
  have hfails : returned (DecodeSPS
      (unread [103, 100, 0, 30, 173, 132, 64, 87, 100, 42, 5, 130, 95, 149])).1 = -1 := by
    decide +kernel
  obtain ⟨psBits, hrun⟩ : ∃ psBits, DecodeSPS
      (unread [103, 100, 0, 30, 173, 132, 64, 87, 100, 42, 5, 130, 95, 149]) =
        (.ok (), ⟨psBits, (cif defaultList).parameters⟩) :=
    h (cif defaultList) [false, true] _ 14 _ (by decide) (by decide) (by decide +kernel)
  rw [hrun] at hfails
  exact absurd hfails (by simp [returned])

end

/-! ### Parameter sets in a configuration -/

section

variable {sps : Sps} {tail : List Bool} {s : List UInt8} {buffer : Memory} {length : Int}

/-- What `iGetAVCConfigInfo` does with the slice of the sequence parameter set. -/
def decodeSlice (copy : Memory) (sps : Slice) (out : SpsParameters) :
    Except Int Unit × DecoderState SpsParameters :=
  let r := Parser_EBSPtoRBSP (fun k => copy (sps.start + k)) sps.length
  DecodeSPS ⟨start r.nal_unit r.j, out⟩

theorem uint16At_lt (buffer : Memory) (p : Nat) : uint16At buffer p < 2 ^ 16 := by
  have hhigh := (buffer (p + 1)).toNat_lt
  have hlow := (buffer p).toNat_lt
  refine Nat.or_lt_two_pow ?_ (by omega)
  rw [Nat.shiftLeft_eq]
  omega

/-- A parameter set that the decoder can read comes out of a configuration in which it stands with
escapes, behind its length: the slice is found, the escapes are removed, and the parameters are
those of the set. -/
theorem config_decodes (h : sps.Served)
    (hlength : (encodeElements sps.elements ++ tail).length = 8 * s.length)
    (hbits : Stands (byteBits fun k => s.getD k 0) 0 (encodeElements sps.elements ++ tail))
    (hends : ¬ TrailingEscape (escape 0 s)) (hcount : uint16At buffer 0 = (escape 0 s).length)
    (hunit : buffer.read 2 (escape 0 s).length = escape 0 s) (h3 : 3 ≤ length)
    (hroom : (uint16At buffer 0 + uint16At buffer (2 + uint16At buffer 0) : Int) ≤ length)
    (fuel : Nat) (out : SpsParameters) :
    ∃ slice pps psBits, iGetAVCConfigInfo true buffer length fuel = some (.decode slice pps) ∧
      decodeSlice buffer slice out = (.ok (), ⟨psBits, sps.parameters⟩) := by
  have hlt := uint16At_lt buffer 0
  have hstrip : strip 0 (escape 0 s) = s := strip_escape s (Nat.zero_le 2)
  have hle := length_strip_le (escape 0 s) 0
  rw [hstrip] at hle
  rw [length_append] at hlength
  have hzeros : ¬ (buffer 0 = 0 ∧ buffer 1 = 0) := by
    rintro ⟨h0, h1⟩
    have hzero : uint16At buffer 0 = 0 := by simp [uint16At, h0, h1]
    have hsome : 0 < (encodeElements sps.elements).length := by
      simp [Sps.elements, encodeElements, Element.code]
    omega
  have hmemory : Memory.read (fun k => buffer (2 + k)) 0 (escape 0 s).length = escape 0 s :=
    (Memory.read_eq_read fun k _ => by rw [Nat.zero_add]).trans hunit
  obtain ⟨overrun, hparsed⟩ := parser_spec (fun k => buffer (2 + k)) (escape 0 s).length
  obtain ⟨r, hr⟩ : ∃ r, Parser_EBSPtoRBSP (fun k => buffer (2 + k)) (escape 0 s).length = r :=
    ⟨_, rfl⟩
  rw [hr] at hparsed
  cases overrun with
  | true => exact absurd (hmemory ▸ hparsed.over_iff.mp rfl) hends
  | false =>
    have hsize := hparsed.newSize
    have hbytes := hparsed.bytes rfl
    rw [hmemory, hstrip] at hsize hbytes
    have hslices := iGetAVCConfigInfo_prefixes h3 hzeros fuel
    rw [if_neg (Int.not_lt.mpr hroom)] at hslices
    have hparses : Parses r.nal_unit s.length DecodeSPS sps.elements () out sps.parameters :=
      decodeSPS_parses (by omega) h
    have hread : Stands (byteBits r.nal_unit) 0 (encodeElements sps.elements) := by
      refine (stands_append.mp hbits).1.congr fun i hi => ?_
      have hbyte := Memory.getElem?_read r.nal_unit 0 (show i / 8 < s.length by omega)
      rw [hbytes, Nat.zero_add] at hbyte
      rw [Nat.zero_add, byteBits, byteBits, getD_eq_getElem?_getD, hbyte, Option.getD_some]
    obtain ⟨psBits, hrun, -⟩ := hparses (at_start _ _) hread (by omega) h.inWords
    refine ⟨_, _, psBits, hslices, ?_⟩
    simp only [decodeSlice, hcount, hr, hsize]
    exact hrun

/-- The same pictures with a large offset, whose code has three zero bytes. -/
def wideOffset : Sps := { cif flatList with pic_order_cnt := .cycle true 0 0 [2 ^ 20, -2] }

/-- They stand behind their length, with an escape, before a picture parameter set of one byte. -/
def escapedConfig : List UInt8 :=
  [21, 0, 103, 100, 0, 30, 173, 255, 255, 128, 174, 192, 0, 1, 0, 0, 3, 1, 80, 44, 18, 252, 176,
    1, 0, 104]

theorem config_decodes_escaped : ∃ slice pps psBits,
    iGetAVCConfigInfo true (escapedConfig.getD · 0) 26 0 = some (.decode slice pps) ∧
      decodeSlice (escapedConfig.getD · 0) slice ⟨0, 0, 0, 0, 0, 0, 0⟩ =
        (.ok (), ⟨psBits, wideOffset.parameters⟩) := by
  refine @config_decodes wideOffset [true, false, false, false, false]
    (strip 0 ((escapedConfig.drop 2).take 21)) _ 26 ⟨by decide, ?_, by decide +kernel⟩
    (by decide +kernel) (by decide +kernel) (by decide) (by decide) (by decide) (by decide)
    (by decide) 0 _
  rintro parameters ⟨⟩
  refine ⟨rfl, ?_⟩
  rintro lists ⟨⟩ i list hlist
  match i with
  | 0 =>
    obtain rfl := Option.some.inj hlist
    rfl

end

end OmapHal.ConfigParser
