import OmapHal.Hwc.Assignment

/-!
# Handing pipes over

A pipe that one display uses in a frame may not be used by the other display in the next one.
The composer keeps the overlay counts of the frame that it posted last; the frame that the display
subsystem took last is another one if a post failed.
-/

namespace OmapHal.Hwc

open OmapHal.Core List Nat

variable {env : PrepareEnv} {hwc_dev d r : HwcDevice} {list : Option (List HwcLayer)}
  {p q : SetupDispcData} {s : Session} {n c : Nat} {tail : Bool}

/-- The overlays of a setup on one manager. -/
def SetupDispcData.ovlsOn (p : SetupDispcData) (mgr_ix : Nat) : Nat :=
  (List.range p.num_ovls).countP fun k => (p.ovls k).cfg.mgr_ix = mgr_ix

/-- The pipes can go from the setup `old` to the setup `new`: the overlays of one display fit
beside those that the other display had, and no pipe changes the display. -/
structure HandsOver (old new : SetupDispcData) : Prop where
  internal : (new.ovlsOn 0 : Int) + old.ovlsOn 1 ≤ MAX_HW_OVERLAYS
  external : (new.ovlsOn 1 : Int) + old.ovlsOn 0 ≤ MAX_HW_OVERLAYS
  pipes : ∀ j k, j < new.num_ovls → k < old.num_ovls →
    (new.ovls j).cfg.mgr_ix ≠ (old.ovls k).cfg.mgr_ix →
    (new.ovls j).cfg.ix ≠ (old.ovls k).cfg.ix

/-- A call that sets up a frame hands the pipes over from the frame that was taken last. -/
def HandsOverIn (s : Session) : Event → Prop
  | .prepare env list => HandsOver s.committed (hwc_prepare env s.dev list).1.dsscomp
  | _ => True

/-- Two scaled layers have the internal half of the pipes, so that the first one of them is moved
to the other half. -/
structure PairOffGfx (hwc_dev : HwcDevice) (list : Option (List HwcLayer)) : Prop where
  mirror : hwc_dev.ext.mirror.enabled = true
  undocked : ¬(hwc_dev.ext.dock.enabled = true ∧ docks (counted hwc_dev list) = true)
  primary_transform : hwc_dev.primary_transform = false
  rendered : can_dss_render_all (decided hwc_dev list) = true
  layers : ∃ l₁ l₂, list = some [l₁, l₂] ∧ rendersScaled (begin_frame hwc_dev list).1 l₁ = true ∧
    rendersScaled (begin_frame hwc_dev list).1 l₂ = true

/-- The composer is to dock: one of its pipes goes to the external display. -/
def Docks (hwc_dev : HwcDevice) (list : Option (List HwcLayer)) : Prop :=
  hwc_dev.ext.dock.enabled = true ∧ docks (counted hwc_dev list) = true

/-- The composer is to mirror: half of its pipes go to the external display. -/
def Mirrors (hwc_dev : HwcDevice) (list : Option (List HwcLayer)) : Prop :=
  hwc_dev.ext.mirror.enabled = true ∧ ¬Docks hwc_dev list

/-- The last frame leaves a pipe for the external display. Where a layer is protected, mirroring
waits until it has all of its pipes. -/
def GetsPipe (hwc_dev : HwcDevice) (list : Option (List HwcLayer)) : Prop :=
  (Docks hwc_dev list ∧ hwc_dev.last_int_ovls ≤ 3) ∨
    (Mirrors hwc_dev list ∧ hwc_dev.last_int_ovls ≤
      if (counted hwc_dev list).counts.protectedLayers = 0 then 3 else 2)

/-- The last frame leaves two pipes, and no overlay is set aside for the transform. -/
def GetsTwoPipes (hwc_dev : HwcDevice) (list : Option (List HwcLayer)) : Prop :=
  Mirrors hwc_dev list ∧ hwc_dev.last_int_ovls ≤ 2 ∧ hwc_dev.primary_transform = false

/-- The condition on a call. A frame that is recorded but not taken uses at least as many overlays
on each display as the one that was taken; and the composer, which only counts the overlays of the
last frame, is not misled about their pipes. -/
def Careful (s : Session) : Event → Prop
  | .set env =>
    env.shows = false ∨ (reaches_post2 env s.dev = true ∧ env.posts = false) →
      s.committed.ovlsOn 0 ≤ s.dev.post2_layers ∧ (s.committed.ovlsOn 1 : Int) ≤ s.dev.ext_ovls
  | .prepare _ list =>
    (PairOffGfx s.dev list → ∀ k < s.committed.num_ovls,
      (s.committed.ovls k).cfg.mgr_ix = 1 → (s.committed.ovls k).cfg.ix ≠ 2) ∧
    ∀ k < s.committed.num_ovls, (s.committed.ovls k).cfg.mgr_ix = 0 →
      (GetsPipe s.dev list → (s.committed.ovls k).cfg.ix ≠ 3) ∧
      (GetsTwoPipes s.dev list → (s.committed.ovls k).cfg.ix ≠ 2)
  | _ => True

/-! ### What a setup uses -/

/-- The setup has at most these many overlays on each display, the external ones on the last
pipes. -/
structure SetupDispcData.Uses (p : SetupDispcData) (internal external : Int) : Prop where
  internal : (p.ovlsOn 0 : Int) ≤ internal
  external : (p.ovlsOn 1 : Int) ≤ external
  mgr_ix : ∀ k < p.num_ovls, (p.ovls k).cfg.mgr_ix = 0 ∨ (p.ovls k).cfg.mgr_ix = 1
  pipes : ∀ k < p.num_ovls, (p.ovls k).cfg.mgr_ix = 1 →
    4 - (p.ovlsOn 1 : Int) ≤ (p.ovls k).cfg.ix ∧ (p.ovls k).cfg.ix ≤ 3

theorem uses_zero : SetupDispcData.zero.Uses 0 0 :=
  ⟨le_rfl, le_rfl, fun k hk => absurd hk (not_lt_zero k), fun k hk =>
    absurd hk (not_lt_zero k)⟩

theorem ovlsOn_congr (hnum : q.num_ovls = p.num_ovls) (hcfg : ∀ k, (q.ovls k).cfg = (p.ovls k).cfg)
    (mgr_ix : Nat) : q.ovlsOn mgr_ix = p.ovlsOn mgr_ix := by
  rw [SetupDispcData.ovlsOn, SetupDispcData.ovlsOn, hnum]
  simp only [hcfg]

theorem SetupDispcData.Uses.congr {i e : Int} (h : p.Uses i e) (hnum : q.num_ovls = p.num_ovls)
    (hcfg : ∀ k, (q.ovls k).cfg = (p.ovls k).cfg) : q.Uses i e := by
  refine ⟨?_, ?_, fun k hk => ?_, fun k hk hm => ?_⟩
  · rw [ovlsOn_congr hnum hcfg]
    exact h.internal
  · rw [ovlsOn_congr hnum hcfg]
    exact h.external
  · rw [hcfg]
    exact h.mgr_ix k (hnum ▸ hk)
  · rw [hcfg] at hm ⊢
    rw [ovlsOn_congr hnum hcfg]
    exact h.pipes k (hnum ▸ hk) hm

theorem SetupDispcData.Uses.mono {i e i' e' : Int} (h : p.Uses i e) (hi : (p.ovlsOn 0 : Int) ≤ i')
    (he : (p.ovlsOn 1 : Int) ≤ e') : p.Uses i' e' := ⟨hi, he, h.mgr_ix, h.pipes⟩

/-- Internal overlays first, external ones behind them. -/
theorem ovlsOn_of_split (hnum : p.num_ovls = n + c) (hi : ∀ k < n, (p.ovls k).cfg.mgr_ix = 0)
    (he : ∀ j < c, (p.ovls (n + j)).cfg.mgr_ix = 1) : p.ovlsOn 0 = n ∧ p.ovlsOn 1 = c := by
  have hsplit : ∀ mgr_ix, p.ovlsOn mgr_ix =
      (range n).countP (fun k => (p.ovls k).cfg.mgr_ix = mgr_ix) +
        (range c).countP (fun j => (p.ovls (n + j)).cfg.mgr_ix = mgr_ix) := by
    intro mgr_ix
    rw [SetupDispcData.ovlsOn, hnum, range_add, countP_append, countP_map]
    rfl
  have hlow : ∀ k ∈ range n, (p.ovls k).cfg.mgr_ix = 0 := fun k hk =>
    hi k (mem_range.mp hk)
  have hhigh : ∀ j ∈ range c, (p.ovls (n + j)).cfg.mgr_ix = 1 := fun j hj =>
    he j (mem_range.mp hj)
  constructor
  · rw [hsplit, countP_eq_length.mpr fun k hk => decide_eq_true (hlow k hk),
      countP_eq_zero.mpr, length_range, Nat.add_zero]
    intro j hj
    simp [hhigh j hj]
  · rw [hsplit, countP_eq_zero.mpr, countP_eq_length.mpr fun j hj =>
      decide_eq_true (hhigh j hj), length_range, Nat.zero_add]
    intro k hk
    simp [hlow k hk]

/-- What `hwc_prepare` sets up stays within the counts that `hwc_set` will keep. -/
theorem Outcome.uses (h : Outcome hwc_dev d n c tail r) :
    r.dsscomp.Uses r.post2_layers r.ext_ovls := by
  obtain ⟨hfits, hint, hext, -, hnum, hp2, hovls, -⟩ := h
  rcases hnum with hnum | ⟨hnum, -⟩
  · obtain ⟨h0, h1⟩ := ovlsOn_of_split hnum hint.mgr_ix fun j hj => (hext j hj).mgr_ix
    refine ⟨?_, ?_, fun k hk => ?_, fun k hk hm => ?_⟩
    · rw [h0, hp2]
    · rw [h1]
      exact hovls.1
    · rcases lt_or_ge k n with hkn | hkn
      · exact .inl (hint.mgr_ix k hkn)
      · have hat := hext (k - n) (by omega)
        rw [Nat.add_sub_cancel' hkn] at hat
        exact .inr hat.mgr_ix
    · rcases lt_or_ge k n with hkn | hkn
      · rw [hint.mgr_ix k hkn] at hm
        cases hm
      · have hat := hext (k - n) (by omega)
        rw [Nat.add_sub_cancel' hkn] at hat
        rw [hat.ix, h1]
        omega
  · have hnone : ∀ mgr_ix, r.dsscomp.ovlsOn mgr_ix = 0 := fun mgr_ix => by
      rw [SetupDispcData.ovlsOn, hnum]
      rfl
    refine ⟨?_, ?_, fun k hk => ?_, fun k hk => ?_⟩
    · rw [hnone]
      exact Int.natCast_nonneg _
    · rw [hnone]
      omega
    · omega
    · omega

/-! ### One frame -/

section Room

variable {f : Frame} {x : HwcDevice}

/-- The pipes of the internal display end where those begin that the external one had, or two
scaled layers share the internal half of the pipes. -/
theorem room_of_internal (h : hwc_dev.Steady)
    (hint : InternalFrame (begin_frame hwc_dev list).1 (begin_frame hwc_dev list).2 n tail f) :
    (n : Int) + hwc_dev.primary_transform.toNat + tail.toNat + hwc_dev.last_ext_ovls ≤ 4 ∨
      (PairOffGfx hwc_dev list ∧ n + hwc_dev.primary_transform.toNat + tail.toNat ≤ 3) := by
  have hlast : (counted hwc_dev list).last_ext_ovls = hwc_dev.last_ext_ovls := rfl
  have hpt : (counted hwc_dev list).primary_transform.toNat = hwc_dev.primary_transform.toNat := rfl
  have hle : hwc_dev.primary_transform.toNat ≤ 1 := Bool.toNat_le _
  have hcount : n ≤ max 1 (decided hwc_dev list).counts.max_hw_overlays := hint.count
  obtain ⟨hl0, hl2⟩ := h.last_ext
  have hdecide : CloningCase (counted hwc_dev list) (decided hwc_dev list) :=
    decide_cases (counted_steady h list)
  cases htail : tail with
  | false =>
    left
    rw [Bool.toNat_false]
    rcases hdecide with ⟨-, hw, ho, hhw, -⟩ | ⟨-, -, -, hw, ho, hhw, -⟩ | ⟨-, hw, ho, hhw, -⟩
    · omega
    · split at hhw <;> omega
    · omega
  | true =>
    rw [Bool.toNat_true]
    obtain ⟨hsgx, hscaled⟩ := hint.scaling htail
    obtain ⟨hprimary, -⟩ := hint.placed.last htail
    have hoff : hwc_dev.primary_transform.toNat = 0 := hprimary
    have hrender := not_sgx_iff.mp hsgx
    rw [countP_begin_frame] at hscaled
    obtain ⟨hforce, hlen, hscaling, hmem⟩ := rendersAll_of_can_dss_render_all hrender
    have hsub := countP_le_length (p := rendersScaled (begin_frame hwc_dev list).1)
      (l := list.getD [])
    rcases hdecide with ⟨-, hw, ho, hhw, hsc⟩ | ⟨hen, hun, -, hw, ho, hhw, hsc⟩ |
      ⟨-, hw, ho, hhw, hsc⟩
    · left
      omega
    · have hmax : (decided hwc_dev list).counts.max_hw_overlays ≤ 2 := by
        split at hhw <;> omega
      by_cases htwo : n = 2
      · right
        have hall := countP_eq_length.mp
          (show (list.getD []).countP (rendersScaled (begin_frame hwc_dev list).1) = _ by omega)
        refine ⟨⟨hen, hun, ?_, hrender, ?_⟩, by omega⟩
        · cases hp : hwc_dev.primary_transform with
          | false => rfl
          | true =>
            rw [hp] at hoff
            cases hoff
        · cases list with
          | none =>
            have : n ≤ 0 := hscaled
            omega
          | some layers =>
            obtain ⟨l₁, l₂, rfl⟩ := length_eq_two.mp
              (show layers.length = 2 from le_antisymm (hlen.trans hmax) (by
                have : layers.countP _ ≤ layers.length := hsub
                have : n ≤ layers.countP _ := hscaled
                omega))
            exact ⟨l₁, l₂, rfl, hall l₁ mem_cons_self, hall l₂ (mem_cons_of_mem l₁ mem_cons_self)⟩
      · left
        omega
    · left
      omega

/-- The reserved overlays are only used if the last frame leaves a pipe for them, and two of them
only if it leaves two. -/
theorem getsPipe_of_clones_now (h : hwc_dev.Steady)
    (hnow : clones_now (decided hwc_dev list) = true) :
    GetsPipe hwc_dev list ∧ ((decided hwc_dev list).ext.current.docking = false →
      2 ≤ (decided hwc_dev list).counts.max_hw_overlays → GetsTwoPipes hwc_dev list) := by
  have hlast : (counted hwc_dev list).last_int_ovls = hwc_dev.last_int_ovls := rfl
  have hpt : (counted hwc_dev list).primary_transform = hwc_dev.primary_transform := rfl
  have hprot : (decided hwc_dev list).counts.protectedLayers =
      (counted hwc_dev list).counts.protectedLayers := rfl
  have hdecide : CloningCase (counted hwc_dev list) (decided hwc_dev list) :=
    decide_cases (counted_steady h list)
  have hle := h.last_int.2
  obtain ⟨hon, hroom⟩ := clones_now_iff.mp hnow
  rw [hprot] at hroom
  rcases hdecide with ⟨hcur, hw, ho, -, -, hdocked⟩ | ⟨hen, hun, -, hw, ho, hhw, -⟩ | ⟨hcur, -⟩
  · rw [hlast] at ho
    have hone : (decided hwc_dev list).ext_ovls_wanted = 1 := by omega
    refine ⟨.inl ⟨hdocked hone, by omega⟩, fun hdk => ?_⟩
    rw [hcur] at hdk
    cases hdk
  · rw [hlast] at ho
    refine ⟨.inr ⟨⟨hen, hun⟩, ?_⟩, fun _ htwo => ⟨⟨hen, hun⟩, ?_⟩⟩
    · split <;> omega
    · rw [hpt] at hhw
      cases ht : hwc_dev.primary_transform with
      | false => split at hhw <;> exact ⟨by omega, rfl⟩
      | true =>
        rw [ht, Bool.toNat_true] at hhw
        split at hhw <;> omega
  · rw [hcur] at hon
    cases hon

/-- A clone needs a pipe that the last frame leaves, two clones need two. -/
theorem getsPipe_of_cloneCase (h : hwc_dev.Steady)
    (hint : InternalFrame (begin_frame hwc_dev list).1 (begin_frame hwc_dev list).2 n tail f)
    (hcase : CloneCase env { f.hwc_dev with post2_layers := n } c x) :
    (1 ≤ c → GetsPipe hwc_dev list) ∧ (2 ≤ c → GetsTwoPipes hwc_dev list) := by
  have hnow : clones_now f.hwc_dev = clones_now (decided hwc_dev list) :=
    (clones_now_follows hint.follows).trans rfl
  have hcur : f.hwc_dev.ext = (decided hwc_dev list).ext := hint.follows.ext
  have hn : f.hwc_dev.dsscomp.num_ovls = n := hint.follows.num_ovls
  have hcount : n ≤ max 1 (decided hwc_dev list).counts.max_hw_overlays := hint.count
  rcases hcase with ⟨hc, -⟩ | ⟨hnw, -, hc⟩ | ⟨hnw, hdk, -, hc, -⟩
  · exact ⟨fun _ => by omega, fun _ => by omega⟩
  · exact ⟨fun _ => (getsPipe_of_clones_now h (hnow.symm.trans hnw)).1, fun _ => by omega⟩
  · obtain ⟨hone, htwo⟩ := getsPipe_of_clones_now h (hnow.symm.trans hnw)
    change c = f.hwc_dev.dsscomp.num_ovls at hc
    change f.hwc_dev.ext.current.docking = false at hdk
    exact ⟨fun _ => hone, fun _ => htwo (hcur ▸ hdk) (by omega)⟩

end Room

/-- A careful call hands the pipes over from any setup within the counts of the last frame. -/
theorem handsOver_of_careful {old : SetupDispcData} (h : hwc_dev.Steady)
    (hold : old.Uses hwc_dev.last_int_ovls hwc_dev.last_ext_ovls)
    (hcareful : Careful ⟨hwc_dev, old⟩ (.prepare env list)) :
    HandsOver old (hwc_prepare env hwc_dev list).1.dsscomp := by
  obtain ⟨n, c, tail, hout, hint, hcase⟩ := hwc_prepare_outcome h env list
  obtain ⟨hpair, hclones⟩ := hcareful
  have hnew := hout.uses
  obtain ⟨hfits, hplaced, hext, -, hnum, hp2, hovls, -⟩ := hout
  generalize (hwc_prepare env hwc_dev list).1 = r at *
  have hcounts : (r.dsscomp.ovlsOn 0 : Int) ≤ n ∧ (r.dsscomp.ovlsOn 1 : Int) ≤ c := by
    rcases hnum with hnum | ⟨hnum, -⟩
    · obtain ⟨h0, h1⟩ := ovlsOn_of_split hnum hplaced.mgr_ix fun j hj => (hext j hj).mgr_ix
      exact ⟨h0 ▸ le_rfl, h1 ▸ le_rfl⟩
    · rw [SetupDispcData.ovlsOn, SetupDispcData.ovlsOn, hnum]
      exact ⟨Int.natCast_nonneg n, Int.natCast_nonneg c⟩
  have hin := hfits.internal
  have hex := hfits.external
  have hres := hfits.reserved
  have hoi := hold.internal
  have hoe := hold.external
  refine ⟨?_, ?_, fun j k hj hk hne => ?_⟩
  · rw [MAX_HW_OVERLAYS]
    omega
  · rw [MAX_HW_OVERLAYS]
    omega
  · have hnum : r.dsscomp.num_ovls = n + c := by
      rcases hnum with hnum | ⟨hnum, -⟩ <;> omega
    rcases lt_or_ge j n with hjn | hjn
    · -- an internal overlay now, an external one in the last frame
      have hmgr := hplaced.mgr_ix j hjn
      have hrange := (hplaced.range j hjn).2
      have hm : (old.ovls k).cfg.mgr_ix = 1 :=
        (hold.mgr_ix k hk).resolve_left fun h0 => hne (hmgr.trans h0.symm)
      obtain ⟨hlow, hhigh⟩ := hold.pipes k hk hm
      rcases room_of_internal h hint with hroom | ⟨hoff, hroom⟩
      · omega
      · have hout2 := hpair hoff k hk hm
        have hl2 := h.last_ext.2
        have hix : (2 : Int) ≤ (old.ovls k).cfg.ix := by omega
        change (old.ovls k).cfg.ix ≠ 2 at hout2
        omega
    · -- a clone now, an internal overlay in the last frame
      have hat := hext (j - n) (by omega)
      rw [Nat.add_sub_cancel' hjn] at hat
      have hm : (old.ovls k).cfg.mgr_ix = 0 :=
        (hold.mgr_ix k hk).resolve_right fun h1 => hne (hat.mgr_ix.trans h1.symm)
      obtain ⟨hone, htwo⟩ := getsPipe_of_cloneCase h hint hcase
      obtain ⟨hthree, htwo'⟩ := hclones k hk hm
      have hix := hat.ix
      have hres' := hfits.reserved_le
      intro heq
      rcases (by omega : j = n ∨ j = n + 1) with rfl | rfl
      · exact hthree (hone (by omega)) (by rw [← heq, hix]; omega)
      · exact htwo' (htwo (by omega)) (by rw [← heq, hix]; omega)

/-! ### Runs -/

/-- The counts that the composer keeps bound what was taken last and what is set up now. -/
structure Kept (s : Session) : Prop where
  steady : s.dev.Steady
  committed : s.committed.Uses s.dev.last_int_ovls s.dev.last_ext_ovls
  prepared : s.dev.dsscomp.Uses s.dev.post2_layers s.dev.ext_ovls

theorem kept_start (h : hwc_dev.Opened) : Kept (.start hwc_dev) := by
  refine ⟨h.steady, ?_, ?_⟩
  · show SetupDispcData.zero.Uses hwc_dev.last_int_ovls hwc_dev.last_ext_ovls
    rw [h.last_int_ovls, h.last_ext_ovls]
    exact uses_zero
  · show hwc_dev.dsscomp.Uses hwc_dev.post2_layers hwc_dev.ext_ovls
    rw [h.dsscomp, h.post2_layers, h.ext_ovls]
    exact uses_zero

/-- The buffers are fixed up without a change of pipes. -/
theorem fix_up_buffers_uses {i e : Int} (h : hwc_dev.dsscomp.Uses i e) :
    (fix_up_buffers hwc_dev).dsscomp.Uses i e ∧
      (fix_up_buffers hwc_dev).post2_layers = hwc_dev.post2_layers ∧
      (fix_up_buffers hwc_dev).ext_ovls = hwc_dev.ext_ovls := by
  rw [fix_up_buffers]
  split
  · refine ⟨h.congr rfl fun k => ?_, rfl, rfl⟩
    show (if _ then _ else _ : Dss2OvlInfo).cfg = _
    split <;> rfl
  · exact ⟨h, rfl, rfl⟩

theorem finish_setup_last (hwc_dev : HwcDevice) :
    (finish_setup hwc_dev).last_int_ovls = hwc_dev.last_int_ovls ∧
      (finish_setup hwc_dev).last_ext_ovls = hwc_dev.last_ext_ovls := ⟨rfl, rfl⟩

theorem transform_primary_last (hwc_dev : HwcDevice) :
    (transform_primary hwc_dev).last_int_ovls = hwc_dev.last_int_ovls ∧
      (transform_primary hwc_dev).last_ext_ovls = hwc_dev.last_ext_ovls := by
  rw [transform_primary]
  split <;> exact ⟨rfl, rfl⟩

theorem Extended.last (h : Extended hwc_dev c d) : d.last_int_ovls = hwc_dev.last_int_ovls ∧
    d.last_ext_ovls = hwc_dev.last_ext_ovls := by
  obtain ⟨⟨ext, ovls, -, rfl⟩, -, -⟩ := h
  exact ⟨rfl, rfl⟩

/-- `hwc_prepare` leaves the counts of the last frame. -/
theorem hwc_prepare_last (h : hwc_dev.Steady) (env : PrepareEnv) (list : Option (List HwcLayer)) :
    (hwc_prepare env hwc_dev list).1.last_int_ovls = hwc_dev.last_int_ovls ∧
      (hwc_prepare env hwc_dev list).1.last_ext_ovls = hwc_dev.last_ext_ovls := by
  obtain ⟨n, tail, hint⟩ := setup_overlays_placed env (begin_frame hwc_dev list).1
    (begin_frame hwc_dev list).2 h.fb_format
  change InternalFrame _ _ n tail (internal_frame env hwc_dev list) at hint
  have hprep : (hwc_prepare env hwc_dev list).1 =
      finish_setup (transform_primary (clone_for_external env (internal_frame env hwc_dev list))) :=
    rfl
  rw [hprep]
  obtain ⟨c, hext, -, -⟩ := clone_for_external_fits h env hint
  have hf : (internal_frame env hwc_dev list).hwc_dev.last_int_ovls = hwc_dev.last_int_ovls ∧
      (internal_frame env hwc_dev list).hwc_dev.last_ext_ovls = hwc_dev.last_ext_ovls :=
    ⟨hint.follows.last_int_ovls, hint.follows.last_ext_ovls⟩
  obtain ⟨hi, he⟩ := finish_setup_last
    (transform_primary (clone_for_external env (internal_frame env hwc_dev list)))
  obtain ⟨hi', he'⟩ := transform_primary_last
    (clone_for_external env (internal_frame env hwc_dev list))
  obtain ⟨hi'', he''⟩ := hext.last
  exact ⟨hi.trans (hi'.trans (hi''.trans hf.1)), he.trans (he'.trans (he''.trans hf.2))⟩

theorem kept_prepare (h : Kept s) (env : PrepareEnv) (list : Option (List HwcLayer)) :
    Kept (s.step (.prepare env list)) := by
  obtain ⟨hsteady, hcommitted, -⟩ := h
  obtain ⟨n, c, tail, hout, -, -⟩ := hwc_prepare_outcome hsteady env list
  obtain ⟨hint, hext⟩ := hwc_prepare_last hsteady env list
  refine ⟨hout.steady, ?_, hout.uses⟩
  show s.committed.Uses (hwc_prepare env s.dev list).1.last_int_ovls
    (hwc_prepare env s.dev list).1.last_ext_ovls
  rw [hint, hext]
  exact hcommitted

/-- `hwc_set` records the counts of what it posts. -/
theorem kept_set (h : Kept s) (env : SetEnv) (hcareful : Careful s (.set env)) :
    Kept (s.step (.set env)) := by
  have hsteady : (hwc_set env s.dev).1.Steady := hwc_set_steady h.steady env
  have hstep : s.step (.set env) =
      ⟨(hwc_set env s.dev).1, (hwc_set env s.dev).2.getD s.committed⟩ := rfl
  rw [hstep]
  rw [hwc_set] at hsteady ⊢
  obtain ⟨-, hcommitted, hprepared⟩ := h
  by_cases hreach : reaches_post2 env s.dev
  · rw [if_pos hreach] at hsteady ⊢
    obtain ⟨huses, hp2, hovls⟩ := @fix_up_buffers_uses { s.dev with
      force_sgx := if s.dev.force_sgx > 0 then s.dev.force_sgx - 1 else s.dev.force_sgx } _ _
      hprepared
    refine ⟨hsteady, ?_, ?_⟩
    · show SetupDispcData.Uses _ ((fix_up_buffers _).post2_layers : Int) (fix_up_buffers _).ext_ovls
      rw [hp2, hovls]
      cases hpost : env.posts with
      | true => exact huses
      | false =>
        obtain ⟨hi, he⟩ := hcareful (.inr ⟨hreach, hpost⟩)
        exact hcommitted.mono (Int.ofNat_le.mpr hi) he
    · show (fix_up_buffers _).dsscomp.Uses ((fix_up_buffers _).post2_layers : Int)
        (fix_up_buffers _).ext_ovls
      rw [hp2, hovls]
      exact huses
  · rw [if_neg hreach] at hsteady ⊢
    cases hshow : env.shows with
    | true =>
      rw [hshow, if_pos rfl] at hsteady
      exact ⟨hsteady, hcommitted, hprepared⟩
    | false =>
      rw [hshow, if_neg Bool.false_ne_true] at hsteady
      obtain ⟨hi, he⟩ := hcareful (.inl hshow)
      exact ⟨hsteady, hcommitted.mono (Int.ofNat_le.mpr hi) he, hprepared⟩

theorem handle_hotplug_keeps (env : HotplugEnv) (hwc_dev : HwcDevice) :
    (handle_hotplug env hwc_dev).dsscomp = hwc_dev.dsscomp ∧
      (handle_hotplug env hwc_dev).post2_layers = hwc_dev.post2_layers ∧
      (handle_hotplug env hwc_dev).ext_ovls = hwc_dev.ext_ovls ∧
      (handle_hotplug env hwc_dev).last_int_ovls = hwc_dev.last_int_ovls ∧
      (handle_hotplug env hwc_dev).last_ext_ovls = hwc_dev.last_ext_ovls := by
  rw [handle_hotplug]
  split
  · split
    · exact ⟨rfl, rfl, rfl, rfl, rfl⟩
    · exact ⟨rfl, rfl, rfl, rfl, rfl⟩
  · split
    · exact ⟨rfl, rfl, rfl, rfl, rfl⟩
    · exact ⟨rfl, rfl, rfl, rfl, rfl⟩

theorem kept_hotplug (h : Kept s) (env : HotplugEnv) (ext : OmapHwcExt)
    (hsteady : (handle_hotplug env { s.dev with ext := ext }).Steady) :
    Kept { s with dev := handle_hotplug env { s.dev with ext := ext } } := by
  obtain ⟨hd, hp, ho, hi, he⟩ := handle_hotplug_keeps env { s.dev with ext := ext }
  refine ⟨hsteady, ?_, ?_⟩
  · show s.committed.Uses (handle_hotplug env _).last_int_ovls (handle_hotplug env _).last_ext_ovls
    rw [hi, he]
    exact h.committed
  · show (handle_hotplug env _).dsscomp.Uses ((handle_hotplug env _).post2_layers : Int)
      (handle_hotplug env _).ext_ovls
    rw [hd, hp, ho]
    exact h.prepared

/-- Every careful call keeps the counts. -/
theorem kept_step (h : Kept s) (e : Event) (hcareful : Careful s e) : Kept (s.step e) := by
  have hsteady := step_steady h.steady e
  cases e with
  | idleCall => exact h
  | prepare env list => exact kept_prepare h env list
  | set env => exact kept_set h env hcareful
  | dockSwitch state env => exact kept_hotplug h env _ hsteady
  | hdmiSwitch state env => exact kept_hotplug h env _ hsteady
  | timeout =>
    have hstep : s.step .timeout = { s with dev := idle_timeout s.dev } := rfl
    rw [hstep] at hsteady ⊢
    rw [idle_timeout] at hsteady ⊢
    split
    · rw [if_pos ‹_›] at hsteady
      exact ⟨hsteady, h.committed, h.prepared⟩
    · exact h

/-- In every run on an opened device whose calls are careful, every frame fits beside the one that
was taken before it, and no pipe goes from one display to the other. -/
theorem hands_over {hwc_dev : HwcDevice} (h : hwc_dev.Opened) (events : List Event)
    (hcareful : Along Session.step Careful (.start hwc_dev) events) :
    Along Session.step HandsOverIn (.start hwc_dev) events := by
  refine hcareful.mono_invariant (kept_start h) (fun s e hs hok => ?_) fun s e hs hok =>
    kept_step hs e hok
  cases e with
  | prepare env list => exact handsOver_of_careful hs.steady hs.committed hok
  | idleCall | set | dockSwitch | hdmiSwitch | timeout => trivial

/-- A frame is shown, an external display is plugged in, and two layers are mirrored. -/
theorem hands_over_sample : Along Session.step HandsOverIn (.start sampleDevice)
    [.prepare sampleAnswers (some [scaledLayer 100 0]), .set ⟨true, true, true⟩,
      .hdmiSwitch true sampleHotplug,
      .prepare sampleAnswers (some [scaledLayer 100 0, scaledLayer 200 20])] := by
  refine hands_over sampleDevice_opened _ ⟨⟨?_, ?_⟩, ?_, trivial, ⟨?_, ?_⟩, trivial⟩
  · exact fun _ k hk => absurd hk (not_lt_zero k)
  · exact fun k hk => absurd hk (not_lt_zero k)
  · rintro (hshow | ⟨-, hpost⟩)
    · cases hshow
    · cases hpost
  · exact fun _ => by decide
  · -- the overlay on the screen uses the second pipe
    have hpipes : ∀ k < 1, ((((Session.start sampleDevice).run
        [.prepare sampleAnswers (some [scaledLayer 100 0]),
          .set ⟨true, true, true⟩]).committed.ovls k).cfg.ix : Int) = 1 := by decide
    intro k hk _
    have hix := hpipes k hk
    exact ⟨fun _ hc => absurd (hix.symm.trans hc) (by decide),
      fun _ hc => absurd (hix.symm.trans hc) (by decide)⟩

/-- Three layers are shown, then mirrored; the first mirrored frame is not taken. -/
def lostPost : List Event :=
  let list := some [scaledLayer 100 0, scaledLayer 200 10, scaledLayer 300 20]
  [.prepare sampleAnswers list, .set ⟨true, true, true⟩, .hdmiSwitch true sampleHotplug,
    .prepare sampleAnswers list, .set ⟨true, true, false⟩, .prepare sampleAnswers list]

/-- The next frame has two external overlays, where three internal ones are on the screen. -/
theorem lost_post_not_handed_over :
    ¬Along Session.step HandsOverIn (.start sampleDevice) lostPost := by
  rintro ⟨-, -, -, -, -, hlast, -⟩
  exact absurd hlast.external (by decide)

end OmapHal.Hwc
