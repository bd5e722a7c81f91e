import OmapHal.Core.Run
import OmapHal.Hwc.Prepare

/-!
# What the counts say

The statistics are counts of valid layers, and the overlays that each display may use
follow from them in one of three ways.
-/

namespace OmapHal.Hwc

open OmapHal.Core List

variable {hwc_dev : HwcDevice} {layers : List HwcLayer} {layer : HwcLayer} {handle : NativeHandle}

/-- How many valid layers of a list a test accepts. -/
def validCount (hwc_dev : HwcDevice) (q : HwcLayer → NativeHandle → Bool) (layers : List HwcLayer) :
    Nat :=
  layers.countP fun layer => (validBuffer? hwc_dev layer).any (q layer)

/-- The TILER bytes of the valid layers of a list, as a `uint32_t` sum. -/
def validMem (hwc_dev : HwcDevice) (layers : List HwcLayer) : Nat :=
  layers.foldl (fun mem layer => match validBuffer? hwc_dev layer with
    | some handle => u32 (mem + mem1d handle)
    | none => mem) 0

/-- The counts of a part of a list of `total` layers. -/
def tally (hwc_dev : HwcDevice) (total : Nat) (part : List HwcLayer) : Counts where
  possible_overlay_layers := validCount hwc_dev (fun _ _ => true) part
  composited_layers := total
  scaled_layers := validCount hwc_dev
    (fun l h => scaled l || is_NV12 h || hwc_dev.primary_transform) part
  RGB := validCount hwc_dev (fun _ h => !is_BGR h && is_RGB h) part
  BGR := validCount hwc_dev (fun _ h => is_BGR h) part
  NV12 := validCount hwc_dev (fun _ h => !is_BGR h && !is_RGB h && is_NV12 h) part
  dockable := validCount hwc_dev (fun _ h => dockable h) part
  protectedLayers := validCount hwc_dev (fun _ h => is_protected h) part
  max_hw_overlays := 0
  max_scaling_overlays := 0
  mem := validMem hwc_dev part

/-- Visiting a layer extends the tally by it. -/
theorem visit_tally (total : Nat) (part : List HwcLayer) (layer : HwcLayer) :
    (tally hwc_dev total part).visit hwc_dev layer = tally hwc_dev total (part ++ [layer]) := by
  unfold Counts.visit Counts.add tally validCount validMem
  simp only [countP_append, countP_singleton, foldl_append, foldl_cons,
    foldl_nil]
  cases validBuffer? hwc_dev layer with
  | none => rfl
  | some handle =>
    simp only [Option.any_some, Counts.mk.injEq, if_true, true_and, and_true]
    refine ⟨?_, ?_, ?_, ?_, ?_, ?_⟩ <;> split <;> rfl

theorem countLayers_eq (hwc_dev : HwcDevice) (layers : List HwcLayer) :
    countLayers hwc_dev layers = tally hwc_dev layers.length layers := by
  unfold countLayers
  refine foldl_consumed (P := fun done num => num = tally hwc_dev layers.length done) rfl ?_
  rintro done layer num rfl
  exact visit_tally layers.length done layer

/-! ### The overlays of each display -/

/-- What holds of a device between frames. -/
structure HwcDevice.Steady (hwc_dev : HwcDevice) : Prop where
  fb_format : is_valid_format hwc_dev.fb_format = true
  mirror_docking : hwc_dev.ext.mirror.docking = false
  dock_docking : hwc_dev.ext.dock.enabled = true → hwc_dev.ext.dock.docking = true
  tv : hwc_dev.on_tv = true → hwc_dev.ext.mirror.enabled = false ∧ hwc_dev.ext.dock.enabled = false
  last_ext : 0 ≤ hwc_dev.last_ext_ovls ∧ hwc_dev.last_ext_ovls ≤ 2
  last_int : 0 ≤ hwc_dev.last_int_ovls ∧ hwc_dev.last_int_ovls ≤ 4
  ext_ovls : 0 ≤ hwc_dev.ext_ovls ∧ hwc_dev.ext_ovls ≤ 2
  post2_layers : hwc_dev.post2_layers ≤ 4

/-- A device that agrees with a steady one in what the frames before have left. -/
theorem HwcDevice.Steady.congr {x : HwcDevice} (h : hwc_dev.Steady)
    (hformat : x.fb_format = hwc_dev.fb_format) (hmirror : x.ext.mirror = hwc_dev.ext.mirror)
    (hdock : x.ext.dock = hwc_dev.ext.dock) (htv : x.on_tv = hwc_dev.on_tv)
    (hext : x.last_ext_ovls = hwc_dev.last_ext_ovls)
    (hint : x.last_int_ovls = hwc_dev.last_int_ovls) (hovls : 0 ≤ x.ext_ovls ∧ x.ext_ovls ≤ 2)
    (hlayers : x.post2_layers ≤ 4) : x.Steady := by
  refine ⟨hformat ▸ h.fb_format, hmirror ▸ h.mirror_docking, hdock ▸ h.dock_docking, ?_,
    hext ▸ h.last_ext, hint ▸ h.last_int, hovls, hlayers⟩
  rw [hmirror, hdock, htv]
  exact h.tv

/-- The dock is to be used: a layer asks for it, or the user does. -/
def docks (hwc_dev : HwcDevice) : Bool :=
  hwc_dev.counts.dockable != 0 || hwc_dev.ext.force_dock

theorem chooseCloning_docking (hd : hwc_dev.ext.dock.enabled)
    (hm : hwc_dev.ext.mirror.enabled → docks hwc_dev) :
    chooseCloning hwc_dev =
      { ext_ovls := if docks hwc_dev then 1 else 0
        max_hw_overlays := u32 (4 - max (if docks hwc_dev then 1 else 0) hwc_dev.last_ext_ovls)
        nonscaling_ovls := 1
        current := if hwc_dev.ext.mirror.enabled then { hwc_dev.ext.mirror with docking := true }
          else hwc_dev.ext.dock } := by
  unfold chooseCloning docks
  refine if_pos ?_
  simp only [hd, Bool.true_and, Bool.not_eq_true', Bool.and_eq_false_iff, Bool.not_eq_false']
  cases he : hwc_dev.ext.mirror.enabled with
  | true => exact .inr (hm he)
  | false => exact .inl rfl

theorem chooseCloning_mirroring (hm : hwc_dev.ext.mirror.enabled)
    (hd : ¬(hwc_dev.ext.dock.enabled ∧ docks hwc_dev)) :
    chooseCloning hwc_dev = ⟨2, 2, 0, hwc_dev.ext.mirror⟩ := by
  unfold chooseCloning
  refine (if_neg ?_).trans (if_pos hm)
  unfold docks at hd
  simpa only [hm, Bool.true_and, Bool.not_not, Bool.and_eq_true] using hd

theorem chooseCloning_alone (hd : hwc_dev.ext.dock.enabled = false)
    (hm : hwc_dev.ext.mirror.enabled = false) :
    chooseCloning hwc_dev =
      { ext_ovls := 0
        max_hw_overlays := u32 (4 - hwc_dev.last_ext_ovls)
        nonscaling_ovls := 1
        current := { hwc_dev.ext.current with enabled := false } } := by
  unfold chooseCloning
  exact (if_neg (by simp [hd])).trans (if_neg (by simp [hm]))

/-- The overlays of the internal display before one is set aside for its transform. -/
def hwBase (hwc_dev : HwcDevice) : Nat :=
  let plan := chooseCloning hwc_dev
  let ext_ovls := min (MAX_HW_OVERLAYS - hwc_dev.last_int_ovls) plan.ext_ovls
  if hwc_dev.counts.protectedLayers = 0 ∧ ext_ovls ≠ 0 ∧ plan.current.enabled ∧
      ¬plan.current.docking then u32 ext_ovls
  else plan.max_hw_overlays

theorem decide_hw (h : 1 ≤ hwBase hwc_dev) (h' : hwBase hwc_dev ≤ 4) :
    ((decide_supported_cloning hwc_dev).counts.max_hw_overlays : Int) +
      hwc_dev.primary_transform.toNat = hwBase hwc_dev := by
  unfold decide_supported_cloning
  cases hwc_dev.primary_transform with
  | true =>
    show (u32 ((hwBase hwc_dev : Int) - 1) : Int) + 1 = hwBase hwc_dev
    rw [u32_of_range] <;> omega
  | false =>
    show (hwBase hwc_dev : Int) + 0 = hwBase hwc_dev
    omega

theorem decide_scaling (h : 1 ≤ hwBase hwc_dev) (h' : hwBase hwc_dev ≤ 4)
    (hn : (chooseCloning hwc_dev).nonscaling_ovls = 0 ∨
      (chooseCloning hwc_dev).nonscaling_ovls = 1) :
    ((decide_supported_cloning hwc_dev).counts.max_scaling_overlays : Int) +
      (if hwc_dev.primary_transform then 0 else (chooseCloning hwc_dev).nonscaling_ovls) =
      (decide_supported_cloning hwc_dev).counts.max_hw_overlays := by
  unfold decide_supported_cloning
  cases hwc_dev.primary_transform with
  | true =>
    show (u32 ((hwBase hwc_dev : Int) - 1) : Int) + 0 = u32 ((hwBase hwc_dev : Int) - 1)
    omega
  | false =>
    show (u32 ((hwBase hwc_dev : Int) - (chooseCloning hwc_dev).nonscaling_ovls) : Int) +
      (chooseCloning hwc_dev).nonscaling_ovls = hwBase hwc_dev
    rw [u32_of_range] <;> omega

theorem decide_scaling_one (h : 1 ≤ hwBase hwc_dev) (h' : hwBase hwc_dev ≤ 4)
    (hn : (chooseCloning hwc_dev).nonscaling_ovls = 1) :
    (decide_supported_cloning hwc_dev).counts.max_scaling_overlays + 1 =
      (decide_supported_cloning hwc_dev).counts.max_hw_overlays +
        hwc_dev.primary_transform.toNat := by
  have hs := decide_scaling h h' (.inr hn)
  rw [hn] at hs
  cases hp : hwc_dev.primary_transform with
  | true =>
    rw [hp, if_pos rfl] at hs
    rw [Bool.toNat_true]
    omega
  | false =>
    rw [hp, if_neg Bool.false_ne_true] at hs
    rw [Bool.toNat_false]
    omega

/-- The outcome `d'` of `decide_supported_cloning` on `d`. -/
inductive CloningCase (d d' : HwcDevice) : Prop
  | docking (current : d'.ext.current.docking = true)
      (wanted : d'.ext_ovls_wanted = 0 ∨ d'.ext_ovls_wanted = 1)
      (ovls : d'.ext_ovls = min (4 - d.last_int_ovls) d'.ext_ovls_wanted)
      (hw : (d'.counts.max_hw_overlays : Int) + d.primary_transform.toNat +
        max d'.ext_ovls_wanted d.last_ext_ovls = 4)
      (scaling : d'.counts.max_scaling_overlays + 1 =
        d'.counts.max_hw_overlays + d.primary_transform.toNat)
      (docked : d'.ext_ovls_wanted = 1 → d.ext.dock.enabled = true ∧ docks d = true)
  | mirroring (enabled : d.ext.mirror.enabled = true)
      (undocked : ¬(d.ext.dock.enabled = true ∧ docks d = true))
      (current : d'.ext.current = d.ext.mirror)
      (wanted : d'.ext_ovls_wanted = 2)
      (ovls : d'.ext_ovls = min (4 - d.last_int_ovls) 2)
      (hw : (d'.counts.max_hw_overlays : Int) + d.primary_transform.toNat =
        if d.counts.protectedLayers = 0 ∧ d'.ext_ovls ≠ 0 then d'.ext_ovls else 2)
      (scaling : d'.counts.max_scaling_overlays = d'.counts.max_hw_overlays)
  | alone (current : d'.ext.current.enabled = false)
      (wanted : d'.ext_ovls_wanted = 0)
      (ovls : d'.ext_ovls = 0)
      (hw : (d'.counts.max_hw_overlays : Int) + d.primary_transform.toNat + d.last_ext_ovls = 4)
      (scaling : d'.counts.max_scaling_overlays + 1 =
        d'.counts.max_hw_overlays + d.primary_transform.toNat)

theorem decide_cases (h : hwc_dev.Steady) :
    CloningCase hwc_dev (decide_supported_cloning hwc_dev) := by
  obtain ⟨-, hmd, hdd, -, he, hi, -, -⟩ := h
  by_cases hm : hwc_dev.ext.mirror.enabled ∧
      ¬(hwc_dev.ext.dock.enabled ∧ docks hwc_dev)
  · have hplan := chooseCloning_mirroring hm.1 hm.2
    have hbase : (hwBase hwc_dev : Int) =
        if hwc_dev.counts.protectedLayers = 0 ∧ min (4 - hwc_dev.last_int_ovls) 2 ≠ 0 then
          min (4 - hwc_dev.last_int_ovls) 2 else 2 := by
      unfold hwBase MAX_HW_OVERLAYS
      simp only [hplan, hm.1, hmd, and_true, Bool.false_eq_true, not_false_eq_true]
      split
      · rw [u32_of_range] <;> omega
      · rfl
    have hrange : 1 ≤ hwBase hwc_dev ∧ hwBase hwc_dev ≤ 4 := by
      split at hbase <;> omega
    have hovls : (decide_supported_cloning hwc_dev).ext_ovls = min
      (4 - hwc_dev.last_int_ovls) 2 := by
      show min (4 - hwc_dev.last_int_ovls) (chooseCloning hwc_dev).ext_ovls = _
      rw [hplan]
    refine .mirroring hm.1 hm.2 ?_ ?_ hovls ?_ ?_
    · exact congrArg CloningPlan.current hplan
    · exact congrArg CloningPlan.ext_ovls hplan
    · rw [decide_hw hrange.1 hrange.2, hovls]
      exact hbase
    · have hn : (chooseCloning hwc_dev).nonscaling_ovls = 0 :=
        congrArg CloningPlan.nonscaling_ovls hplan
      have hs := decide_scaling hrange.1 hrange.2 (.inl hn)
      rw [hn] at hs
      split at hs <;> omega
  · by_cases hd : hwc_dev.ext.dock.enabled
    · have hdocks : hwc_dev.ext.mirror.enabled → docks hwc_dev := by
        intro he
        by_contra hc
        exact hm ⟨he, fun h => hc h.2⟩
      have hplan := chooseCloning_docking hd hdocks
      have hdocking : (chooseCloning hwc_dev).current.docking := by
        rw [congrArg CloningPlan.current hplan]
        show (if hwc_dev.ext.mirror.enabled then { hwc_dev.ext.mirror with docking := true }
          else hwc_dev.ext.dock).docking
        split
        · rfl
        · exact hdd hd
      have hw : (chooseCloning hwc_dev).ext_ovls = 0 ∨ (chooseCloning hwc_dev).ext_ovls = 1 := by
        rw [hplan]
        split
        · exact .inr rfl
        · exact .inl rfl
      have hbase : (hwBase hwc_dev : Int) +
          max (chooseCloning hwc_dev).ext_ovls hwc_dev.last_ext_ovls = 4 := by
        unfold hwBase
        simp only [hdocking, not_true_eq_false, and_false, if_false]
        rw [hplan] at hw ⊢
        simp only at hw ⊢
        rw [u32_of_range] <;> omega
      have hrange : 1 ≤ hwBase hwc_dev ∧ hwBase hwc_dev ≤ 4 := by omega
      refine .docking hdocking hw rfl ?_ ?_ fun hone => ⟨hd, ?_⟩
      · rw [decide_hw hrange.1 hrange.2]
        exact hbase
      · exact decide_scaling_one hrange.1 hrange.2 (congrArg CloningPlan.nonscaling_ovls hplan)
      · have hwanted : (if docks hwc_dev then (1 : Int) else 0) = 1 :=
          (congrArg CloningPlan.ext_ovls hplan).symm.trans hone
        by_contra hno
        rw [if_neg hno] at hwanted
        cases hwanted
    · have hme : hwc_dev.ext.mirror.enabled = false := by
        by_contra hc
        exact hm ⟨by simpa using hc, fun h => hd h.1⟩
      have hplan := chooseCloning_alone (by simpa using hd) hme
      have hbase : (hwBase hwc_dev : Int) + hwc_dev.last_ext_ovls = 4 := by
        unfold hwBase
        simp only [hplan, Bool.false_eq_true, false_and, and_false, if_false]
        rw [u32_of_range] <;> omega
      have hrange : 1 ≤ hwBase hwc_dev ∧ hwBase hwc_dev ≤ 4 := by omega
      refine .alone ?_ ?_ ?_ ?_ ?_
      · exact congrArg (fun plan => plan.current.enabled) hplan
      · exact congrArg CloningPlan.ext_ovls hplan
      · show min (4 - hwc_dev.last_int_ovls) (chooseCloning hwc_dev).ext_ovls = 0
        rw [congrArg CloningPlan.ext_ovls hplan]
        show min (4 - hwc_dev.last_int_ovls) 0 = 0
        omega
      · rw [decide_hw hrange.1 hrange.2]
        exact hbase
      · exact decide_scaling_one hrange.1 hrange.2 (congrArg CloningPlan.nonscaling_ovls hplan)

end OmapHal.Hwc
