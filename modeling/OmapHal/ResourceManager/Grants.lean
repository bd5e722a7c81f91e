import OmapHal.ResourceManager.Model
import OmapHal.Core.Run

/-!
# Grants and the load window

`RM_GetQos`: memory and cycles are asked of the DSP, and the load is kept in a window of snapshots.
The answers of the bridge, of the QoS registry and of sysfs are parameters; `request->allocated`,
the frequency of the processor and the operating point are asked for and not looked at.
-/

namespace OmapHal.ResourceManager

open List Option

def RM_CPUAVGDEPTH : Nat := 5

/-- `RM_CPULoadStruct`. -/
structure CPULoadStruct where
  averageCpuLoad : Int
  cyclesInUse : BitVec 32
  cyclesAvailable : BitVec 32
  snapshotsCaptured : Nat
  cpuLoadSnapshots : List (BitVec 32)
  deriving DecidableEq, Repr

namespace CPULoadStruct

/-- The state when the loop of `main` is entered. -/
def start : CPULoadStruct := ⟨0, 0, 0, 0, List.replicate RM_CPUAVGDEPTH 0⟩

/-- The loop over the array that stands under "initialize array". -/
def clear (cpuStruct : CPULoadStruct) : CPULoadStruct :=
  { cpuStruct with cpuLoadSnapshots := List.replicate RM_CPUAVGDEPTH 0 }

/-- The next slot of the array, or the last one after a shift. -/
def insert (cpuStruct : CPULoadStruct) (currentOverallUtilization : BitVec 32) : CPULoadStruct :=
  if cpuStruct.snapshotsCaptured < RM_CPUAVGDEPTH then
    { cpuStruct with
      cpuLoadSnapshots :=
        cpuStruct.cpuLoadSnapshots.set cpuStruct.snapshotsCaptured currentOverallUtilization
      snapshotsCaptured := cpuStruct.snapshotsCaptured + 1 }
  else
    { cpuStruct with
      cpuLoadSnapshots := cpuStruct.cpuLoadSnapshots.tail ++ [currentOverallUtilization] }

/-- A sample of the load, with the average and the cycles that are left. -/
def capture (cpuStruct : CPULoadStruct) (dsp_max_freq currentOverallUtilization : BitVec 32) :
    CPULoadStruct :=
  let cpuStruct := cpuStruct.insert currentOverallUtilization
  let sum := (cpuStruct.cpuLoadSnapshots.take cpuStruct.snapshotsCaptured).sum
  { cpuStruct with
    averageCpuLoad := sum.toInt.tdiv cpuStruct.snapshotsCaptured
    cyclesInUse := currentOverallUtilization
    cyclesAvailable := dsp_max_freq - currentOverallUtilization }

end CPULoadStruct

/-- What there is on the DSP while a response is handled. -/
structure Dsp where
  /-- The size of the heap `KAllHeaps`, and its largest free block. -/
  heapSize : BitVec 32
  largestfree : BitVec 32
  currentLoad : BitVec 32
  maxFreq : BitVec 32
  deriving DecidableEq, Repr

/-- How the calls of `RM_GetQos` end. -/
structure QosCalls where
  dsp : Dsp
  initializeFails : Bool
  /-- The registry has the heap `KAllHeaps`. -/
  heapFound : Bool
  usedHeapFails : Bool
  largestFreeFails : Bool
  procLoadFails : Bool
  /-- What the registry tells as the load, `none` without memory for its results. -/
  registryLoad : Option (BitVec 32)

/-- `get_omap_version` is not `OMAP_NOT_SUPPORTED`: the frequency is the highest one of a family. -/
def omapSupported (dsp_max_freq : BitVec 32) : Bool :=
  dsp_max_freq = 360 ∨ dsp_max_freq = 430 ∨ dsp_max_freq = 520 ∨ dsp_max_freq = 800

/-- `memoryAvailable`, `none` where the request is denied at once. -/
def memoryAvailable (cmd_data : CommandData) (calls : QosCalls) : Option Bool :=
  if cmd_data.param3 > 0 then
    if calls.usedHeapFails || calls.largestFreeFails then none
    -- the size of the heap, not of its largest free block
    else some (calls.dsp.heapSize.toNat > (cmd_data.param3 + 4) % 2 ^ 32)
  else some true

/-- `currentOverallUtilization`, `none` where the request is denied at once. -/
def QosCalls.load (calls : QosCalls) : Option (BitVec 32) :=
  if calls.procLoadFails then calls.registryLoad else some calls.dsp.currentLoad

/-- What `RM_GetQos` leaves: its answer, whether it is `QOS_OK`, the stub mode, the window of the
load, and the sample that it took. -/
structure Decision where
  ok : Bool
  stub_mode : Bool
  cpuStruct : CPULoadStruct
  sample : Option (BitVec 32)

def RM_GetQos (stub_mode : Bool) (cmd_data : CommandData) (cpuStruct : CPULoadStruct)
    (calls : QosCalls) : Decision :=
  if stub_mode || calls.initializeFails then ⟨true, true, cpuStruct, none⟩
  else if !calls.heapFound then ⟨false, false, cpuStruct, none⟩
  else
    match memoryAvailable cmd_data calls with
    | none => ⟨false, false, cpuStruct, none⟩
    | some memoryAvailable =>
      let cpuStruct := cpuStruct.clear
      if !omapSupported calls.dsp.maxFreq then ⟨false, false, cpuStruct, none⟩
      else
        match calls.load with
        | none => ⟨false, false, cpuStruct, none⟩
        | some load =>
          let cpuStruct := cpuStruct.capture calls.dsp.maxFreq load
          -- the cycles are an `int` and are compared with an unsigned number
          ⟨memoryAvailable && decide (cpuStruct.cyclesAvailable.toNat ≥ cmd_data.param2), false,
            cpuStruct, some load⟩

/-- The decisions are of a record of samples: the last ones, as many as the window has slots. -/
def window (samples : List (BitVec 32)) : List (BitVec 32) :=
  samples.drop (samples.length - RM_CPUAVGDEPTH)

/-- The mean of the last samples, as an `int`. -/
def meanLoad (samples : List (BitVec 32)) : Int :=
  ((window samples).map BitVec.toInt).sum.tdiv (window samples).length

theorem length_window (samples : List (BitVec 32)) :
    (window samples).length = min samples.length RM_CPUAVGDEPTH := by
  rw [window, length_drop]
  omega

/-!
## Grants and the load window

The loop of the resource manager with `RM_GetQos` in it: what a grant is worth, and what the average
of the load is the average of. A grant is of the request that `HandleRequestResource` saved, and it
is checked with the figures of the command that was read last.
-/

section Loop

open PolicyManager (PolicyResponse)
open OmapHal.Core (AlongSome)

/-- A grant: the request that was saved, as the component sent it, and the DSP at that time. -/
structure Grant where
  request : CommandData
  dsp : Dsp

/-- A free block of the memory, and the cycles, that were asked for. -/
def Grant.Fits (grant : Grant) : Prop :=
  grant.request.param3 ≤ grant.dsp.largestfree.toNat ∧
    grant.dsp.currentLoad.toNat + grant.request.param2 ≤ grant.dsp.maxFreq.toNat

/-- The resource manager with the window of its load, and what happened so far. -/
structure Manager where
  rm : Rm
  cpuStruct : CPULoadStruct
  /-- The command of the request that was saved last. -/
  request : CommandData
  samples : List (BitVec 32)
  grants : List Grant

/-- What a turn of the loop reads, with the answers of the DSP to it. -/
inductive Input where
  | command (cmd : CommandData) (opened : OpenedPipe)
  | response (r : PolicyResponse) (mmuRecoveryInProgress : Bool) (calls : QosCalls)

/-- The message that tells a component of its grant. -/
def Write.isGrant : Write → Bool
  | .toComponent _ _ _ data => data.rm_status = .RM_GRANT
  | _ => false

namespace Manager

def start (stub_mode : Bool) : Manager := ⟨Rm.start stub_mode, .start, .zero, [], []⟩

/-- `HandleRequestResource` saves a request. -/
def Saves (m : Manager) (cmd : CommandData) : Prop :=
  m.rm.Exitflag = false ∧ m.rm.stub_mode = false ∧ cmd.RM_Cmd = .RM_RequestResource

instance (m : Manager) (cmd : CommandData) : Decidable (m.Saves cmd) := inferInstanceAs
  (Decidable (_ ∧ _ ∧ _))

/-- A response is a grant of the policy manager about which `RM_GetQos` decides. -/
def Decides (m : Manager) (r : PolicyResponse) (mmuRecoveryInProgress : Bool) : Prop :=
  m.rm.Exitflag = false ∧ m.rm.stub_mode = false ∧ r.PM_Cmd = .PM_GRANTPOLICY ∧
    mmuRecoveryInProgress = false

instance (m : Manager) (r : PolicyResponse) (mmuRecoveryInProgress : Bool) :
    Decidable (m.Decides r mmuRecoveryInProgress) := inferInstanceAs (Decidable (_ ∧ _ ∧ _ ∧ _))

/-- The decision about the command that was read last. -/
def decision (m : Manager) (calls : QosCalls) : Decision :=
  RM_GetQos m.rm.stub_mode m.rm.cmd_data m.cpuStruct calls

/-- One turn of the loop; `none` for a write past the end of the component table. -/
def turn (m : Manager) : Input → Option Manager
  | .command cmd opened =>
    (ResourceManager.turn m.rm (.command cmd opened)).map fun (rm, _) =>
      { m with rm, request := if m.Saves cmd then cmd else m.request }
  | .response r mmuRecoveryInProgress calls =>
    if m.Decides r mmuRecoveryInProgress then
      let decision := m.decision calls
      (ResourceManager.turn m.rm (.response r ⟨false, decision.ok, decision.stub_mode⟩)).map
        fun (rm, out) =>
          { m with
            rm
            cpuStruct := decision.cpuStruct
            samples := m.samples ++ decision.sample.toList
            grants := m.grants ++ if out.any Write.isGrant then [⟨m.request, calls.dsp⟩] else [] }
    else
      (ResourceManager.turn m.rm (.response r ⟨mmuRecoveryInProgress, false, false⟩)).map
        fun (rm, _) => { m with rm }

/-- Every grant was of what there was, and the average is that of the last samples. -/
def Sound (m : Manager) : Prop :=
  (∀ grant ∈ m.grants, grant.Fits) ∧ m.cpuStruct.averageCpuLoad = meanLoad m.samples

/-- What a decision needs to be right about the saved request. -/
structure Informed (m : Manager) (calls : QosCalls) : Prop where
  /-- No fallback to the stub mode, which grants everything. -/
  initializes : calls.initializeFails = false
  /-- The command that was read last asks for what the saved request asks for. -/
  cycles : m.rm.cmd_data.param2 = m.request.param2
  memory : m.rm.cmd_data.param3 = m.request.param3
  /-- A heap that is larger than the request has a free block for it. -/
  unfragmented : (m.request.param3 + 4) % 2 ^ 32 < calls.dsp.heapSize.toNat →
    m.request.param3 ≤ calls.dsp.largestfree.toNat
  /-- The load is that of the DSP, which is not above its frequency. -/
  load : ∀ load, calls.load = some load → load = calls.dsp.currentLoad
  fits : calls.dsp.currentLoad.toNat ≤ calls.dsp.maxFreq.toNat
  /-- The snapshots that are zeroed were zero. -/
  idle : ∀ sample ∈ m.samples.drop (m.samples.length + 1 - RM_CPUAVGDEPTH), sample = 0

/-- The condition of a turn: a decision is an informed one. -/
def Careful (m : Manager) : Input → Prop
  | .command _ _ => True
  | .response r mmuRecoveryInProgress calls => m.Decides r mmuRecoveryInProgress → m.Informed calls

end Manager

/-! ### The window -/

/-- After the array is cleared it holds the new sample alone. -/
theorem sum_capture (cpuStruct : CPULoadStruct) (h : cpuStruct.snapshotsCaptured ≤ RM_CPUAVGDEPTH)
    (load : BitVec 32) :
    (((cpuStruct.clear.insert load).cpuLoadSnapshots.take
      (cpuStruct.clear.insert load).snapshotsCaptured).sum = load) ∧
    (cpuStruct.clear.insert load).snapshotsCaptured =
      min (cpuStruct.snapshotsCaptured + 1) RM_CPUAVGDEPTH := by
  obtain ⟨average, inUse, available, captured, snapshots⟩ := cpuStruct
  simp only [RM_CPUAVGDEPTH] at h
  interval_cases captured <;> simp [CPULoadStruct.clear, CPULoadStruct.insert, RM_CPUAVGDEPTH,
    replicate]

theorem capture_average (cpuStruct : CPULoadStruct)
    (h : cpuStruct.snapshotsCaptured ≤ RM_CPUAVGDEPTH) (maxFreq load : BitVec 32) :
    (cpuStruct.clear.capture maxFreq load).averageCpuLoad =
        load.toInt.tdiv (min (cpuStruct.snapshotsCaptured + 1) RM_CPUAVGDEPTH : Nat) ∧
      (cpuStruct.clear.capture maxFreq load).snapshotsCaptured =
        min (cpuStruct.snapshotsCaptured + 1) RM_CPUAVGDEPTH := by
  obtain ⟨hsum, hcaptured⟩ := sum_capture cpuStruct h load
  refine ⟨?_, hcaptured⟩
  simp only [CPULoadStruct.capture]
  rw [hsum, hcaptured]

/-- The mean where the other samples of the window are zero. -/
theorem meanLoad_concat {samples : List (BitVec 32)} (load : BitVec 32)
    (h : ∀ sample ∈ samples.drop (samples.length + 1 - RM_CPUAVGDEPTH), sample = 0) :
    meanLoad (samples ++ [load]) =
      load.toInt.tdiv (min (samples.length + 1) RM_CPUAVGDEPTH : Nat) := by
  have hlen : (samples ++ [load]).length = samples.length + 1 := length_append
  have hwindow : window (samples ++ [load]) =
      samples.drop (samples.length + 1 - RM_CPUAVGDEPTH) ++ [load] := by
    rw [window, hlen]
    refine drop_append_of_le_length ?_
    simp only [RM_CPUAVGDEPTH]
    omega
  have hzero : ((samples.drop (samples.length + 1 - RM_CPUAVGDEPTH)).map BitVec.toInt).sum = 0 := by
    refine sum_eq_zero ?_
    intro x hx
    obtain ⟨sample, hmem, rfl⟩ := mem_map.mp hx
    rw [h sample hmem]
    exact BitVec.toInt_zero
  rw [meanLoad, length_window, hlen, hwindow, map_append, sum_append, hzero, zero_add,
    map_singleton, sum_singleton]

/-! ### A turn of the loop -/

/-- `RM_GetQos` without stub mode, once the DSP is reached. -/
structure Decision.Checked (decision : Decision) (cmd_data : CommandData)
    (cpuStruct : CPULoadStruct)
    (calls : QosCalls) : Prop where
  ok : decision.ok = true → cmd_data.param3 = 0 ∨
    (cmd_data.param3 + 4) % 2 ^ 32 < calls.dsp.heapSize.toNat
  cycles : decision.ok = true → ∃ load, calls.load = some load ∧
    cmd_data.param2 ≤ (calls.dsp.maxFreq - load).toNat
  window : (decision.sample = none ∧ decision.cpuStruct.averageCpuLoad = cpuStruct.averageCpuLoad ∧
      decision.cpuStruct.snapshotsCaptured = cpuStruct.snapshotsCaptured) ∨
    ∃ load, decision.sample = some load ∧
      decision.cpuStruct = cpuStruct.clear.capture calls.dsp.maxFreq load

theorem memoryAvailable_eq_some {cmd_data : CommandData} {calls : QosCalls}
    (h : memoryAvailable cmd_data calls = some true) : cmd_data.param3 = 0 ∨
      (cmd_data.param3 + 4) % 2 ^ 32 < calls.dsp.heapSize.toNat := by
  unfold memoryAvailable at h
  split at h
  · split at h
    · cases h
    · exact .inr (of_decide_eq_true (some.inj h))
  next hpos => exact .inl (Nat.eq_zero_of_not_pos hpos)

theorem RM_GetQos_checked (cmd_data : CommandData) (cpuStruct : CPULoadStruct) {calls : QosCalls}
    (h : calls.initializeFails = false) :
    (RM_GetQos false cmd_data cpuStruct calls).Checked cmd_data cpuStruct calls := by
  unfold RM_GetQos
  rw [h, Bool.or_self, if_neg Bool.false_ne_true]
  split
  · exact ⟨by simp, by simp, .inl ⟨rfl, rfl, rfl⟩⟩
  · split
    · exact ⟨by simp, by simp, .inl ⟨rfl, rfl, rfl⟩⟩
    next available havailable =>
      split
      · exact ⟨by simp, by simp, .inl ⟨rfl, rfl, rfl⟩⟩
      · split
        · exact ⟨by simp, by simp, .inl ⟨rfl, rfl, rfl⟩⟩
        next load hload =>
          refine ⟨fun hok => ?_, fun hok => ?_, .inr ⟨load, rfl, rfl⟩⟩
          · obtain ⟨htrue, -⟩ := (Bool.and_eq_true _ _).mp hok
            exact memoryAvailable_eq_some (htrue ▸ havailable)
          · obtain ⟨-, hcycles⟩ := (Bool.and_eq_true _ _).mp hok
            exact ⟨load, hload, of_decide_eq_true hcycles⟩

/-- A policy grant is passed on exactly if `RM_GetQos` answers so. -/
theorem response_isGrant {s : Rm} {r : PolicyResponse} (hr : r.PM_Cmd = .PM_GRANTPOLICY)
    (ok fails : Bool) : (response s r ⟨false, ok, fails⟩).2.any Write.isGrant = ok := by
  cases ok <;> simp [response, hr, Write.isGrant, Rm.answerSaved, Rm.writeTo]

namespace Manager

variable {m : Manager}

/-- As many snapshots were captured as the window has of the samples. -/
def Captured (m : Manager) : Prop :=
  m.cpuStruct.snapshotsCaptured = min m.samples.length RM_CPUAVGDEPTH

theorem turn_sound {m' : Manager} {input : Input} (hcaptured : m.Captured) (hsound : m.Sound)
    (hcareful : m.Careful input) (hturn : m.turn input = some m') : m'.Captured ∧ m'.Sound := by
  cases input with
  | command cmd opened =>
    obtain ⟨⟨rm, out⟩, -, rfl⟩ := map_eq_some_iff.mp hturn
    exact ⟨hcaptured, hsound⟩
  | response r mmu calls =>
    rw [turn] at hturn
    split at hturn
    next hdecides =>
      have hinformed := hcareful hdecides
      obtain ⟨hexit, hstub, hr, rfl⟩ := hdecides
      obtain ⟨⟨rm, out⟩, hout, rfl⟩ := map_eq_some_iff.mp hturn
      have hchecked : (m.decision calls).Checked m.rm.cmd_data m.cpuStruct calls := by
        rw [decision, hstub]
        exact RM_GetQos_checked _ _ hinformed.initializes
      have hgrant : out.any Write.isGrant = (m.decision calls).ok := by
        simp only [ResourceManager.turn, hexit, hstub, Bool.false_eq_true, if_false,
          some.injEq] at hout
        have hresponse := response_isGrant (s := m.rm) hr (m.decision calls).ok
          (m.decision calls).stub_mode
        rw [hout] at hresponse
        exact hresponse
      have hgrants : ∀ grant ∈ m.grants ++
          (if out.any Write.isGrant then [⟨m.request, calls.dsp⟩] else []), Grant.Fits grant := by
        intro grant hmem
        rcases mem_append.mp hmem with hmem | hmem
        · exact hsound.1 grant hmem
        · split at hmem
          next hok =>
            obtain rfl := mem_singleton.mp hmem
            rw [hgrant] at hok
            constructor
            · rcases hchecked.ok hok with hzero | hsize
              · rw [hinformed.memory] at hzero
                exact hzero ▸ Nat.zero_le _
              · exact hinformed.unfragmented (hinformed.memory ▸ hsize)
            · obtain ⟨load, hload, hcycles⟩ := hchecked.cycles hok
              have hfits := hinformed.fits
              rw [hinformed.load load hload, hinformed.cycles,
                BitVec.toNat_sub_of_le (BitVec.le_def.mpr hfits)] at hcycles
              dsimp only
              omega
          next => exact absurd hmem (not_mem_nil)
      rcases hchecked.window with ⟨hsample, haverage, hcount⟩ | ⟨load, hsample, hcpu⟩
      · refine ⟨?_, hgrants, ?_⟩
        · simpa only [Captured, hsample, toList_none, append_nil, hcount] using hcaptured
        · simpa only [hsample, toList_none, append_nil, haverage] using hsound.2
      · have hle : m.cpuStruct.snapshotsCaptured ≤ RM_CPUAVGDEPTH :=
          hcaptured.trans_le (Nat.min_le_right _ _)
        obtain ⟨haverage, hcount⟩ := capture_average m.cpuStruct hle calls.dsp.maxFreq load
        have hmin : min (m.cpuStruct.snapshotsCaptured + 1) RM_CPUAVGDEPTH =
            min (m.samples.length + 1) RM_CPUAVGDEPTH := by
          rw [hcaptured]
          omega
        rw [hmin] at haverage hcount
        refine ⟨?_, hgrants, ?_⟩
        · simp only [Captured, hsample, hcpu, hcount, toList_some, length_append,
            length_singleton]
        · simp only [hsample, hcpu, haverage, toList_some]
          exact (meanLoad_concat load hinformed.idle).symm
    next =>
      obtain ⟨⟨rm, out⟩, -, rfl⟩ := map_eq_some_iff.mp hturn
      exact ⟨hcaptured, hsound⟩

end Manager

/-- A run in which every decision is an informed one grants what there is, and the average of the
load is the mean of its last samples all the time. -/
theorem informed_grants_sound {stub_mode : Bool} {inputs done : List Input} {m : Manager}
    (hcareful : AlongSome Manager.turn Manager.Careful (Manager.start stub_mode) inputs)
    (hdone : done <+: inputs) (hm : done.foldlM Manager.turn (Manager.start stub_mode) = some m) :
    m.Sound := by
  have hstart : (Manager.start stub_mode).Captured ∧ (Manager.start stub_mode).Sound :=
    ⟨rfl, fun _ hmem => absurd hmem not_mem_nil, (by decide : (0 : Int) = meanLoad [])⟩
  have hend : m.Captured ∧ m.Sound := hcareful.invariant hstart
    (fun _ _ _ h hinformed hturn => Manager.turn_sound h.1 h.2 hinformed hturn) hdone hm
  exact hend.2

/-- The answers of a DSP that is reached, in a system with one heap of 4096 bytes. -/
def reached (largestfree currentLoad : BitVec 32) : QosCalls :=
  ⟨⟨4096, largestfree, currentLoad, 430⟩, false, true, false, false, false, none⟩

/-- A component asks for 100 cycles and 1000 bytes and gets the policy's grant. -/
def requested (largestfree : BitVec 32) : List Input :=
  [.command ⟨1, 10, .RM_OpenPipe, 0, 0, 0, 0, .RM_ErrorNone⟩ (some 3),
    .command ⟨1, 10, .RM_RequestResource, 0, 100, 1000, 0, .RM_ErrorNone⟩ none,
    .response ⟨1, 10, .PM_GRANTPOLICY⟩ false (reached largestfree 60)]

/-- A decision about a request of the kind above where there is room for it. -/
theorem informed_of_reached {m : Manager} {currentLoad : BitVec 32}
    (hcycles : m.rm.cmd_data.param2 = m.request.param2)
    (hmemory : m.rm.cmd_data.param3 = m.request.param3) (hsize : m.request.param3 = 1000)
    (hload : currentLoad.toNat ≤ 430) (hidle : ∀ sample ∈ m.samples, sample = 0) :
    m.Informed (reached 2048 currentLoad) where
  initializes := rfl
  cycles := hcycles
  memory := hmemory
  unfragmented _ := hsize.trans_le (by decide : 1000 ≤ (2048 : BitVec 32).toNat)
  load _ h := (some.inj h).symm
  fits := hload
  idle sample hmem := hidle sample (mem_of_mem_drop hmem)

/-- Two components get grants, the first one of an idle DSP. -/
def requestedTwice : List Input :=
  [.command ⟨2, 20, .RM_OpenPipe, 0, 0, 0, 0, .RM_ErrorNone⟩ (some 4),
    .command ⟨2, 20, .RM_RequestResource, 0, 200, 1000, 0, .RM_ErrorNone⟩ none,
    .response ⟨2, 20, .PM_GRANTPOLICY⟩ false (reached 2048 0)] ++ requested 2048

theorem requested_sound : ∃ m, requestedTwice.foldlM Manager.turn (.start false) = some m ∧
    m.grants.length = 2 ∧ m.cpuStruct.averageCpuLoad = 30 ∧ m.Sound := by
  have hend : (requestedTwice.foldlM Manager.turn (.start false)).map
      (fun m => (m.grants.length, m.cpuStruct.averageCpuLoad)) = some (2, 30) := by decide
  obtain ⟨m, hm, hfigures⟩ := map_eq_some_iff.mp hend
  obtain ⟨hgrants, haverage⟩ := Prod.mk.inj hfigures
  refine ⟨m, hm, hgrants, haverage, informed_grants_sound ?_ prefix_rfl hm⟩
  refine .cons trivial rfl (.cons trivial rfl (.cons ?_ rfl (.cons trivial rfl ?_)))
  · exact fun _ => informed_of_reached rfl rfl rfl (by decide) fun _ hmem => absurd hmem not_mem_nil
  refine .cons trivial rfl ⟨fun _ => ?_, fun _ _ => trivial⟩
  exact informed_of_reached rfl rfl rfl (by decide) fun _ hmem => mem_singleton.mp hmem

/-- In a heap of small blocks the same request is granted all the same. -/
theorem fragmented_granted : ¬ ∀ (inputs : List Input) (m : Manager),
    inputs.foldlM Manager.turn (.start false) = some m → m.Sound := by
  intro h
  have hsound := h (requested 512) _ rfl
  exact absurd (hsound.1 _ mem_cons_self).1 (by decide)

end Loop

end OmapHal.ResourceManager
