import Mathlib.Data.BitVec
import Mathlib.Data.List.Basic
import Mathlib.Tactic.Cases

/-!
# Availability of memory

`QOS_Memory_IsAvailable` and the handlers of memory resources in `QOSResource.c`, and the answer of
the registry to `QOS_FN_HasAvailableResource`. Resources of other types are left out: a request for
memory compares the type before anything else.
-/

namespace OmapHal.Qos

open List

/-- The types `QOSDataType_Memory_*`, each with its own handler. -/
inductive MemoryType where
  | DynLoad
  | DynAlloc
  | Scratch
  deriving DecidableEq, Repr

/-- `QOSRESOURCE_MEMORY`. -/
structure MemoryResource where
  Id : MemoryType
  align : BitVec 32
  heapId : BitVec 32
  size : BitVec 32
  type : BitVec 32
  allocated : BitVec 32
  largestfree : BitVec 32
  group : BitVec 32

/-- What the DSP tells of its heaps, where it answers. -/
structure Dsp where
  /-- The size of a heap and how much of it is in use. -/
  usedHeapSize : BitVec 32 → Option (BitVec 32 × BitVec 32)
  largestFreeBlock : BitVec 32 → Option (BitVec 32)
  /-- The size and the heap of the scratch memory of a type and a group. -/
  sharedScratch : BitVec 32 → BitVec 32 → Option (BitVec 32 × BitVec 32)
  /-- The size, the free memory and the largest free block of a heap for dynamic loading. -/
  dynLoaderMemStat : BitVec 32 → Option (BitVec 32 × BitVec 32 × BitVec 32)

def KAllHeaps : BitVec 32 := 0x100

def EDynloadSram : BitVec 32 := 3

def ESharedScratchSaram : BitVec 32 := 2

/-- `QOS_FN_ResourceUpdateInfo` of a memory resource. What is not answered stays as it was. -/
def MemoryResource.updateInfo (dsp : Dsp) (r : MemoryResource) : MemoryResource :=
  match r.Id with
  | .DynAlloc =>
    if r.heapId ≤ KAllHeaps then
      let r := match dsp.usedHeapSize r.heapId with
        | some (size, allocated) => { r with size, allocated }
        | none => r
      match dsp.largestFreeBlock r.heapId with
      | some largestfree => { r with largestfree }
      | none => r
    else r
  | .DynLoad =>
    if r.heapId ≤ EDynloadSram then
      match dsp.dynLoaderMemStat r.heapId with
      | some (size, free, largestfree) => { r with size, allocated := size - free, largestfree }
      | none => r
    else r
  | .Scratch =>
    if r.type ≤ ESharedScratchSaram then
      match dsp.sharedScratch r.type r.group with
      | some (size, heapId) => { r with size, heapId }
      | none => r
    else r

variable (dsp : Dsp)

/-- The answer, and the resource of the registry, which is brought up to date. -/
def QOS_Memory_IsAvailable (request data : MemoryResource) : Bool × MemoryResource :=
  if data.Id = request.Id then
    let resource := data.updateInfo dsp
    (resource.heapId = request.heapId ∧ resource.size > request.align + request.size, resource)
  else (false, data)

/-- `QOS_FN_ResourceIsAvailable` of a request. Scratch memory is of a group. -/
def MemoryResource.isAvailable (request data : MemoryResource) : Bool × MemoryResource :=
  match request.Id with
  | .Scratch =>
    if data.Id = request.Id ∧ data.group = request.group then
      QOS_Memory_IsAvailable dsp request data
    else (false, data)
  | .DynAlloc | .DynLoad => QOS_Memory_IsAvailable dsp request data

/-- The loop over the registry's resources. -/
def searchHeaps (request : MemoryResource) :
    List MemoryResource → Bool × List MemoryResource
  | [] => (false, [])
  | data :: heaps =>
    let (found, data) := request.isAvailable dsp data
    if found then (true, data :: heaps)
    else
      let (found, heaps) := searchHeaps request heaps
      (found, data :: heaps)

/-- `QOS_FN_HasAvailableResource` for the resource list of a component, and with a list of one for
a single resource. -/
def HasAvailableResource : List MemoryResource → List MemoryResource → Bool × List MemoryResource
  | [], heaps => (true, heaps)
  | request :: requests, heaps =>
    let (status, heaps) := searchHeaps dsp request heaps
    if status then HasAvailableResource requests heaps else (false, heaps)

/-! ### What is asked for and what there is -/

namespace MemoryResource

/-- A heap is of the kind that is requested. -/
def Matches (heap request : MemoryResource) : Prop :=
  heap.Id = request.Id ∧ (request.Id = .Scratch → heap.group = request.group) ∧
    heap.heapId = request.heapId

/-- The bytes that are needed for a block at any place. -/
def demand (request : MemoryResource) : Nat := request.align.toNat + request.size.toNat

def free (heap : MemoryResource) : Nat := heap.size.toNat - heap.allocated.toNat

end MemoryResource

/-- All requested blocks can be allocated together: each from a heap of its kind with a free block
that holds it, and no heap is asked for more than it has free. -/
def Allocatable (heaps requests : List MemoryResource) : Prop :=
  ∃ heapOf : Nat → Nat,
    (∀ i request, requests[i]? = some request → ∃ heap, heaps[heapOf i]? = some heap ∧
      heap.Matches request ∧ request.demand ≤ heap.largestfree.toNat) ∧
    ∀ j heap, heaps[j]? = some heap →
      ((requests.zipIdx.filter fun r => heapOf r.2 = j).map fun r => r.1.demand).sum ≤ heap.free

/-- The answer yes is sound for these heaps, as the DSP has them, and these requests. -/
def SoundFor (heaps requests : List MemoryResource) : Prop :=
  (HasAvailableResource dsp requests heaps).1 = true →
    Allocatable (heaps.map (MemoryResource.updateInfo dsp)) requests

/-- No heap of its kind is larger, in all, than the request is in arithmetic on 32 bits. -/
def TooLarge (heaps : List MemoryResource) (request : MemoryResource) : Prop :=
  ∀ heap ∈ heaps, heap.Matches request → heap.size ≤ request.align + request.size

/-! ### The answer -/

variable {dsp}

/-- Bringing a resource up to date twice is the same as once, and changes neither its type nor its
group. -/
theorem updateInfo_spec (dsp : Dsp) (r : MemoryResource) :
    (r.updateInfo dsp).updateInfo dsp = r.updateInfo dsp ∧ (r.updateInfo dsp).Id = r.Id ∧
      (r.updateInfo dsp).group = r.group := by
  obtain ⟨Id, align, heapId, size, type, allocated, largestfree, group⟩ := r
  cases Id with
  | DynLoad =>
    by_cases hid : heapId ≤ EDynloadSram
    · cases hstat : dsp.dynLoaderMemStat heapId <;>
        simp [MemoryResource.updateInfo, hid, hstat]
    · simp [MemoryResource.updateInfo, hid]
  | DynAlloc =>
    by_cases hid : heapId ≤ KAllHeaps
    · cases hused : dsp.usedHeapSize heapId <;> cases hlargest : dsp.largestFreeBlock heapId <;>
        simp [MemoryResource.updateInfo, hid, hused, hlargest]
    · simp [MemoryResource.updateInfo, hid]
  | Scratch =>
    by_cases htype : type ≤ ESharedScratchSaram
    · cases hscratch : dsp.sharedScratch type group <;>
        simp [MemoryResource.updateInfo, htype, hscratch]
    · simp [MemoryResource.updateInfo, htype]

/-- A heap, as the DSP has it, is larger in all than the request. -/
def Accepts (heap request : MemoryResource) : Prop :=
  heap.Matches request ∧ heap.size > request.align + request.size

/-- One resource is asked. It is brought up to date, or left as it was. -/
theorem isAvailable_spec (dsp : Dsp) (request data : MemoryResource) :
    ((request.isAvailable dsp data).1 ↔ Accepts (data.updateInfo dsp) request) ∧
      (request.isAvailable dsp data).2.updateInfo dsp = data.updateInfo dsp := by
  obtain ⟨hidem, hId, hgroup⟩ := updateInfo_spec dsp data
  have hmemory : (request.Id = .Scratch → data.group = request.group) →
      ((QOS_Memory_IsAvailable dsp request data).1 ↔ Accepts (data.updateInfo dsp) request) ∧
      (QOS_Memory_IsAvailable dsp request data).2.updateInfo dsp = data.updateInfo dsp := by
    intro hscratch
    rw [QOS_Memory_IsAvailable]
    by_cases hsame : data.Id = request.Id
    · rw [if_pos hsame]
      refine ⟨?_, hidem⟩
      rw [decide_eq_true_eq, Accepts, MemoryResource.Matches, hId, hgroup]
      exact ⟨fun h => ⟨⟨hsame, hscratch, h.1⟩, h.2⟩, fun h => ⟨h.1.2.2, h.2⟩⟩
    · rw [if_neg hsame]
      refine ⟨iff_of_false Bool.false_ne_true fun h => hsame ?_, rfl⟩
      rw [← hId]
      exact h.1.1
  rw [MemoryResource.isAvailable]
  cases hrequest : request.Id with
  | DynLoad => exact hmemory fun h => nomatch hrequest.symm.trans h
  | DynAlloc => exact hmemory fun h => nomatch hrequest.symm.trans h
  | Scratch =>
    by_cases hboth : data.Id = .Scratch ∧ data.group = request.group
    · rw [if_pos hboth]
      exact hmemory fun _ => hboth.2
    · rw [if_neg hboth]
      refine ⟨iff_of_false Bool.false_ne_true fun h => hboth ?_, rfl⟩
      rw [← hId, ← hgroup, ← hrequest]
      exact ⟨h.1.1, h.1.2.1 hrequest⟩

theorem searchHeaps_spec (dsp : Dsp) (request : MemoryResource) (heaps : List MemoryResource) :
    ((searchHeaps dsp request heaps).1 ↔
        ∃ heap ∈ heaps.map (MemoryResource.updateInfo dsp), Accepts heap request) ∧
      (searchHeaps dsp request heaps).2.map (MemoryResource.updateInfo dsp) =
        heaps.map (MemoryResource.updateInfo dsp) := by
  induction heaps with
  | nil => exact ⟨iff_of_false Bool.false_ne_true (by simp), rfl⟩
  | cons data heaps ih =>
    obtain ⟨hanswer, hupdated⟩ := isAvailable_spec dsp request data
    rw [searchHeaps]
    cases hr : request.isAvailable dsp data with
    | mk found data' =>
    rw [hr] at hanswer hupdated
    dsimp only at hanswer hupdated ⊢
    rw [map_cons, exists_mem_cons_iff, ← hanswer]
    cases found with
    | true =>
      rw [if_pos rfl, map_cons, hupdated]
      exact ⟨iff_of_true rfl (.inl rfl), rfl⟩
    | false =>
      rw [if_neg Bool.false_ne_true]
      dsimp only
      rw [map_cons, hupdated, ih.2]
      exact ⟨ih.1.trans (or_iff_right Bool.false_ne_true).symm, rfl⟩

theorem HasAvailableResource_iff (requests heaps : List MemoryResource) :
    (HasAvailableResource dsp requests heaps).1 ↔
      ∀ request ∈ requests, ∃ heap ∈ heaps.map (MemoryResource.updateInfo dsp),
        Accepts heap request := by
  induction requests generalizing heaps with
  | nil => exact iff_of_true rfl fun request h => (nomatch h)
  | cons request requests ih =>
    obtain ⟨hanswer, hupdated⟩ := searchHeaps_spec dsp request heaps
    rw [HasAvailableResource, forall_mem_cons, ← hanswer]
    cases hr : searchHeaps dsp request heaps with
    | mk found heaps' =>
    rw [hr] at hupdated
    dsimp only at hupdated ⊢
    cases found with
    | true =>
      rw [if_pos rfl, ih, hupdated]
      exact (and_iff_right rfl).symm
    | false =>
      rw [if_neg Bool.false_ne_true]
      exact iff_of_false Bool.false_ne_true fun h => Bool.false_ne_true h.1

/-! ### Soundness -/

/-- The answer is sound exactly when a request is too large for all heaps of its kind in their total
size, or the blocks can be allocated. -/
theorem soundFor_iff (heaps requests : List MemoryResource) :
    SoundFor dsp heaps requests ↔
      (∃ request ∈ requests, TooLarge (heaps.map (MemoryResource.updateInfo dsp)) request) ∨
        Allocatable (heaps.map (MemoryResource.updateInfo dsp)) requests := by
  rw [SoundFor, HasAvailableResource_iff, imp_iff_not_or]
  refine or_congr_left ?_
  simp only [Accepts, TooLarge, not_forall, not_exists, not_and, BitVec.not_lt, gt_iff_lt,
    exists_prop]

/-- A request whose alignment and size are no more than 0 together in 32 bits. -/
def MemoryResource.wrapping (heap : MemoryResource) : MemoryResource :=
  { heap with align := BitVec.allOnes 32, size := 1 }

/-- The answers are sound for all requests only where no heap has any memory at all. -/
theorem soundFor_all_iff (heaps : List MemoryResource) :
    (∀ requests, SoundFor dsp heaps requests) ↔
      ∀ heap ∈ heaps.map (MemoryResource.updateInfo dsp), heap.size = 0 := by
  constructor
  · intro hall heap hheap
    by_contra hsize
    have hyes : (HasAvailableResource dsp [heap.wrapping] heaps).1 := by
      rw [HasAvailableResource_iff]
      intro request hrequest
      obtain rfl := mem_singleton.1 hrequest
      have hwrap : BitVec.allOnes 32 + 1 = (0 : BitVec 32) := by decide
      refine ⟨heap, hheap, ⟨rfl, fun _ => rfl, rfl⟩, ?_⟩
      rw [MemoryResource.wrapping, hwrap]
      exact (BitVec.pos_iff_ne_zero heap.size).2 hsize
    obtain ⟨heapOf, hfits, -⟩ := hall [heap.wrapping] hyes
    obtain ⟨heap', -, -, hdemand⟩ := hfits 0 heap.wrapping rfl
    have hlargest := heap'.largestfree.isLt
    have hneed : heap.wrapping.demand = 2 ^ 32 := by
      have hone : (1 : BitVec 32).toNat = 1 := rfl
      rw [MemoryResource.demand, MemoryResource.wrapping, BitVec.toNat_allOnes, hone]
      omega
    omega
  · intro hzero requests hyes
    rw [HasAvailableResource_iff] at hyes
    cases requests with
    | nil => exact ⟨fun _ => 0, fun _ _ h => (nomatch h), fun _ _ _ => Nat.zero_le _⟩
    | cons request requests =>
      obtain ⟨heap, hheap, -, hsize⟩ := hyes request mem_cons_self
      rw [hzero heap hheap] at hsize
      exact absurd hsize BitVec.not_lt_zero

/-- For given heaps and requests the answer is sound exactly when a request is too large for all
heaps of its kind in their total size, or the blocks can be allocated; and for given heaps it is
sound for all requests exactly when they have no memory. -/
theorem availability_sound_iff (dsp : Dsp) (heaps : List MemoryResource) :
    (∀ requests, SoundFor dsp heaps requests ↔
      (∃ request ∈ requests, TooLarge (heaps.map (MemoryResource.updateInfo dsp)) request) ∨
        Allocatable (heaps.map (MemoryResource.updateInfo dsp)) requests) ∧
    ((∀ requests, SoundFor dsp heaps requests) ↔
      ∀ heap ∈ heaps.map (MemoryResource.updateInfo dsp), heap.size = 0) :=
  ⟨soundFor_iff heaps, soundFor_all_iff heaps⟩

/-- A DSP that does not answer. -/
def silentDsp : Dsp := ⟨fun _ => none, fun _ => none, fun _ _ => none, fun _ => none⟩

/-- A heap of 100 bytes, all of them in use. -/
def fullHeap : MemoryResource := ⟨.DynAlloc, 0, 0, 100, 0, 100, 0, 0⟩

/-- A request for 50 bytes. -/
def fiftyBytes : MemoryResource := ⟨.DynAlloc, 0, 0, 50, 0, 0, 0, 0⟩

theorem fullHeap_unsound : ¬ SoundFor silentDsp [fullHeap] [fiftyBytes] := by
  intro h
  obtain ⟨heapOf, hfits, -⟩ := h (by decide)
  obtain ⟨heap, hheap, -, hdemand⟩ := hfits 0 fiftyBytes rfl
  obtain rfl := mem_singleton.1 (mem_of_getElem? hheap)
  exact absurd hdemand (by decide)

end OmapHal.Qos
