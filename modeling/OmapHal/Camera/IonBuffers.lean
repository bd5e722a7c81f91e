import OmapHal.Core.KeyedVector
import OmapHal.Core.Run

/-!
# The buffers of the memory manager

`MemoryManager::allocateBuffer` and `freeBuffer` over the functions of `ion.c`. What the process
has of the system stands in a ledger. Giving back what is not in it, and asking a map for the value
of a key that it does not have, has no result.
-/

namespace OmapHal.Camera

open List Option

open OmapHal.Core (KeyedVector AlongSome)

/-- What the process has of the system. -/
inductive IonResource where
  | handle (handle : Nat)
  | descriptor (fd : Int)
  | mapping (ptr length : Nat)
  deriving DecidableEq

/-- How far one buffer gets: `ion_alloc` fails, the map request fails, `mmap` fails, or none. -/
inductive IonAnswer where
  | noAlloc
  | noMap (handle : Nat)
  | noMmap (handle mmap_fd : Nat)
  | mapped (handle mmap_fd ptr : Nat)
  deriving DecidableEq

structure MemoryManager where
  mIonFd : Int
  mIonHandleMap : KeyedVector Nat Nat
  mIonFdMap : KeyedVector Nat Nat
  mIonBufLength : KeyedVector Nat Nat
  /-- What the process has. -/
  ledger : Multiset IonResource
  /-- The arrays that were returned and not freed: their addresses and entries. -/
  arrays : KeyedVector Nat (List Nat)

/-- The address `mmap` returns on failure. -/
def MAP_FAILED : Nat := 2 ^ 32 - 1

namespace MemoryManager

def initial : MemoryManager := ⟨0, .empty, .empty, .empty, 0, .empty⟩

def obtain (s : MemoryManager) (r : IonResource) : MemoryManager :=
  { s with ledger := r ::ₘ s.ledger }

def release (s : MemoryManager) (r : IonResource) : Option MemoryManager :=
  if r ∈ s.ledger then some { s with ledger := s.ledger.erase r } else none

/-- The three maps have a new buffer. -/
def record (s : MemoryManager) (ptr handle mmap_fd bytes : Nat) : MemoryManager :=
  { s with
    mIonHandleMap := s.mIonHandleMap.add ptr handle
    mIonFdMap := s.mIonFdMap.add ptr mmap_fd
    mIonBufLength := s.mIonBufLength.add ptr bytes }

def forget (s : MemoryManager) (ptr : Nat) : MemoryManager :=
  { s with
    mIonHandleMap := s.mIonHandleMap.removeItem ptr
    mIonBufLength := s.mIonBufLength.removeItem ptr
    mIonFdMap := s.mIonFdMap.removeItem ptr }

/-- The loop of `allocateBuffer`: the state, the array from this buffer on, and if all went well. -/
def allocateLoop (bytes : Nat) : List IonAnswer → MemoryManager → MemoryManager × List Nat × Bool
  | [], s => (s, [0], true)
  | .noAlloc :: rest, s => (s, List.replicate (rest.length + 2) 0, false)
  | .noMap handle :: rest, s =>
    let s := s.obtain (.handle handle)
    ({ s with ledger := s.ledger.erase (.handle handle) }, List.replicate (rest.length + 2) 0,
      false)
  | .noMmap handle mmap_fd :: rest, s =>
    let s := (s.obtain (.handle handle)).obtain (.descriptor mmap_fd)
    ({ s with ledger := s.ledger.erase (.handle handle) },
      MAP_FAILED :: List.replicate (rest.length + 1) 0, false)
  | .mapped handle mmap_fd ptr :: rest, s =>
    let s := ((s.obtain (.handle handle)).obtain (.descriptor mmap_fd)).obtain (.mapping ptr bytes)
    let r := allocateLoop bytes rest (s.record ptr handle mmap_fd bytes)
    (r.1, ptr :: r.2.1, r.2.2)

/-- The loop of `freeBuffer`; it ends at an entry that is zero. -/
def freeLoop : List Nat → MemoryManager → Option MemoryManager
  | [], _ => none
  | ptr :: bufEntry, s =>
    if ptr = 0 then some s
    else do
      let length ← s.mIonBufLength.valueFor ptr
      if length ≠ 0 then
        let t ← s.release (.mapping ptr length)
        let t ← t.release (.descriptor (← t.mIonFdMap.valueFor ptr))
        let t ← t.release (.handle (← t.mIonHandleMap.valueFor ptr))
        freeLoop bufEntry (t.forget ptr)
      else freeLoop bufEntry s

/-- `freeBuffer` on the entries of an array. -/
def freeEntries (s : MemoryManager) (bufEntry : List Nat) : Option MemoryManager := do
  let s ← freeLoop bufEntry s
  if s.mIonBufLength.size = 0 ∧ s.mIonFd ≠ 0 then
    let s ← if s.mIonFd < 0 then some s else s.release (.descriptor s.mIonFd)
    some { s with mIonFd := 0 }
  else some s

def freeBuffer (s : MemoryManager) (buf : Nat) : Option MemoryManager :=
  if buf = 0 then some s
  else do
    let s ← s.freeEntries (← s.arrays.valueFor buf)
    some { s with arrays := s.arrays.removeItem buf }

/-- The device is opened, if it is not open; `fd` is what `ion_open` returns. -/
def openDevice (s : MemoryManager) (fd : Int) : MemoryManager :=
  if s.mIonFd = 0 then
    { s with
      mIonFd := fd
      ledger := if fd < 0 then s.ledger else .descriptor fd ::ₘ s.ledger }
  else s

/-- `allocateBuffer` for as many buffers as there are answers; `bufsArr` is the address of the
array. -/
def allocateBuffer (s : MemoryManager) (bytes : Nat) (fd : Int) (bufsArr : Nat)
    (answers : List IonAnswer) : Option MemoryManager :=
  let opened := s.openDevice fd
  if opened.mIonFd = 0 then some opened
  else if bytes ≠ 0 then
    let r := allocateLoop bytes answers opened
    if r.2.2 then some { r.1 with arrays := r.1.arrays.add bufsArr r.2.1 }
    else r.1.freeEntries r.2.1
  else some { opened with
    arrays := opened.arrays.add bufsArr (List.replicate (answers.length + 1) 0) }

/-! ### What stands in the maps -/

variable {s t : MemoryManager} {d : Multiset IonResource} {ptr handle mmap_fd bytes n : Nat}
  {bufs keys : List Nat} {answers : List IonAnswer}

/-- What the maps say the process has. -/
def recorded (s : MemoryManager) : Multiset IonResource :=
  (s.mIonBufLength.entries.map fun e => .mapping e.1 e.2 : List IonResource) +
    (s.mIonFdMap.entries.map fun e => .descriptor e.2 : List IonResource) +
    (s.mIonHandleMap.entries.map fun e => .handle e.2 : List IonResource)

/-- The process has `d` and what the maps say, and the maps agree on the buffers. -/
structure Kept (s : MemoryManager) (d : Multiset IonResource) : Prop where
  ledger : s.ledger = d + s.recorded
  handle : ∀ ptr, (s.mIonHandleMap.valueFor ptr).isSome = (s.mIonBufLength.valueFor ptr).isSome
  fd : ∀ ptr, (s.mIonFdMap.valueFor ptr).isSome = (s.mIonBufLength.valueFor ptr).isSome
  length : ∀ ptr n, s.mIonBufLength.valueFor ptr = some n → n ≠ 0

/-- The descriptor of the device, where it is open. -/
def device (s : MemoryManager) : Multiset IonResource :=
  if 0 < s.mIonFd then {.descriptor s.mIonFd} else 0

/-- A new buffer is recorded. -/
theorem Kept.record (h : s.Kept d) (handle mmap_fd : Nat)
    (hnew : s.mIonBufLength.valueFor ptr = none)
    (hbytes : bytes ≠ 0) :
    (((((s.obtain (.handle handle)).obtain (.descriptor mmap_fd)).obtain
      (.mapping ptr bytes)).record
      ptr handle mmap_fd bytes)).Kept d := by
  have hfd : s.mIonFdMap.valueFor ptr = none := by simpa [hnew] using h.fd ptr
  have hhandle : s.mIonHandleMap.valueFor ptr = none := by simpa [hnew] using h.handle ptr
  refine ⟨?_, fun p => ?_, fun p => ?_, fun p n hp => ?_⟩
  · have hlengths :=
      (KeyedVector.perm_add (x := bytes) hnew).map fun e => IonResource.mapping e.1 e.2
    have hfds := (KeyedVector.perm_add (x := mmap_fd) hfd).map fun e => IonResource.descriptor e.2
    have hhandles :=
      (KeyedVector.perm_add (x := handle) hhandle).map fun e => IonResource.handle e.2
    simp only [obtain, MemoryManager.record, recorded, h.ledger, Multiset.coe_eq_coe.mpr hlengths,
      Multiset.coe_eq_coe.mpr hfds, Multiset.coe_eq_coe.mpr hhandles, map_cons,
      ← Multiset.cons_coe, ← Multiset.singleton_add]
    abel
  · simp only [MemoryManager.record, obtain, KeyedVector.valueFor_add]
    split
    · rfl
    · exact h.handle p
  · simp only [MemoryManager.record, obtain, KeyedVector.valueFor_add]
    split
    · rfl
    · exact h.fd p
  · simp only [MemoryManager.record, obtain, KeyedVector.valueFor_add] at hp
    split at hp
    · exact some.inj hp ▸ hbytes
    · exact h.length p n hp

/-- What a recorded buffer has can be given back, and is then no longer recorded. -/
theorem Kept.forget (h : s.Kept d) (hlength : s.mIonBufLength.valueFor ptr = some n) :
    ∃ mmap_fd handle, s.mIonFdMap.valueFor ptr = some mmap_fd ∧
      s.mIonHandleMap.valueFor ptr = some handle ∧
      s.ledger = .mapping ptr n ::ₘ .descriptor mmap_fd ::ₘ .handle handle ::ₘ
        (d + (s.forget ptr).recorded) ∧
      ∀ ledger, ledger = d + (s.forget ptr).recorded →
        ({ s.forget ptr with ledger := ledger } : MemoryManager).Kept d := by
  obtain ⟨f, hf⟩ := isSome_iff_exists.mp ((h.fd ptr).trans (by rw [hlength]; rfl))
  obtain ⟨c, hc⟩ := isSome_iff_exists.mp ((h.handle ptr).trans (by rw [hlength]; rfl))
  refine ⟨f, c, hf, hc, ?_, fun ledger hledger => ⟨hledger, fun p => ?_, fun p => ?_,
    fun p n hp => ?_⟩⟩
  · have hlengths := (KeyedVector.perm_removeItem hlength).map fun e => IonResource.mapping e.1 e.2
    have hfds := (KeyedVector.perm_removeItem hf).map fun e => IonResource.descriptor e.2
    have hhandles := (KeyedVector.perm_removeItem hc).map fun e => IonResource.handle e.2
    simp only [MemoryManager.forget, recorded, h.ledger, Multiset.coe_eq_coe.mpr hlengths,
      Multiset.coe_eq_coe.mpr hfds, Multiset.coe_eq_coe.mpr hhandles, map_cons,
      ← Multiset.cons_coe, ← Multiset.singleton_add]
    abel
  · simp only [MemoryManager.forget, KeyedVector.valueFor_removeItem]
    split
    · rfl
    · exact h.handle p
  · simp only [MemoryManager.forget, KeyedVector.valueFor_removeItem]
    split
    · rfl
    · exact h.fd p
  · simp only [MemoryManager.forget, KeyedVector.valueFor_removeItem] at hp
    split at hp
    · cases hp
    · exact h.length p n hp

/-- The loop of `freeBuffer` gives back what the buffers of the array have, and nothing else. -/
theorem Kept.freeLoop (h : s.Kept d) (hkeys : (bufs ++ keys).Perm s.mIonBufLength.keys)
    (hbufs : 0 ∉ bufs) (behind : List Nat) :
    ∃ t, MemoryManager.freeLoop (bufs ++ 0 :: behind) s = some t ∧ t.Kept d ∧
      keys.Perm t.mIonBufLength.keys ∧ t.mIonFd = s.mIonFd ∧ t.arrays = s.arrays := by
  induction bufs generalizing s with
  | nil => exact ⟨s, by simp [MemoryManager.freeLoop], h, hkeys, rfl, rfl⟩
  | cons ptr bufs ih =>
    have hmem : ptr ∈ s.mIonBufLength.keys := hkeys.subset (by simp)
    obtain ⟨n, hn⟩ := ne_none_iff_exists'.mp (KeyedVector.mem_keys.mp hmem)
    obtain ⟨f, c, hf, hc, hledger, hkept⟩ := h.forget hn
    have hrest : (bufs ++ keys).Perm (s.mIonBufLength.removeItem ptr).keys :=
      (hkeys.trans ((KeyedVector.perm_removeItem hn).map Prod.fst)).cons_inv
    obtain ⟨t, ht, hrun⟩ := ih (hkept _ rfl) hrest (fun h0 => hbufs (by simp [h0]))
    refine ⟨t, ?_, hrun⟩
    rw [← ht]
    have hptr : ptr ≠ 0 := fun h0 => hbufs (by simp [h0])
    simp [MemoryManager.freeLoop, hptr, hn, h.length ptr n hn, release, hledger, hf, hc]
    rfl

/-- The addresses that `mmap` returns. -/
def addresses (answers : List IonAnswer) : List Nat :=
  answers.filterMap fun
    | .mapped _ _ ptr => some ptr
    | _ => none

/-- The loop of `allocateBuffer` fills the array with recorded buffers as far as it gets. -/
theorem Kept.allocateLoop (h : s.Kept d) (hbytes : bytes ≠ 0)
    (hmmap : ∀ handle mmap_fd, .noMmap handle mmap_fd ∉ answers)
    (hdistinct : (addresses answers).Nodup)
    (hnew : ∀ ptr ∈ addresses answers, ptr ≠ 0 ∧ s.mIonBufLength.valueFor ptr = none) :
    ∃ t bufs behind ok, MemoryManager.allocateLoop bytes answers s =
        (t, bufs ++ 0 :: List.replicate behind 0, ok) ∧
      t.Kept d ∧ (bufs ++ s.mIonBufLength.keys).Perm t.mIonBufLength.keys ∧ 0 ∉ bufs ∧
      t.mIonFd = s.mIonFd ∧ t.arrays = s.arrays ∧
      (ok → bufs.length = answers.length ∧ behind = 0) := by
  induction answers generalizing s with
  | nil => exact ⟨s, [], 0, true, rfl, h, .refl _, by simp, rfl, rfl, by simp⟩
  | cons answer rest ih =>
    cases answer with
    | noAlloc =>
      exact ⟨s, [], rest.length + 1, false, rfl, h, .refl _, by simp, rfl, rfl, by simp⟩
    | noMap handle =>
      refine ⟨s, [], rest.length + 1, false, ?_, h, .refl _, by simp, rfl, rfl, by simp⟩
      simp [MemoryManager.allocateLoop, obtain, replicate_succ]
    | noMmap handle mmap_fd => exact absurd mem_cons_self (hmmap handle mmap_fd)
    | mapped handle mmap_fd ptr =>
      obtain ⟨hptr, hrest⟩ := nodup_cons.mp hdistinct
      obtain ⟨hzero, hnone⟩ := hnew ptr mem_cons_self
      have hrecorded := h.record handle mmap_fd hnone hbytes
      obtain ⟨t, bufs, behind, ok, hrun, hkept, hperm, hbufs, hfd, harrays, hok⟩ := ih hrecorded
        (fun c f hmem => hmmap c f (mem_cons_of_mem _ hmem)) hrest fun p hp => by
          refine ⟨(hnew p (mem_cons_of_mem _ hp)).1, ?_⟩
          have hne : p ≠ ptr := fun heq => hptr (heq ▸ hp)
          simp [MemoryManager.record, obtain, KeyedVector.valueFor_add, hne,
            (hnew p (mem_cons_of_mem _ hp)).2]
      refine ⟨t, ptr :: bufs, behind, ok, ?_, hkept, ?_, by simp [hbufs, hzero.symm], hfd, harrays,
        fun h => ?_⟩
      · simp [MemoryManager.allocateLoop, hrun]
      · have hadd := (KeyedVector.perm_add (x := bytes) hnone).map Prod.fst
        exact (perm_middle.symm.trans (hadd.symm.append_left bufs)).trans hperm
      · simp [hok h]

/-- `freeBuffer` on an array whose buffers are recorded; the device is closed with the last one. -/
theorem Kept.freeEntries (h : s.Kept s.device) (hkeys : (bufs ++ keys).Perm s.mIonBufLength.keys)
    (hbufs : 0 ∉ bufs) (behind : List Nat) :
    ∃ t, s.freeEntries (bufs ++ 0 :: behind) = some t ∧ t.Kept t.device ∧
      keys.Perm t.mIonBufLength.keys ∧ (keys = [] → t.mIonFd = 0) ∧
      (keys ≠ [] → t.mIonFd = s.mIonFd) ∧ t.arrays = s.arrays := by
  obtain ⟨t, ht, hkept, hperm, hsame, harrays⟩ := h.freeLoop hkeys hbufs behind
  have hsize : t.mIonBufLength.size = 0 ↔ keys = [] := by
    rw [← length_eq_zero_iff, hperm.length_eq]
    simp [KeyedVector.size, KeyedVector.keys]
  have hdevice : s.device = t.device := by rw [device, device, hsame]
  rw [hdevice] at hkept
  rw [MemoryManager.freeEntries, ht]
  by_cases hclose : keys = [] ∧ t.mIonFd ≠ 0
  · have hclosed : ∀ ledger, ledger = t.recorded →
        ({ t with ledger := ledger, mIonFd := 0 } : MemoryManager).Kept 0 := fun ledger hl =>
      ⟨by rw [zero_add]; exact hl, hkept.handle, hkept.fd, hkept.length⟩
    by_cases hneg : t.mIonFd < 0
    · refine ⟨{ t with mIonFd := 0 }, ?_, ?_, hperm, fun _ => rfl, fun h => absurd hclose.1 h,
        harrays⟩
      · simp [hsize.mpr hclose.1, hclose.2, hneg]
      · refine hclosed t.ledger ?_
        simpa [device, hneg.le.not_gt] using hkept.ledger
    · have hpos : 0 < t.mIonFd := by omega
      have hledger : t.ledger = .descriptor t.mIonFd ::ₘ t.recorded := by
        simpa [device, hpos] using hkept.ledger
      refine ⟨{ t with ledger := t.recorded, mIonFd := 0 }, ?_, hclosed _ rfl, hperm, fun _ => rfl,
        fun h => absurd hclose.1 h, harrays⟩
      simp [hsize.mpr hclose.1, hclose.2, hneg, release, hledger]
  · refine ⟨t, ?_, hkept, hperm, fun h => ?_, fun _ => hsame, harrays⟩
    · simp only [bind_eq_bind, bind_some, hsize, if_neg hclose]
    · by_contra hne
      exact hclose ⟨h, hne⟩

/-! ### Runs -/

/-- The buffers of the arrays that were returned and not freed. -/
def buffers (s : MemoryManager) : List Nat :=
  (s.arrays.entries.flatMap Prod.snd).filter (· ≠ 0)

/-- The process has what the maps say and, exactly while there are buffers, the device; the maps
hold exactly the buffers. -/
structure Balanced (s : MemoryManager) : Prop where
  kept : s.Kept s.device
  opened : 0 < s.mIonFd ↔ s.buffers ≠ []
  closed : 0 ≤ s.mIonFd
  keys : s.buffers.Perm s.mIonBufLength.keys
  arrays : ∀ e ∈ s.arrays.entries, ∃ bufs, e.2 = bufs ++ [0] ∧ 0 ∉ bufs

inductive Call where
  | allocateBuffer (bytes : Nat) (fd : Int) (bufsArr : Nat) (answers : List IonAnswer)
  | freeBuffer (buf : Nat)

def step (s : MemoryManager) : Call → Option MemoryManager
  | .allocateBuffer bytes fd bufsArr answers => s.allocateBuffer bytes fd bufsArr answers
  | .freeBuffer buf => s.freeBuffer buf

/-- What the system may answer, the addresses being new and nothing coming from a device that was
not opened, and what a caller may free. -/
def Possible (s : MemoryManager) : Call → Prop
  | .allocateBuffer _ fd bufsArr answers =>
    bufsArr ≠ 0 ∧ s.arrays.valueFor bufsArr = none ∧ (addresses answers).Nodup ∧
      (∀ ptr ∈ addresses answers, ptr ≠ 0 ∧ ∀ n, .mapping ptr n ∉ s.ledger) ∧
      (s.mIonFd = 0 → fd < 0 → ∀ answer ∈ answers.head?, answer = .noAlloc)
  | .freeBuffer buf => buf = 0 ∨ s.arrays.valueFor buf ≠ none

/-- At least one buffer of at least one byte is asked for, the device does not get descriptor 0, and
`mmap` succeeds. -/
def Careful : Call → Prop
  | .allocateBuffer bytes fd _ answers =>
    answers ≠ [] ∧ bytes ≠ 0 ∧ fd ≠ 0 ∧ ∀ handle mmap_fd, .noMmap handle mmap_fd ∉ answers
  | .freeBuffer _ => True

theorem Balanced.initial : initial.Balanced :=
  ⟨⟨rfl, fun _ => rfl, fun _ => rfl, fun _ _ h => nomatch h⟩, by decide, by decide, .refl _,
    fun _ h => nomatch h⟩

/-- A buffer that is recorded is mapped. -/
theorem Kept.mapping_mem (h : s.Kept d) (hn : s.mIonBufLength.valueFor ptr = some n) :
    .mapping ptr n ∈ s.ledger := by
  rw [h.ledger, recorded]
  simp [KeyedVector.mem_entries, hn]

/-- The buffers of one array beside the others. -/
theorem perm_buffers {l l' : List (Nat × List Nat)} (h : l.Perm ((ptr, bufs ++ [0]) :: l'))
    (hbufs : 0 ∉ bufs) : ((l.flatMap Prod.snd).filter (· ≠ 0)).Perm
      (bufs ++ (l'.flatMap Prod.snd).filter (· ≠ 0)) := by
  refine ((h.flatMap_right Prod.snd).filter (· ≠ 0)).trans (.of_eq ?_)
  have hall : bufs.filter (· ≠ 0) = bufs := filter_eq_self.mpr fun a ha => by
    simpa using fun h0 : a = 0 => hbufs (h0 ▸ ha)
  simpa [filter_append] using hall

theorem Balanced.openDevice (h : s.Balanced) {fd : Int} (hfd : fd ≠ 0) :
    (s.openDevice fd).Kept (s.openDevice fd).device ∧ (s.openDevice fd).mIonFd ≠ 0 ∧
      ((s.openDevice fd).mIonFd < 0 → s.mIonFd = 0 ∧ fd < 0) ∧
      ((s.openDevice fd).mIonFd ≠ s.mIonFd → s.buffers = []) ∧
      (s.openDevice fd).mIonBufLength = s.mIonBufLength ∧ (s.openDevice fd).arrays = s.arrays := by
  rw [MemoryManager.openDevice]
  by_cases hopen : s.mIonFd = 0
  · have hnone : s.buffers = [] := by
      have hshut := h.opened.not
      simpa [hopen] using hshut
    rw [if_pos hopen]
    refine ⟨⟨?_, h.kept.handle, h.kept.fd, h.kept.length⟩, hfd, fun hneg => ⟨hopen, hneg⟩,
      fun _ => hnone, rfl, rfl⟩
    have hledger : s.ledger = s.recorded := by simpa [device, hopen] using h.kept.ledger
    change (if fd < 0 then s.ledger else .descriptor fd ::ₘ s.ledger) =
      (if 0 < fd then {.descriptor fd} else 0) + s.recorded
    rcases lt_or_gt_of_ne hfd with hneg | hpos
    · simp [hledger, hneg, hneg.le.not_gt]
    · simp [hledger, hpos, hpos.le.not_gt]
  · rw [if_neg hopen]
    have hclosed := h.closed
    exact ⟨h.kept, hopen, fun hneg => absurd hneg (by omega), fun hne => absurd rfl hne, rfl, rfl⟩

theorem Balanced.allocateBuffer (h : s.Balanced) {fd : Int} {bufsArr : Nat}
    (hpossible : s.Possible (.allocateBuffer bytes fd bufsArr answers))
    (hcareful : Careful (.allocateBuffer bytes fd bufsArr answers)) :
    ∃ t, s.allocateBuffer bytes fd bufsArr answers = some t ∧ t.Balanced := by
  obtain ⟨-, harray, hdistinct, hnew, hshut⟩ := hpossible
  obtain ⟨hsome, hbytes, hfd, hmmap⟩ := hcareful
  obtain ⟨hopened, hnonzero, hneg, hother, hlengths, harrays⟩ := h.openDevice hfd
  rw [MemoryManager.allocateBuffer]
  generalize s.openDevice fd = o at *
  obtain ⟨t, bufs, behind, ok, hrun, hkept, hperm, hbufs, hsame, hsameArrays, hok⟩ :=
    hopened.allocateLoop hbytes hmmap hdistinct fun ptr hptr => by
      refine ⟨(hnew ptr hptr).1, eq_none_iff_forall_ne_some.mpr fun n hn => ?_⟩
      exact (hnew ptr hptr).2 n (h.kept.mapping_mem (hlengths ▸ hn))
  have hdevice : o.device = t.device := by rw [device, device, hsame]
  rw [hdevice] at hkept
  have hperm' : (bufs ++ s.buffers).Perm t.mIonBufLength.keys :=
    (h.keys.append_left bufs).trans (hlengths ▸ hperm)
  rw [if_neg hnonzero, if_pos hbytes, hrun]
  cases ok with
  | true =>
    obtain ⟨hcount, rfl⟩ := hok rfl
    have hpos : 0 < t.mIonFd := by
      refine lt_of_le_of_ne (not_lt.mp fun hlt => ?_) (hsame ▸ hnonzero.symm)
      obtain ⟨hzero, hshut'⟩ := hneg (hsame ▸ hlt)
      cases answers with
      | nil => exact hsome rfl
      | cons answer rest =>
        obtain rfl := hshut hzero hshut' answer rfl
        simp [MemoryManager.allocateLoop] at hrun
    rw [← hsameArrays.trans harrays] at harray
    have hadd := perm_buffers (KeyedVector.perm_add (x := bufs ++ [0]) harray) hbufs
    have hsameBuffers : t.buffers = s.buffers := by rw [buffers, buffers, hsameArrays, harrays]
    rw [← hsameBuffers] at hperm'
    refine ⟨_, rfl, { hkept with },
      iff_of_true hpos fun hnil => hsome ?_, hpos.le, hadd.trans hperm', fun e he => ?_⟩
    · have hlen := hadd.length_eq.symm.trans (congrArg length hnil)
      rw [length_append, hcount, length_nil] at hlen
      exact length_eq_zero_iff.mp (by omega)
    · rcases mem_cons.mp ((KeyedVector.perm_add harray).subset he) with rfl | he
      · exact ⟨bufs, rfl, hbufs⟩
      · rw [hsameArrays, harrays] at he
        exact h.arrays e he
  | false =>
    obtain ⟨u, hu, hukept, huperm, hnone, hsomeFd, huarrays⟩ :=
      hkept.freeEntries hperm' hbufs (replicate behind 0)
    have hsameBuffers : u.buffers = s.buffers := by
      rw [buffers, buffers, huarrays, hsameArrays, harrays]
    have hfd' : u.mIonFd = s.mIonFd := by
      by_cases hempty : s.buffers = []
      · have hzero := h.opened.not
        have hclosed := h.closed
        simp [hempty] at hzero
        rw [hnone hempty]
        omega
      · rw [hsomeFd hempty, hsame]
        exact not_not.mp fun hne => hempty (hother hne)
    refine ⟨u, hu, hukept, ?_, ?_, hsameBuffers ▸ huperm, ?_⟩
    · rw [hfd', hsameBuffers]
      exact h.opened
    · rw [hfd']
      exact h.closed
    · rw [huarrays, hsameArrays, harrays]
      exact h.arrays

theorem Balanced.freeBuffer (h : s.Balanced) {buf : Nat}
    (hpossible : s.Possible (.freeBuffer buf)) :
    ∃ t, s.freeBuffer buf = some t ∧ t.Balanced := by
  rw [MemoryManager.freeBuffer]
  by_cases hbuf : buf = 0
  · exact ⟨s, if_pos hbuf, h⟩
  · obtain ⟨l, hl⟩ := ne_none_iff_exists'.mp (hpossible.resolve_left hbuf)
    have hsplit := KeyedVector.perm_removeItem hl
    obtain ⟨bufs, rfl, hbufs⟩ := h.arrays _ (KeyedVector.mem_entries.mpr hl)
    have hperm := perm_buffers hsplit hbufs
    obtain ⟨t, ht, hkept, htperm, hnone, hsome, harrays⟩ :=
      h.kept.freeEntries (hperm.symm.trans h.keys) hbufs []
    refine ⟨{ t with arrays := t.arrays.removeItem buf }, ?_,
      { hkept with }, ?_, ?_, ?_, fun e he => ?_⟩
    · simp [hbuf, hl, ht]
    · rw [buffers, harrays]
      by_cases hempty : ((s.arrays.removeItem buf).entries.flatMap Prod.snd).filter (· ≠ 0) = []
      · exact iff_of_false (hnone hempty).not_gt (not_not.mpr hempty)
      · have hany : s.buffers ≠ [] := fun hnil => by
          have hlen := hperm.length_eq.symm.trans (congrArg length hnil)
          rw [length_append, length_nil] at hlen
          exact hempty (length_eq_zero_iff.mp (by omega))
        exact iff_of_true ((hsome hempty).symm ▸ h.opened.mpr hany) hempty
    · have hclosed := h.closed
      by_cases hempty : ((s.arrays.removeItem buf).entries.flatMap Prod.snd).filter (· ≠ 0) = []
      · exact (hnone hempty).ge
      · exact (hsome hempty).symm ▸ hclosed
    · rw [buffers, harrays]
      exact htperm
    · rw [harrays] at he
      exact h.arrays e (hsplit.symm.subset (mem_cons_of_mem _ he))

/-- In a run of careful calls nothing is lost, and nothing is given back twice. -/
theorem balanced_of_careful (calls : List Call)
    (hrun : AlongSome step (fun s call => s.Possible call ∧ Careful call) initial calls) :
    ∃ t, calls.foldlM step initial = some t ∧ t.Balanced := by
  refine hrun.exists_foldlM .initial fun s call h hcall => ?_
  cases call with
  | allocateBuffer bytes fd bufsArr answers => exact h.allocateBuffer hcall.1 hcall.2
  | freeBuffer buf => exact h.freeBuffer hcall.1

/-- Two buffers are allocated, a second array fails at its second buffer, and the first array is
freed. -/
theorem failed_allocation_balanced :
    ∃ t, [Call.allocateBuffer 4096 5 1 [.mapped 11 6 4096, .mapped 12 7 8192],
      .allocateBuffer 4096 9 2 [.mapped 13 8 12288, .noAlloc], .freeBuffer 1].foldlM step initial =
        some t ∧ t.Balanced := by
  refine balanced_of_careful _ ⟨⟨?_, by simp [Careful]⟩, fun t ht => ⟨⟨?_, by simp [Careful]⟩,
    fun u hu => ⟨⟨Or.inr ?_, trivial⟩, fun _ _ => trivial⟩⟩⟩
  · simp [Possible, addresses, initial]
  · obtain rfl := some.inj ht
    refine ⟨by decide, by decide, by decide, fun ptr hptr => ?_, nofun⟩
    obtain rfl := mem_singleton.mp hptr
    refine ⟨by decide, fun n hn => ?_⟩
    simp [obtain, record, openDevice, initial, allocateLoop] at hn
  · obtain rfl := some.inj ht
    obtain rfl := some.inj hu
    decide

/-- Where `mmap` fails, the descriptor of the buffer stays with the process and in no map, and the
maps are asked for what is not in them. -/
theorem mmap_failure_leaks :
    allocateLoop 4096 [.noMmap 11 6] { initial with mIonFd := 5, ledger := {.descriptor 5} } =
        ({ initial with mIonFd := 5, ledger := {.descriptor 6, .descriptor 5} },
          [MAP_FAILED, 0], false) ∧
      initial.Possible (.allocateBuffer 4096 5 1 [.noMmap 11 6]) ∧
      ¬ ∃ t, initial.step (.allocateBuffer 4096 5 1 [.noMmap 11 6]) = some t ∧ t.Balanced := by
  refine ⟨rfl, by simp [Possible, addresses, initial], ?_⟩
  rintro ⟨t, ht, -⟩
  cases ht

end MemoryManager

end OmapHal.Camera
