import OmapHal.VideoDecoder.Timestamps

/-!
# Runs of the ring

Buffers are added and removed in any order, with flushes between them. What was added and consumed
since the last flush stands beside the ring.
-/

namespace OmapHal.VideoDecoder

open OmapHal.Core List Nat

/-- The ring and, since the last flush: the buffers that were added, the calls of `Remove` that
found one in frame mode, the bytes that were consumed in stream mode, and whether all the calls were
in one mode. -/
structure RingSession where
  ring : CircularBuffer
  added : List Added
  removes : Nat
  position : Nat
  frameOnly : Bool
  streamOnly : Bool

inductive RingEvent where
  | Add (header : BufferHeader) (pMark : Option Mark)
  | Remove (header : BufferHeader) (nBytesconsumed ProcessMode : Nat)
  | Flush

namespace RingSession

/-- Nothing was added since. -/
def flushed (ring : CircularBuffer) : RingSession := ⟨ring, [], 0, 0, true, true⟩

def start (ring : CircularBuffer) : RingSession := flushed ring.Init

variable (σ : RingSession)

/-- A buffer with the configuration of the codec is not added. -/
def next : RingEvent → RingSession
  | .Add header pMark =>
    { σ with
      ring := (σ.ring.Add header pMark).1
      added := if header.nFlags &&& OMX_BUFFERFLAG_CODECCONFIG ≠ 0 then σ.added
        else σ.added ++ [⟨header, pMark⟩] }
  | .Remove header nBytesconsumed ProcessMode =>
    if ProcessMode = 0 then
      { σ with
        ring := (σ.ring.Remove header nBytesconsumed ProcessMode).1
        removes := if σ.ring.nCount > 0 then σ.removes + 1 else σ.removes
        streamOnly := false }
    else
      { σ with
        ring := (σ.ring.Remove header nBytesconsumed ProcessMode).1
        position := σ.position + nBytesconsumed
        frameOnly := false }
  | .Flush => flushed σ.ring.Flush

/-- The counts agree with what is stored, and these are the buffers that were added last. -/
def Regular : Prop := ∃ W, σ.ring.Stores W ∧ W.map Prod.fst <:+ σ.added

/-- At most as many buffers are outstanding as there are elements. -/
def Possible : RingEvent → Prop
  | .Add header _ => header.nFlags &&& OMX_BUFFERFLAG_CODECCONFIG = 0 →
    σ.ring.nCount < CBUFFER_ARRAYSIZE
  | _ => True

/-- In frame mode the calls that find a buffer deliver the buffers in their order. -/
def DeliversFrame (header : BufferHeader) (nBytesconsumed : Nat) : Prop :=
  σ.ring.nCount > 0 → ∃ b, σ.added[σ.removes]? = some b ∧
    (σ.ring.Remove header nBytesconsumed 0).2 = b.delivered header

/-- In stream mode the buffer with the first byte that is not consumed is delivered, and the
position goes on by the bytes that are. -/
def DeliversStream (header : BufferHeader) (nBytesconsumed ProcessMode : Nat) : Prop :=
  (∀ b, (streamBytes σ.added)[σ.position]? = some b →
    (σ.ring.Remove header nBytesconsumed ProcessMode).2 = b.delivered header) ∧
  σ.position + nBytesconsumed ≤ (streamBytes σ.added).length ∧
  ∃ W, (σ.ring.Remove header nBytesconsumed ProcessMode).1.Stores W ∧
    unreadBytes W = (streamBytes σ.added).drop (σ.position + nBytesconsumed)

def Delivers : RingEvent → Prop
  | .Remove header nBytesconsumed ProcessMode =>
    (ProcessMode = 0 → σ.frameOnly = true → σ.DeliversFrame header nBytesconsumed) ∧
    (ProcessMode ≠ 0 → σ.streamOnly = true →
      σ.DeliversStream header nBytesconsumed ProcessMode)
  | _ => True

/-- Bytes are consumed that are there, of buffers whose lengths an `OMX_S32` holds, and the ring
shows the one that the first of them is in. -/
structure CarefulStream (nBytesconsumed : Nat) : Prop where
  lengths : ∀ b ∈ σ.added, b.header.nFilledLen < 2 ^ 31
  small : nBytesconsumed < 2 ^ 31
  there : σ.position + nBytesconsumed ≤ (streamBytes σ.added).length
  shown : σ.position < (streamBytes σ.added).length →
    σ.ring.nCount < CBUFFER_ARRAYSIZE ∧ (σ.ring.pElements σ.ring.nTail).nBytesConsumed ≠ 0

/-- The condition on each step. -/
def Careful : RingEvent → Prop
  | .Remove _ nBytesconsumed ProcessMode =>
    (ProcessMode = 0 → σ.frameOnly = true → σ.ring.nCount < CBUFFER_ARRAYSIZE) ∧
    (ProcessMode ≠ 0 → σ.streamOnly = true → σ.CarefulStream nBytesconsumed)
  | _ => True

/-- The buffers that are stored are those that were not taken out, or hold the bytes that were not
consumed. -/
structure Follows (W : List (Added × Int)) : Prop where
  stores : σ.ring.Stores W
  suffix : W.map Prod.fst <:+ σ.added
  frame : σ.frameOnly = true → W.map Prod.fst = σ.added.drop σ.removes ∧ σ.removes ≤ σ.added.length
  stream : σ.streamOnly = true → (∀ b ∈ σ.added, b.header.nFilledLen < 2 ^ 31) →
    Counts W ∧ unreadBytes W = (streamBytes σ.added).drop σ.position ∧
      σ.position ≤ (streamBytes σ.added).length

variable {σ} {W : List (Added × Int)} {header : BufferHeader} {n ProcessMode : Nat}

theorem follows_flushed {ring : CircularBuffer} (h : ring.Stores []) :
    (flushed ring).Follows [] where
  stores := h
  suffix := nil_suffix
  frame _ := ⟨rfl, le_refl _⟩
  stream _ _ := ⟨nofun, rfl, le_refl _⟩

/-! ## Adding -/

theorem next_add_codecConfig (pMark : Option Mark)
    (hconfig : header.nFlags &&& OMX_BUFFERFLAG_CODECCONFIG ≠ 0) :
    σ.next (.Add header pMark) = σ := by
  unfold next CircularBuffer.Add
  dsimp only
  rw [if_pos hconfig, if_pos hconfig]

theorem next_add (pMark : Option Mark)
    (hplain : header.nFlags &&& OMX_BUFFERFLAG_CODECCONFIG = 0) :
    σ.next (.Add header pMark) =
      { σ with ring := (σ.ring.Add header pMark).1, added := σ.added ++ [⟨header, pMark⟩] } := by
  unfold next
  dsimp only
  rw [if_neg (not_not.mpr hplain)]

theorem suffix_append {α : Type*} {l l' : List α} (h : l <:+ l') (a : α) :
    l ++ [a] <:+ l' ++ [a] := by
  obtain ⟨l₀, rfl⟩ := h
  exact ⟨l₀, (append_assoc ..).symm⟩

/-- An addition is followed. -/
theorem Follows.add (h : σ.Follows W) (pMark : Option Mark)
    (hplain : header.nFlags &&& OMX_BUFFERFLAG_CODECCONFIG = 0)
    (hroom : σ.ring.nCount < CBUFFER_ARRAYSIZE) :
    (σ.next (.Add header pMark)).Follows
      (W ++ [(⟨header, pMark⟩, toS32 header.nFilledLen)]) := by
  rw [next_add pMark hplain]
  refine ⟨h.stores.add hroom hplain pMark, ?_, fun hframe => ?_, fun hstream hlengths => ?_⟩
  · rw [map_append]
    exact suffix_append h.suffix _
  · obtain ⟨hrest, hremoves⟩ := h.frame hframe
    refine ⟨?_, ?_⟩
    · rw [map_append, hrest, drop_append_of_le_length hremoves]
      rfl
    · rw [length_append]
      exact le_add_right_of_le hremoves
  · have hlength : header.nFilledLen < 2 ^ 31 :=
      hlengths ⟨header, pMark⟩ (mem_append_right _ (mem_singleton_self _))
    have hexact : toS32 header.nFilledLen = header.nFilledLen :=
      toS32_of_nonneg (by omega) (by omega)
    obtain ⟨hcounts, hunread, hinside⟩ :=
      h.stream hstream fun b hb => hlengths b (mem_append_left _ hb)
    have hbytes : streamBytes (σ.added ++ [⟨header, pMark⟩]) =
        streamBytes σ.added ++ .replicate header.nFilledLen ⟨header, pMark⟩ := by
      rw [streamBytes, flatMap_append, flatMap_singleton]
      rfl
    refine ⟨?_, ?_, ?_⟩
    · intro w hw
      rcases mem_append.mp hw with hold | hnew
      · exact hcounts w hold
      · rw [mem_singleton.mp hnew]
        rw [hexact]
        omega
    · show unreadBytes (W ++ [(⟨header, pMark⟩, toS32 header.nFilledLen)]) =
        (streamBytes (σ.added ++ [⟨header, pMark⟩])).drop σ.position
      rw [hbytes, drop_append_of_le_length hinside, ← hunread, unreadBytes, flatMap_append,
        flatMap_singleton, hexact]
      rfl
    · show σ.position ≤ (streamBytes (σ.added ++ [⟨header, pMark⟩])).length
      rw [hbytes, length_append]
      omega

/-! ## Taking out -/

theorem next_removeFrame : σ.next (.Remove header n 0) =
    { σ with
      ring := if σ.ring.nCount > 0 then σ.ring.dropTail else σ.ring
      removes := if σ.ring.nCount > 0 then σ.removes + 1 else σ.removes
      streamOnly := false } := by
  unfold next CircularBuffer.Remove
  dsimp only
  rw [if_pos rfl, if_neg (not_not.mpr rfl)]

theorem next_removeStream (hmode : ProcessMode ≠ 0) : σ.next (.Remove header n ProcessMode) =
    { σ with
      ring := CircularBuffer.consumeLoop σ.ring.nCount σ.ring (toS32 n) (toS32 n)
      position := σ.position + n
      frameOnly := false } := by
  unfold next CircularBuffer.Remove
  dsimp only
  rw [if_neg hmode, if_pos hmode]

theorem Follows.removeFrame (h : σ.Follows W) :
    ∃ W', (σ.next (.Remove header n 0)).Follows W' := by
  have hcount := h.stores.count
  rw [next_removeFrame]
  cases W with
  | nil =>
    have hempty : ¬σ.ring.nCount > 0 := by
      rw [hcount]
      exact lt_irrefl 0
    rw [if_neg hempty, if_neg hempty]
    exact ⟨[], h.stores, h.suffix, h.frame, nofun⟩
  | cons w W =>
    have hstored : σ.ring.nCount > 0 := by
      rw [hcount]
      exact succ_pos _
    rw [if_pos hstored, if_pos hstored]
    refine ⟨W, h.stores.dropTail, (suffix_cons w.1 _).trans h.suffix, fun hframe => ?_, nofun⟩
    obtain ⟨hrest, hremoves⟩ := h.frame hframe
    have hlength := congrArg length hrest
    rw [map_cons, length_cons, length_drop] at hlength
    have hnext : W.map Prod.fst = σ.added.drop (σ.removes + 1) := by
      rw [← tail_drop, ← hrest, map_cons, tail_cons]
    exact ⟨hnext, show σ.removes + 1 ≤ σ.added.length by omega⟩

theorem Follows.deliversFrame (h : σ.Follows W) (hframe : σ.frameOnly)
    (hroom : σ.ring.nCount < CBUFFER_ARRAYSIZE) : σ.DeliversFrame header n := by
  intro hstored
  obtain ⟨hrest, hremoves⟩ := h.frame hframe
  cases W with
  | nil =>
    rw [h.stores.count] at hstored
    exact absurd hstored (lt_irrefl 0)
  | cons w W =>
    refine ⟨w.1, ?_, ?_⟩
    · rw [← head?_drop, ← hrest, map_cons, head?_cons]
    · unfold CircularBuffer.Remove
      rw [h.stores.shown_eq hroom]
      exact deliver_entry header w.1 w.2

/-- Where the first buffer has bytes that are not consumed, the first of them is its. -/
theorem head_unreadBytes {w : Added × Int} (hw : 0 < w.2) :
    (unreadBytes (w :: W)).head? = some w.1 := by
  obtain ⟨k, hk⟩ : ∃ k, w.2.toNat = k + 1 := ⟨w.2.toNat - 1, by omega⟩
  rw [show unreadBytes (w :: W) = .replicate w.2.toNat w.1 ++ unreadBytes W from rfl, hk,
    replicate_succ]
  rfl

/-- A removal in stream mode delivers. -/
theorem Follows.deliversStream (h : σ.Follows W) (hstream : σ.streamOnly)
    (hcareful : σ.CarefulStream n) (hmode : ProcessMode ≠ 0) :
    σ.DeliversStream header n ProcessMode := by
  obtain ⟨hcounts, hunread, hinside⟩ := h.stream hstream hcareful.lengths
  have hn : toS32 n = n := toS32_of_nonneg (by omega) (by exact_mod_cast hcareful.small)
  refine ⟨fun b hb => ?_, hcareful.there, consume n W, ?_, ?_⟩
  · have hbefore : σ.position < (streamBytes σ.added).length := (List.getElem?_eq_some_iff.mp hb).1
    obtain ⟨hroom, hbytes⟩ := hcareful.shown hbefore
    rw [← head?_drop, ← hunread] at hb
    cases W with
    | nil => cases hb
    | cons w W =>
      have htail : (σ.ring.pElements σ.ring.nTail).nBytesConsumed = w.2 := by
        rw [h.stores.first.1]
        rfl
      have hleft := (hcounts w mem_cons_self).1
      rw [htail] at hbytes
      rw [head_unreadBytes (by omega)] at hb
      unfold CircularBuffer.Remove
      rw [h.stores.shown_eq hroom, ← Option.some.inj hb]
      exact deliver_entry header w.1 w.2
  · unfold CircularBuffer.Remove
    rw [if_pos hmode, hn, h.stores.count]
    exact h.stores.consumeLoop hcounts (by omega) (by exact_mod_cast hcareful.small)
  · rw [unreadBytes_consume hcounts (by omega), hunread, drop_drop, Int.toNat_natCast]

theorem Follows.removeStream (h : σ.Follows W) (hmode : ProcessMode ≠ 0)
    (hcareful : σ.streamOnly → σ.CarefulStream n) :
    ∃ W', (σ.next (.Remove header n ProcessMode)).Follows W' := by
  rw [next_removeStream hmode]
  by_cases hstream : σ.streamOnly
  · have hstep := hcareful hstream
    obtain ⟨hcounts, hunread, hinside⟩ := h.stream hstream hstep.lengths
    have hn : toS32 n = n := toS32_of_nonneg (by omega) (by exact_mod_cast hstep.small)
    refine ⟨consume n W, ?_, (suffix_consume n W).trans h.suffix, nofun, fun _ _ => ⟨?_, ?_, ?_⟩⟩
    · dsimp only
      rw [hn, h.stores.count]
      exact h.stores.consumeLoop hcounts (by omega) (by exact_mod_cast hstep.small)
    · exact hcounts.consume (by omega)
    · rw [unreadBytes_consume hcounts (by omega), hunread, drop_drop, Int.toNat_natCast]
    · exact hstep.there
  · obtain ⟨W', hstores, hsuffix⟩ :=
      h.stores.consumeLoop_suffix h.stores.count.symm (toS32 n) (toS32 n)
    exact ⟨W', hstores, hsuffix.trans h.suffix, nofun, fun hmixed => absurd hmixed hstream⟩

/-! ## Every step -/

/-- One step of the ring. -/
theorem Follows.next (h : σ.Follows W) {event : RingEvent} (hpossible : σ.Possible event)
    (hcareful : σ.Careful event) : σ.Delivers event ∧ ∃ W', (σ.next event).Follows W' := by
  cases event with
  | Add header pMark =>
    refine ⟨trivial, ?_⟩
    by_cases hplain : header.nFlags &&& OMX_BUFFERFLAG_CODECCONFIG = 0
    · exact ⟨_, h.add pMark hplain (hpossible hplain)⟩
    · rw [next_add_codecConfig pMark hplain]
      exact ⟨W, h⟩
  | Remove header n ProcessMode =>
    refine ⟨⟨?_, fun hmode hstream =>
      h.deliversStream hstream (hcareful.2 hmode hstream) hmode⟩, ?_⟩
    · rintro rfl hframe
      exact h.deliversFrame hframe (hcareful.1 rfl hframe)
    · by_cases hmode : ProcessMode = 0
      · rw [hmode]
        exact h.removeFrame
      · exact h.removeStream hmode (hcareful.2 hmode)
  | Flush => exact ⟨trivial, [], follows_flushed (.flush σ.ring)⟩

/-- The counts and the order are kept by whatever is done. -/
theorem Regular.next (h : σ.Regular) {event : RingEvent} (hpossible : σ.Possible event) :
    (σ.next event).Regular := by
  obtain ⟨W, hstores, hsuffix⟩ := h
  cases event with
  | Add header pMark =>
    by_cases hplain : header.nFlags &&& OMX_BUFFERFLAG_CODECCONFIG = 0
    · rw [next_add pMark hplain]
      refine ⟨_, hstores.add (hpossible hplain) hplain pMark, ?_⟩
      rw [map_append]
      exact suffix_append hsuffix _
    · rw [next_add_codecConfig pMark hplain]
      exact ⟨W, hstores, hsuffix⟩
  | Remove header n ProcessMode =>
    by_cases hmode : ProcessMode = 0
    · rw [hmode, next_removeFrame]
      cases W with
      | nil =>
        rw [if_neg (by rw [hstores.count]; exact lt_irrefl 0)]
        exact ⟨[], hstores, hsuffix⟩
      | cons w W =>
        rw [if_pos (by rw [hstores.count]; exact succ_pos _)]
        exact ⟨W, hstores.dropTail, (suffix_cons w.1 _).trans hsuffix⟩
    · rw [next_removeStream hmode]
      obtain ⟨W', hW', hsuffix'⟩ :=
        hstores.consumeLoop_suffix hstores.count.symm (toS32 n) (toS32 n)
      exact ⟨W', hW', hsuffix'.trans hsuffix⟩
  | Flush => exact ⟨[], .flush σ.ring, nil_suffix⟩

end RingSession

open RingSession

/-- What belongs to a buffer is delivered for it. -/
theorem ring_delivers (ring : CircularBuffer) (events : List RingEvent)
    (hpossible : Along next Possible (start ring) events) :
    (∀ done, done <+: events → (done.foldl next (start ring)).Regular) ∧
      (Along next Careful (start ring) events → Along next Delivers (start ring) events) := by
  refine ⟨fun done hdone => ?_, fun hcareful => ?_⟩
  · obtain ⟨rest, rfl⟩ := hdone
    exact (hpossible.of_append).invariant ⟨[], .init ring, nil_suffix⟩ fun σ e h hok => h.next hok
  · refine (hpossible.and hcareful).mono_invariant (I := fun σ => ∃ W, σ.Follows W)
      ⟨[], follows_flushed (.init ring)⟩ ?_ ?_
    · rintro σ e ⟨W, h⟩ ⟨hstep, hcare⟩
      exact (h.next hstep hcare).1
    · rintro σ e ⟨W, h⟩ ⟨hstep, hcare⟩
      exact (h.next hstep hcare).2

namespace RingRun

def ring : CircularBuffer := ⟨fun _ => {}, 0, 0, 0⟩

/-- A buffer of four bytes. -/
def input (nTimeStamp : Int) : BufferHeader := ⟨nTimeStamp, 0, 0, 4, 0, 0⟩

def output : BufferHeader := ⟨0, 0, 0, 0, 0, 0⟩

def twoBuffers : List RingEvent := [.Add (input 1) none, .Add (input 2) none]

end RingRun

open RingRun in
/-- Three bytes of the first buffer are consumed, and then two over its end. -/
theorem frames_across_buffers :
    Along next Delivers (start ring) (twoBuffers ++ [.Remove output 3 1, .Remove output 2 1]) := by
  refine (ring_delivers ring _ ?_).2 ?_
  · refine ⟨fun _ => ?_, fun _ => ?_, trivial, trivial, trivial⟩ <;> decide +kernel
  · refine ⟨trivial, trivial, ⟨nofun, fun _ _ => ⟨?_, ?_, ?_, ?_⟩⟩,
      ⟨nofun, fun _ _ => ⟨?_, ?_, ?_, ?_⟩⟩, trivial⟩ <;> decide +kernel

open RingRun in
/-- A buffer whose last byte was consumed is delivered once more. -/
theorem consumed_buffer_shown : ¬∀ (ring : CircularBuffer) (events : List RingEvent),
    Along next Possible (start ring) events →
      (∀ done, done <+: events → (done.foldl next (start ring)).Regular) ∧
        Along next Delivers (start ring) events := by
  intro hclaim
  obtain ⟨-, hrun⟩ := hclaim ring (twoBuffers ++ [.Remove output 4 1, .Remove output 1 1]) (by
    refine ⟨fun _ => ?_, fun _ => ?_, trivial, trivial, trivial⟩ <;> decide +kernel)
  obtain ⟨-, -, -, ⟨-, hstream⟩, -⟩ := hrun
  have hshown := (hstream one_ne_zero rfl).1 ⟨input 2, none⟩ (by decide +kernel)
  exact absurd (congrArg BufferHeader.nTimeStamp hshown) (by decide +kernel)

end OmapHal.VideoDecoder
