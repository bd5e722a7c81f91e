import OmapHal.Camera.Holders

/-!
# Each buffer is recycled once

A buffer goes back to `fillThisBuffer` with the return of its last reference, and then nobody
holds it. This needs that frames of one kind are not mixed: a new frame comes in when no one holds
the buffer as a frame of that kind, a type is delivered when the types that share its count are
back, and a recording ends when no encoder has a frame.
-/

namespace OmapHal.Camera

open List Option Nat Function

open OmapHal.Core (AlongSome KeyedVector)

variable {s t : Session} {b b' : Address} {frameType : FrameType} {k k' : Pool} {event : Event}

/-! ## The property and the condition -/

/-- Buffers go back only with returns and at the end of a recording, and then exactly if the last
reference went; nobody holds them. -/
def Session.HandsBack (s t : Session) : Event → Prop
  | .returnFrame frameBuf frameType =>
    if t.outstanding frameBuf = 0 then
      t.adapter.filled = (frameBuf, frameType) :: s.adapter.filled ∧
        ∀ frame ∈ t.held, frame.1 ≠ frameBuf
    else t.adapter.filled = s.adapter.filled
  | .stopVideoCapture =>
    ∃ bufs : List Address,
      t.adapter.filled = bufs.map (fun b => (b, .VIDEO_FRAME_SYNC)) ++ s.adapter.filled ∧
      bufs.Nodup ∧ (∀ b, b ∈ bufs ↔ 0 < s.outstanding b ∧ t.outstanding b = 0) ∧
      ∀ b ∈ bufs, ∀ frame ∈ t.held, frame.1 ≠ b
  | _ => t.adapter.filled = s.adapter.filled

def Session.Recycles (s : Session) (event : Event) : Prop :=
  ∃ t, s.step event = some t ∧ s.HandsBack t event

/-- The condition on each event. A frame comes in when nobody holds its buffer as a frame of a
count that is set, and the references of a buffer are with one provider. A type goes to its
subscribers when its entries are there and nobody holds the buffer as a frame of the same count. A
recording ends when no frame is with an encoder or on its way there, and no buffer has two
references that were never given out. -/
def Session.Careful (s : Session) : Event → Prop
  | .arrive frameBuf mask =>
    (∀ k, s.adapter.sets frameBuf mask k → s.holding frameBuf k = 0) ∧
      ∀ k k', 0 < s.taken frameBuf mask k → 0 < s.taken frameBuf mask k' →
        k.buffers = k'.buffers
  | .send =>
    match s.delivery with
    | some (.between frameBuf (frameType :: _)) =>
      ∀ subscribers, s.adapter.subscribers frameType = some subscribers →
        s.adapter.callbacks frameBuf frameType subscribers ≠ none ∧
        ∀ callbacks, s.adapter.callbacks frameBuf frameType subscribers = some (some callbacks) →
          ∀ k, frameType.pool = some k → s.holding frameBuf k = 0
    | _ => True
  | .stopVideoCapture =>
    s.adapter.mRecording = true → ∀ b ∈ s.adapter.mVideoBuffersAvailable.keys,
      s.refs b .video ≤ 1 ∧ s.holding b .video = 0 ∧ Delivery.pending b .video s.delivery = 0
  | _ => True

/-- The two numbers are those of the frames that display and encoder hold. -/
def Session.CountersRight (s : Session) : Prop :=
  s.adapter.mFramesWithDisplay =
      BitVec.ofNat 32 (s.held.countP fun frame => frame.2 = .PREVIEW_FRAME_SYNC) ∧
    s.adapter.mFramesWithEncoder =
      BitVec.ofNat 32 (s.held.countP fun frame => frame.2 = .VIDEO_FRAME_SYNC)

/-- No frame goes to display or encoder, and none is taken back for the encoder: nothing counts
these up. -/
def Session.Silent (s : Session) : Event → Prop
  | .send =>
    match s.delivery with
    | some (.calling _ frameType (callback :: _) _) =>
      callback ≠ 0 → frameType ≠ .PREVIEW_FRAME_SYNC ∧ frameType ≠ .VIDEO_FRAME_SYNC
    | _ => True
  | .stopVideoCapture =>
    s.adapter.mRecording = true →
      ∀ b ∈ s.adapter.mVideoBuffersAvailable.keys, s.refs b .video = 0
  | _ => True

/-! ## Arrivals -/

/-- The types whose counts an arrival sets. -/
def arrivalTypes (b : Address) (mask : Nat) : List FrameType :=
  if b = 0 then [] else FrameType.ofMask mask

theorem setInitFrameRefCount_sets (a : Adapter) (b : Address) (mask : Nat) :
    SetsCounts a b (arrivalTypes b mask) (a.setInitFrameRefCount b mask) := by
  rw [arrivalTypes, Adapter.setInitFrameRefCount]
  split
  · exact setsCounts a b []
  · exact setsCounts a b (FrameType.ofMask mask)

theorem sets_iff {a : Adapter} {mask : Nat} : a.sets b mask k = true ↔
    a.count b k ≠ none ∧ ∃ frameType ∈ arrivalTypes b mask, frameType.pool = some k := by
  rw [Adapter.sets, arrivalTypes, decide_eq_true_iff, isSome_iff_ne_none]
  by_cases hb : b = 0
  · simp [hb]
  · simp [hb]

/-- After an arrival the counts are the references again. -/
theorem Session.Inv.taken_eq (h : s.Inv) {mask : Nat} {n : Int}
    (hn : (s.adapter.setInitFrameRefCount b mask).count b k = some n) :
    n = s.taken b mask k := by
  have hsets := setInitFrameRefCount_sets s.adapter b mask
  rw [Session.taken]
  by_cases hset : s.adapter.sets b mask k = true
  · have hnonneg : 0 ≤ n := hsets.nonneg k (.inl (sets_iff.mp hset).2) n hn
    rw [if_pos hset, hn, getD_some, Int.toNat_of_nonneg hnonneg]
  · rw [if_neg hset]
    have hentry : s.adapter.count b k ≠ none := by
      rw [ne_eq, ← hsets.none_iff, hn]
      exact some_ne_none n
    have hno : ∀ frameType ∈ arrivalTypes b mask, frameType.pool ≠ some k :=
      fun frameType hmem hpool => hset (sets_iff.mpr ⟨hentry, frameType, hmem, hpool⟩)
    rw [hsets.same b k (.inr hno)] at hn
    exact h.counts b k n hn

theorem Session.Inv.arrive (h : s.Inv) {mask : Nat} (hcare : s.Careful (.arrive b mask)) :
    (s.arrive b mask).Inv := by
  have hsets := setInitFrameRefCount_sets s.adapter b mask
  obtain ⟨-, -, hrec⟩ := control_eq_iff.mp hsets.control
  obtain ⟨hfree, htogether⟩ := hcare
  have hrefs : ∀ b' k', (s.arrive b mask).refs b' k' =
      if b' = b then s.taken b mask k' else s.refs b' k' := by
    intro b' k'
    change update s.refs b (s.taken b mask) b' k' = _
    by_cases hb : b' = b
    · rw [hb, update_self, if_pos rfl]
    · rw [update_of_ne hb, if_neg hb]
  refine ⟨fun b' k' n hn => ?_, fun b' k' hpos => ?_, fun b' k' => ?_, fun b' k₁ k₂ h₁ h₂ => ?_,
    fun hrec' b' => ?_, fun hrec' b' => ?_, fun k' => ?_, h.pooled, nofun⟩
  · change (s.adapter.setInitFrameRefCount b mask).count b' k' = some n at hn
    rw [hrefs]
    split
    · next hb =>
      subst hb
      exact h.taken_eq hn
    · next hb =>
      rw [hsets.same b' k' (.inl hb)] at hn
      exact h.counts b' k' n hn
  · refine mt (hsets.none_iff b' k').mp ?_
    rw [hrefs] at hpos
    split at hpos
    · next hb =>
      subst hb
      rw [Session.taken] at hpos
      split at hpos
      · next hset => exact (sets_iff.mp hset).1
      · exact h.entries b' k' hpos
    · exact h.entries b' k' hpos
  · rw [hrefs]
    change s.holding b' k' + 0 ≤ _
    have hle := le_of_add_right_le (h.holders b' k')
    split
    · next hb =>
      subst hb
      by_cases hset : s.adapter.sets b' mask k' = true
      · rw [hfree k' hset]
        exact zero_le _
      · rw [Session.taken, if_neg hset]
        exact hle
    · exact hle
  · rw [hrefs] at h₁ h₂
    split at h₁
    · next hb =>
      rw [if_pos hb] at h₂
      exact htogether k₁ k₂ h₁ h₂
    · next hb =>
      rw [if_neg hb] at h₂
      exact h.together b' k₁ k₂ h₁ h₂
  · exact (hsets.none_iff b' .video).trans ((h.recording (hrec.symm.trans hrec') b').trans
      (hsets.none_iff b' .preview).symm)
  · exact (hsets.none_iff b' .video).mpr (h.idle (hrec.symm.trans hrec') b')
  · rw [hrefs]
    split
    · next hb =>
      subst hb
      rw [Session.taken, if_neg]
      · exact h.null k'
      · rw [sets_iff, arrivalTypes, if_pos rfl]
        rintro ⟨-, frameType, hmem, -⟩
        cases hmem
    · exact h.null k'

/-! ## Delivery -/

/-- A frame goes to as many subscribers as the count says. -/
theorem length_callbacks {a : Adapter} {subscribers : KeyedVector Address frame_callback}
    {callbacks : List frame_callback}
    (h : a.callbacks b frameType subscribers = some (some callbacks)) :
    a.getFrameRefCount b frameType = some (callbacks.length : Int) := by
  obtain ⟨pointers, -, h⟩ := bind_eq_some_iff.mp h
  split at h
  · obtain ⟨refCount, hcount, h⟩ := bind_eq_some_iff.mp h
    split at h
    · cases h
    · split at h
      · cases h
      · next hle =>
        obtain rfl := some.inj (some.inj h)
        rw [not_or, Int.not_lt, Int.not_lt] at hle
        rw [hcount, length_take, KeyedVector.length_values]
        congr 1
        omega
  · cases h

/-- The session goes on with the delivery. -/
theorem Session.Inv.deliver (h : s.Inv) {delivery : Option Delivery}
    {held : List (Address × FrameType)}
    (hholders : ∀ b k, held.countP (fun frame => frame.1 = b ∧ frame.2.pool = some k) +
      Delivery.pending b k delivery ≤ s.refs b k)
    (hpooled : ∀ frame ∈ held, frame.2.pool ≠ none)
    (hcalling : ∀ b frameType callbacks todo,
      delivery = some (.calling b frameType callbacks todo) → frameType.pool ≠ none) :
    Session.Inv { s with delivery := delivery, held := held } :=
  { h with holders := hholders, pooled := hpooled, calling := hcalling }

/-- A delivery that is not in the loop over callbacks keeps nothing back. -/
theorem Session.Inv.settle (h : s.Inv) {delivery : Option Delivery}
    (hdelivery : ∀ b k, Delivery.pending b k delivery = 0)
    (hcalling : ∀ b frameType callbacks todo,
      delivery ≠ some (.calling b frameType callbacks todo)) :
    Session.Inv { s with delivery := delivery } := by
  refine h.deliver (fun b k => ?_) h.pooled fun b frameType callbacks todo heq =>
    absurd heq (hcalling b frameType callbacks todo)
  rw [hdelivery]
  exact le_of_add_right_le (h.holders b k)

/-- A type goes to its subscribers when nobody holds the buffer by its count. -/
theorem Session.Inv.begin (h : s.Inv) {subscribers : KeyedVector Address frame_callback}
    {callbacks : List frame_callback} {todo : List FrameType}
    (hsubs : s.adapter.subscribers frameType = some subscribers)
    (hcallbacks : s.adapter.callbacks b frameType subscribers = some (some callbacks))
    (hfree : ∀ k, frameType.pool = some k → s.holding b k = 0) :
    Session.Inv { s with delivery := some (.calling b frameType callbacks todo) } := by
  obtain ⟨k, hpool⟩ : ∃ k, frameType.pool = some k := by
    rw [← isSome_iff_exists, ← subscribers_isSome s.adapter, hsubs]
    rfl
  have hcount := length_callbacks hcallbacks
  rw [getFrameRefCount_of_pool hpool] at hcount
  have hrefs := h.counts b k _ hcount
  refine h.deliver (fun b' k' => ?_) h.pooled fun b' frameType' callbacks' todo' heq => ?_
  · have hle := le_of_add_right_le (h.holders b' k')
    change s.holding b' k' +
      (if b = b' ∧ frameType.pool = some k' then callbacks.length else 0) ≤ _
    split
    · next heq =>
      obtain ⟨rfl, hk'⟩ := heq
      obtain rfl := some.inj (hpool.symm.trans hk')
      rw [hfree k hpool]
      omega
    · exact hle
  · cases heq
    rw [hpool]
    exact some_ne_none k

/-- A subscriber gets its frame. -/
theorem Session.Inv.give (h : s.Inv) {callback : frame_callback}
    {callbacks : List frame_callback} {todo : List FrameType}
    (hdelivery : s.delivery = some (.calling b frameType (callback :: callbacks) todo)) :
    Session.Inv { s with
      delivery := some (.calling b frameType callbacks todo)
      held := (b, frameType) :: s.held } := by
  have hpool := h.calling b frameType (callback :: callbacks) todo hdelivery
  refine h.deliver (fun b' k' => ?_) (fun frame hmem => ?_)
    fun b' frameType' callbacks' todo' heq => ?_
  · have hle := h.holders b' k'
    rw [hdelivery] at hle
    change s.held.countP _ + (if b = b' ∧ frameType.pool = some k' then _ else _) ≤ _ at hle
    change _ + (if b = b' ∧ frameType.pool = some k' then _ else _) ≤ _
    rw [countP_cons]
    by_cases heq : b = b' ∧ frameType.pool = some k'
    · rw [if_pos heq, length_cons] at hle
      rw [if_pos heq, if_pos (decide_eq_true heq)]
      omega
    · rw [if_neg heq] at hle
      rw [if_neg heq, if_neg (by simpa using heq)]
      exact hle
  · rcases mem_cons.mp hmem with rfl | hmem
    · exact hpool
    · exact h.pooled frame hmem
  · cases heq
    exact hpool

/-! The turns of a delivery. -/

theorem send_end (h : s.delivery = some (.between b [])) :
    s.send = some { s with delivery := none } := by
  rw [Session.send, h]

theorem send_skip {todo : List FrameType} (h : s.delivery = some (.between b (frameType :: todo)))
    (hsubs : s.adapter.subscribers frameType = none) :
    s.send = some { s with delivery := some (.between b todo) } := by
  rw [Session.send, h]
  dsimp only
  rw [hsubs]

theorem send_fail {todo : List FrameType} {subscribers : KeyedVector Address frame_callback}
    (h : s.delivery = some (.between b (frameType :: todo)))
    (hsubs : s.adapter.subscribers frameType = some subscribers)
    (hcallbacks : s.adapter.callbacks b frameType subscribers = some none) :
    s.send = some { s with delivery := none } := by
  rw [Session.send, h]
  dsimp only
  rw [hsubs]
  dsimp only
  rw [hcallbacks, map_some]

theorem send_begin {todo : List FrameType} {subscribers : KeyedVector Address frame_callback}
    {callbacks : List frame_callback} (h : s.delivery = some (.between b (frameType :: todo)))
    (hsubs : s.adapter.subscribers frameType = some subscribers)
    (hcallbacks : s.adapter.callbacks b frameType subscribers = some (some callbacks)) :
    s.send = some { s with delivery := some (.calling b frameType callbacks todo) } := by
  rw [Session.send, h]
  dsimp only
  rw [hsubs]
  dsimp only
  rw [hcallbacks, map_some]

theorem send_next {todo : List FrameType} (h : s.delivery = some (.calling b frameType [] todo)) :
    s.send = some { s with delivery := some (.between b todo) } := by
  rw [Session.send, h]

theorem send_call {callback : frame_callback} {callbacks : List frame_callback}
    {todo : List FrameType}
    (h : s.delivery = some (.calling b frameType (callback :: callbacks) todo)) :
    s.send = some (if callback = 0 then { s with delivery := none }
      else { s with
        delivery := some (.calling b frameType callbacks todo)
        held := (b, frameType) :: s.held }) := by
  rw [Session.send, h]
  dsimp only
  split <;> rfl

/-- A turn may give one frame to a subscriber. -/
def Session.Gives (s t : Session) : Prop :=
  t.held = s.held ∨ ∃ b frameType callback callbacks todo, callback ≠ 0 ∧
    s.delivery = some (.calling b frameType (callback :: callbacks) todo) ∧
    t.held = (b, frameType) :: s.held

theorem Session.Inv.send (h : s.Inv) (hcare : s.Careful .send) :
    ∃ t, s.send = some t ∧ t.Inv ∧ t.adapter = s.adapter ∧ s.Gives t := by
  have hend : Session.Inv { s with delivery := none } := h.settle (fun _ _ => rfl) (by simp)
  have hbetween : ∀ b todo, Session.Inv { s with delivery := some (.between b todo) } :=
    fun b todo => h.settle (fun _ _ => rfl) (by simp)
  cases hdelivery : s.delivery with
  | none => exact ⟨s, by rw [Session.send, hdelivery], h, rfl, .inl rfl⟩
  | some delivery =>
    cases delivery with
    | between b todo =>
      cases todo with
      | nil => exact ⟨_, send_end hdelivery, hend, rfl, .inl rfl⟩
      | cons frameType todo =>
        rw [Session.Careful, hdelivery] at hcare
        cases hsubs : s.adapter.subscribers frameType with
        | none => exact ⟨_, send_skip hdelivery hsubs, hbetween b todo, rfl, .inl rfl⟩
        | some subscribers =>
          obtain ⟨hne, hfree⟩ := hcare subscribers hsubs
          obtain ⟨reply, hreply⟩ := ne_none_iff_exists'.mp hne
          cases reply with
          | none => exact ⟨_, send_fail hdelivery hsubs hreply, hend, rfl, .inl rfl⟩
          | some callbacks =>
            exact ⟨_, send_begin hdelivery hsubs hreply, h.begin hsubs hreply
              (hfree callbacks hreply), rfl, .inl rfl⟩
    | calling b frameType callbacks todo =>
      cases callbacks with
      | nil => exact ⟨_, send_next hdelivery, hbetween b todo, rfl, .inl rfl⟩
      | cons callback callbacks =>
        refine ⟨_, send_call hdelivery, ?_⟩
        split
        · exact ⟨hend, rfl, .inl rfl⟩
        · next hnull =>
          exact ⟨h.give hdelivery, rfl, .inr ⟨b, frameType, callback, callbacks, todo, hnull,
            hdelivery, rfl⟩⟩

/-! ## Start and end of a recording -/

theorem count_startVideoCapture {a : Adapter} (hrec : a.mRecording = false)
    (hidle : a.count b .video = none) : a.startVideoCapture.2.count b k =
      if k = .video then if a.count b .preview = none then none else some 0
      else a.count b k := by
  rw [Adapter.startVideoCapture, hrec]
  cases k with
  | preview | capture | previewData => rfl
  | video =>
    change KeyedVector.valueFor (a.mPreviewBuffersAvailable.keys.foldl _ _) b = _
    rw [KeyedVector.valueFor_foldl_add]
    by_cases hnone : a.count b .preview = none
    · rw [if_neg fun hkey => KeyedVector.mem_keys.mp hkey hnone, if_pos rfl, if_pos hnone]
      exact hidle
    · rw [if_pos (KeyedVector.mem_keys.mpr hnone), if_pos rfl, if_neg hnone]

/-- At the start of a recording the encoder has no frame. -/
theorem Session.Inv.startVideoCapture (h : s.Inv) :
    Session.Inv { s with adapter := s.adapter.startVideoCapture.2 } := by
  cases hrec : s.adapter.mRecording with
  | true =>
    rw [Adapter.startVideoCapture, if_pos hrec]
    exact h
  | false =>
    have hcount := fun b k => count_startVideoCapture (b := b) (k := k) hrec (h.idle hrec b)
    have hzero : ∀ b, s.refs b .video = 0 := by
      intro b
      by_contra hpos
      exact h.entries b .video (pos_of_ne_zero hpos) (h.idle hrec b)
    have hnow : s.adapter.startVideoCapture.2.mRecording = true := by
      rw [Adapter.startVideoCapture, hrec]
      rfl
    refine { h with
      counts := fun b k n hn => ?_
      entries := fun b k hpos => ?_
      recording := fun _ b => ?_
      idle := fun hno => (nomatch hno.symm.trans hnow) }
    · change s.adapter.startVideoCapture.2.count b k = some n at hn
      rw [hcount] at hn
      split at hn
      · next hk =>
        subst hk
        split at hn
        · cases hn
        · rw [← some.inj hn]
          exact (congrArg Nat.cast (hzero b)).symm
      · exact h.counts b k n hn
    · change s.adapter.startVideoCapture.2.count b k ≠ none
      change 0 < s.refs b k at hpos
      rw [hcount, if_neg]
      · exact h.entries b k hpos
      · rintro rfl
        rw [hzero b] at hpos
        exact lt_irrefl 0 hpos
    · change s.adapter.startVideoCapture.2.count b .video = none ↔
        s.adapter.startVideoCapture.2.count b .preview = none
      have hpreview := hcount b .preview
      rw [if_neg (by decide : Pool.preview ≠ .video)] at hpreview
      rw [hpreview, hcount, if_pos rfl]
      split
      · next hnone => exact iff_of_true rfl hnone
      · next hnone => exact iff_of_false (some_ne_none 0) hnone

/-- Without an encoder's frames a recording ends with every buffer accounted for. -/
theorem Session.Inv.stopVideoCapture (h : s.Inv) (hcare : s.Careful .stopVideoCapture) :
    ∃ ret a, ∃ bufs : List Address, s.adapter.stopVideoCapture = some (ret, a) ∧
      (s.after a s.held s.withoutVideo).Inv ∧
      a.filled = bufs.map (fun b => (b, .VIDEO_FRAME_SYNC)) ++ s.adapter.filled ∧ bufs.Nodup ∧
      (∀ b, b ∈ bufs ↔ 0 < s.outstanding b ∧ (s.after a s.held s.withoutVideo).outstanding b = 0) ∧
      ((s.adapter.mRecording = true → ∀ b ∈ s.adapter.mVideoBuffersAvailable.keys,
        s.refs b .video = 0) → a.numbers = s.adapter.numbers) := by
  cases hrec : s.adapter.mRecording with
  | false =>
    have hrefs : s.withoutVideo = s.refs := by
      funext b k
      rw [Session.withoutVideo, hrec]
      exact if_neg (by simp)
    refine ⟨NO_INIT, s.adapter, [], ?_, ?_, rfl, .nil, fun b => ?_, fun _ => rfl⟩
    · rw [Adapter.stopVideoCapture, hrec]
      rfl
    · rw [hrefs]
      exact h
    · refine iff_of_false not_mem_nil fun hlast => ?_
      rw [hrefs] at hlast
      exact absurd hlast.2 (pos_iff_ne_zero.mp hlast.1)
  | true =>
    have hfree : ∀ b ∈ s.adapter.mVideoBuffersAvailable.keys, s.VideoFree b := fun b hb =>
      have hcond := hcare hrec b hb
      ⟨KeyedVector.mem_keys.mp hb, hcond.1, hcond.2.1, hcond.2.2⟩
    obtain ⟨a, bufs, hback⟩ := h.takesBack _ (KeyedVector.keys_nodup _) hfree
    have hvideo : ∀ b, s.withoutVideo b .video = 0 := fun b => if_pos ⟨hrec, rfl⟩
    have hother : ∀ b k, k ≠ .video → s.withoutVideo b k = s.refs b k := fun b k hk =>
      if_neg fun heq => hk heq.2
    have hkey : ∀ b, 0 < s.refs b .video → b ∈ s.adapter.mVideoBuffersAvailable.keys :=
      fun b hpos => KeyedVector.mem_keys.mpr (h.entries b .video hpos)
    have hrefs : s.takenBack s.adapter.mVideoBuffersAvailable.keys = s.withoutVideo := by
      funext b k
      by_cases hk : k = .video
      · subst hk
        rw [hvideo, Session.takenBack]
        split
        · rfl
        · next hno =>
          by_contra hpos
          exact hno ⟨rfl, hkey b (pos_of_ne_zero hpos)⟩
      · rw [hother b k hk, Session.takenBack, if_neg fun heq => hk heq.1]
    have hinv := hback.inv
    rw [hrefs] at hinv
    refine ⟨NO_ERROR, { a with mVideoBuffersAvailable := .empty, mRecording := false }, bufs,
      ?_, ?_, hback.filled, hback.nodup, fun b => ?_, fun hall => hback.numbers (hall rfl)⟩
    · rw [Adapter.stopVideoCapture, hrec]
      change (foldlM Adapter.takeVideoFrame s.adapter _).bind _ = _
      rw [hback.ran]
      rfl
    · refine { hinv with
        counts := fun b k n hn => ?_
        entries := fun b k hpos => ?_
        recording := fun hrec => absurd hrec Bool.false_ne_true
        idle := fun _ _ => rfl }
      · cases k with
        | video => cases hn
        | preview => exact hinv.counts b .preview n hn
        | capture => exact hinv.counts b .capture n hn
        | previewData => exact hinv.counts b .previewData n hn
      · cases k with
        | video => exact absurd (hvideo b) (pos_iff_ne_zero.mp hpos)
        | preview => exact hinv.entries b .preview hpos
        | capture => exact hinv.entries b .capture hpos
        | previewData => exact hinv.entries b .previewData hpos
    · rw [hback.mem]
      change _ ↔ 0 < s.outstanding b ∧ s.withoutVideo b .preview + s.withoutVideo b .video +
        s.withoutVideo b .capture + s.withoutVideo b .previewData = 0
      rw [hvideo, hother b .preview (by decide), hother b .capture (by decide),
        hother b .previewData (by decide)]
      have hone : s.refs b .video ≤ 1 := by
        by_contra hmore
        have hpos : 0 < s.refs b .video := by omega
        exact hmore (hfree b (hkey b hpos)).one
      have hsum : s.outstanding b = s.refs b .preview + s.refs b .video + s.refs b .capture +
        s.refs b .previewData := rfl
      constructor
      · rintro ⟨-, hpos, hlast⟩
        omega
      · rintro ⟨hpos, hzero⟩
        have hrefs' : 0 < s.refs b .video := by omega
        exact ⟨hkey b hrefs', hrefs', by omega⟩

/-! ## Events -/

/-- An event that leaves counts and recording alone. -/
theorem Session.Inv.of_counts (h : s.Inv) {a : Adapter}
    (hcount : ∀ b k, a.count b k = s.adapter.count b k)
    (hrec : a.mRecording = s.adapter.mRecording) : Session.Inv { s with adapter := a } :=
  { h with
    counts := fun b k n hn => h.counts b k n ((hcount b k).symm.trans hn)
    entries := fun b k hpos => (hcount b k).symm ▸ h.entries b k hpos
    recording := fun hrec' b => by
      change a.count b .video = none ↔ a.count b .preview = none
      rw [hcount, hcount]
      exact h.recording (hrec.symm.trans hrec') b
    idle := fun hrec' b => (hcount b .video).trans (h.idle (hrec.symm.trans hrec') b) }

theorem countersRight_of {a : Adapter} (h : s.CountersRight)
    (hnumbers : a.numbers = s.adapter.numbers) (hheld : t.held = s.held)
    (hadapter : t.adapter = a) : t.CountersRight := by
  obtain ⟨hdisplay, hencoder⟩ := Prod.mk.inj hnumbers
  rw [Session.CountersRight, hheld, hadapter, hdisplay, hencoder]
  exact h

/-- The numbers after a frame is given back. -/
theorem Session.CountersRight.givenBack (h : s.CountersRight) (hheld : (b, frameType) ∈ s.held)
    {a : Adapter} {refs : Address → Pool → Nat}
    (hnumbers : a.numbers = (s.adapter.countReturn frameType).numbers) :
    (s.after a (s.held.erase (b, frameType)) refs).CountersRight := by
  obtain ⟨hdisplay, hencoder⟩ := h
  -- one frame of the type less, in a number of 32 bits
  have hone : ∀ p : FrameType → Prop, [DecidablePred p] → p frameType →
      BitVec.ofNat 32 ((s.held.erase (b, frameType)).countP fun frame => p frame.2) =
        BitVec.ofNat 32 (s.held.countP fun frame => p frame.2) - 1 := by
    intro p _ hp
    have hpos : 0 < s.held.countP fun frame => p frame.2 :=
      countP_pos_iff.mpr ⟨(b, frameType), hheld, by simpa using hp⟩
    rw [countP_erase, if_pos ⟨hheld, by simpa using hp⟩]
    obtain ⟨n, hn⟩ := exists_eq_succ_of_ne_zero (pos_iff_ne_zero.mp hpos)
    rw [hn, succ_sub_one, succ_eq_add_one, BitVec.ofNat_add]
    exact (BitVec.add_sub_cancel _ _).symm
  have hsame : ∀ p : FrameType → Prop, [DecidablePred p] → ¬ p frameType →
      ((s.held.erase (b, frameType)).countP fun frame => p frame.2) =
        s.held.countP fun frame => p frame.2 := by
    intro p _ hp
    rw [countP_erase, if_neg fun hand => hp (by simpa using hand.2)]
    rfl
  obtain ⟨hdisplay', hencoder'⟩ := Prod.mk.inj hnumbers
  change a.mFramesWithDisplay = _ ∧ a.mFramesWithEncoder = _
  rw [hdisplay', hencoder']
  cases frameType
  case PREVIEW_FRAME_SYNC =>
    exact ⟨(congrArg (· - 1) hdisplay).trans (hone (· = .PREVIEW_FRAME_SYNC) rfl).symm,
      hencoder.trans (congrArg _ (hsame (· = .VIDEO_FRAME_SYNC) nofun).symm)⟩
  case VIDEO_FRAME_SYNC =>
    exact ⟨hdisplay.trans (congrArg _ (hsame (· = .PREVIEW_FRAME_SYNC) nofun).symm),
      (congrArg (· - 1) hencoder).trans (hone (· = .VIDEO_FRAME_SYNC) rfl).symm⟩
  all_goals
    exact ⟨hdisplay.trans (congrArg _ (hsame (· = .PREVIEW_FRAME_SYNC) nofun).symm),
      hencoder.trans (congrArg _ (hsame (· = .VIDEO_FRAME_SYNC) nofun).symm)⟩

/-- What an event leads to, if it meets the condition. -/
structure Follows (s : Session) (event : Event) (t : Session) : Prop where
  step : s.step event = some t
  inv : t.Inv
  handsBack : s.HandsBack t event
  counters : s.Silent event → s.CountersRight → t.CountersRight

theorem Follows.arrive (h : s.Inv) {mask : Nat} (hcare : s.Careful (.arrive b mask)) :
    Follows s (.arrive b mask) (s.arrive b mask) := by
  have hsets := setInitFrameRefCount_sets s.adapter b mask
  exact ⟨rfl, h.arrive hcare, hsets.filled, fun _ hright =>
    countersRight_of hright hsets.numbers rfl rfl⟩

theorem Follows.send (h : s.Inv) (hcare : s.Careful .send) : ∃ t, Follows s .send t := by
  obtain ⟨t, ht, hinv, hadapter, hgives⟩ := h.send hcare
  refine ⟨t, ht, hinv, congrArg Adapter.filled hadapter, fun hsilent hright => ?_⟩
  rcases hgives with hheld | ⟨b, frameType, callback, callbacks, todo, hnull, hdelivery, hheld⟩
  · exact countersRight_of hright (congrArg Adapter.numbers hadapter) hheld rfl
  · rw [Session.Silent, hdelivery] at hsilent
    obtain ⟨hpreview, hvideo⟩ := hsilent hnull
    rw [Session.CountersRight, hheld, hadapter, countP_cons_of_neg (by simpa using hpreview),
      countP_cons_of_neg (by simpa using hvideo)]
    exact hright

theorem Follows.returnFrame (h : s.Inv) (hheld : (b, frameType) ∈ s.held) :
    ∃ t, Follows s (.returnFrame b frameType) t := by
  obtain ⟨k, hpool, -, hrefs⟩ := h.refs_of_held hheld
  obtain ⟨a, hdrop⟩ := h.drops hpool hrefs
  have hinv : (s.after a (s.held.erase (b, frameType)) (s.givenBack b frameType)).Inv :=
    h.givenBack hpool hrefs hdrop (h.holders_erase hheld hpool) fun frame hmem =>
      h.pooled frame (mem_of_mem_erase hmem)
  have hless := Session.outstanding_givenBack a (s.held.erase (b, frameType)) hpool hrefs
  refine ⟨_, ?_, hinv, ?_, fun _ hright => hright.givenBack hheld hdrop.numbers⟩
  · rw [Session.step, hdrop.returned]
    rfl
  · rw [Session.HandsBack]
    split
    · next hzero =>
      refine ⟨?_, hinv.free hzero⟩
      change a.filled = _
      rw [hdrop.filled, if_pos (by omega)]
    · next hsome =>
      change a.filled = _
      rw [hdrop.filled, if_neg (by omega)]

theorem Follows.stopVideoCapture (h : s.Inv) (hcare : s.Careful .stopVideoCapture) :
    ∃ t, Follows s .stopVideoCapture t := by
  obtain ⟨ret, a, bufs, hstop, hinv, hfilled, hnodup, hmem, hnumbers⟩ := h.stopVideoCapture hcare
  refine ⟨s.after a s.held s.withoutVideo, ?_, hinv,
    ⟨bufs, hfilled, hnodup, hmem, fun b hb => hinv.free ((hmem b).mp hb).2⟩, fun hsilent hright =>
      countersRight_of hright (hnumbers hsilent) rfl rfl⟩
  rw [Session.step, hstop]
  rfl

/-- An event that changes neither counts nor buffers. -/
theorem Follows.other (h : s.Inv) (a : Adapter) (hcount : ∀ b k, a.count b k = s.adapter.count b k)
    (hrec : a.mRecording = s.adapter.mRecording)
    (hstep : s.step event = some { s with adapter := a })
    (hfilled : s.HandsBack { s with adapter := a } event)
    (hnumbers : a.numbers = s.adapter.numbers) : ∃ t, Follows s event t :=
  ⟨_, hstep, h.of_counts hcount hrec, hfilled, fun _ hright =>
    countersRight_of hright hnumbers rfl rfl⟩

theorem step_follows (h : s.Inv) (henabled : s.Enabled event) (hcare : s.Careful event) :
    ∃ t, Follows s event t := by
  cases event with
  | enableMsgType msgs callback cookie =>
    refine Follows.other h (s.adapter.enableMsgType msgs callback cookie) ?_ ?_ rfl ?_ ?_ <;>
    · cases msgs <;> intros <;> rfl
  | disableMsgType msgs cookie =>
    refine Follows.other h (s.adapter.disableMsgType msgs cookie) ?_ ?_ rfl ?_ ?_ <;>
    · cases msgs <;> intros <;> rfl
  | disableAllFrames cookie =>
    exact Follows.other h (s.adapter.disableAllFrames cookie) (fun _ _ => rfl) rfl rfl rfl rfl
  | addFramePointers b buf =>
    obtain ⟨queue, hqueue⟩ : ∃ queue,
        s.adapter.addFramePointers b buf = { s.adapter with mFrameQueue := queue } := by
      unfold Adapter.addFramePointers
      split
      · split
        · exact ⟨_, rfl⟩
        · exact ⟨_, rfl⟩
      · exact ⟨_, rfl⟩
    refine Follows.other h { s.adapter with mFrameQueue := queue } (fun _ _ => rfl) rfl ?_ rfl rfl
    rw [Session.step, hqueue]
  | removeFramePointers =>
    exact Follows.other h s.adapter.removeFramePointers (fun _ _ => rfl) rfl rfl rfl rfl
  | arrive b mask => exact ⟨_, .arrive h hcare⟩
  | send => exact Follows.send h hcare
  | returnFrame b frameType => exact Follows.returnFrame h henabled
  | startVideoCapture =>
    refine ⟨_, rfl, h.startVideoCapture, ?_, fun _ hright => countersRight_of hright ?_ rfl rfl⟩
    · change s.adapter.startVideoCapture.2.filled = s.adapter.filled
      rw [Adapter.startVideoCapture]
      split <;> rfl
    · rw [Adapter.startVideoCapture]
      split <;> rfl
  | stopVideoCapture => exact Follows.stopVideoCapture h hcare

/-! ## Runs -/

/-- The frames that the providers of buffers hold in the beginning. -/
def Adapter.provided (a : Adapter) : List (Address × FrameType) :=
  (a.mPreviewBuffersAvailable.entries.filter fun e => 0 < e.2).map
      (fun e => (e.1, .PREVIEW_FRAME_SYNC)) ++
    (a.mCaptureBuffersAvailable.entries.filter fun e => e.2).map (fun e => (e.1, .IMAGE_FRAME)) ++
    (a.mPreviewDataBuffersAvailable.entries.filter fun e => e.2).map
      (fun e => (e.1, .FRAME_DATA_SYNC))

/-- A session with an adapter that has just been given its buffers. -/
def Session.start (a : Adapter) : Session where
  adapter := a
  delivery := none
  held := a.provided
  refs b k := ((a.count b k).getD 0).toNat

/-- Buffers as they are supplied: not while recording, and each by one provider. -/
structure Adapter.Supplied (a : Adapter) : Prop where
  idle : a.mRecording = false
  video : a.mVideoBuffersAvailable = .empty
  nonneg : ∀ b n, a.mPreviewBuffersAvailable.valueFor b = some n → 0 ≤ n
  null : ∀ k, a.count 0 k = none
  together : ∀ b k k', 0 < (a.count b k).getD 0 → 0 < (a.count b k').getD 0 →
    k.buffers = k'.buffers

/-- A provider holds a frame of a buffer once at most, and only if its vector says so. -/
theorem countP_provided {α : Type} (v : KeyedVector Address α) (q : α → Bool)
    (frameType : FrameType) (b : Address) (k : Pool) :
    ((v.entries.filter fun e => q e.2).map fun e => (e.1, frameType)).countP
        (fun frame => frame.1 = b ∧ frame.2.pool = some k) ≤ 1 ∧
      (0 < ((v.entries.filter fun e => q e.2).map fun e => (e.1, frameType)).countP
          (fun frame => frame.1 = b ∧ frame.2.pool = some k) →
        frameType.pool = some k ∧ ∃ x, v.valueFor b = some x ∧ q x = true) := by
  constructor
  · rw [countP_map, countP_filter]
    refine le_trans (countP_mono_left fun e _ he => ?_) (v.countP_key_le b)
    simp only [comp_apply, Bool.and_eq_true, decide_eq_true_iff] at he ⊢
    exact he.1.1
  · intro hpos
    obtain ⟨frame, hmem, hframe⟩ := countP_pos_iff.mp hpos
    obtain ⟨e, he, rfl⟩ := mem_map.mp hmem
    obtain ⟨hentry, hq⟩ := mem_filter.mp he
    obtain ⟨rfl, hpool⟩ := of_decide_eq_true hframe
    exact ⟨hpool, e.2, KeyedVector.valueFor_of_mem hentry, hq⟩

theorem Adapter.provided_pool {a : Adapter} {frame : Address × FrameType}
    (h : frame ∈ a.provided) : frame.2.pool ≠ none := by
  rw [Adapter.provided, mem_append, mem_append] at h
  rcases h with (h | h) | h <;>
  · obtain ⟨e, -, rfl⟩ := mem_map.mp h
    exact some_ne_none _

/-- What one provider holds, its counts stand for. -/
theorem countP_provided_le {α : Type} (v : KeyedVector Address α) (q : α → Bool)
    (frameType : FrameType) {a : Adapter} (k : Pool) (hpool : frameType.pool = some k')
    (hcount : ∀ x, v.valueFor b = some x → q x = true → 0 < (a.count b k').getD 0) :
    ((v.entries.filter fun e => q e.2).map fun e => (e.1, frameType)).countP
        (fun frame => frame.1 = b ∧ frame.2.pool = some k) ≤
      if k = k' then (Session.start a).refs b k' else 0 := by
  obtain ⟨hle, hpos⟩ := countP_provided v q frameType b k
  rcases Nat.eq_zero_or_pos (((v.entries.filter fun e => q e.2).map fun e =>
    (e.1, frameType)).countP fun frame => frame.1 = b ∧ frame.2.pool = some k) with hzero | hsome
  · rw [hzero]
    exact zero_le _
  · obtain ⟨hk, x, hx, hq⟩ := hpos hsome
    obtain rfl := some.inj (hpool.symm.trans hk)
    rw [if_pos rfl]
    exact Nat.le_trans hle (Int.lt_toNat.mpr (hcount x hx hq))

theorem Adapter.holding_provided (a : Adapter) (b : Address) (k : Pool) :
    (Session.start a).holding b k ≤ (Session.start a).refs b k := by
  have hpreview := countP_provided_le (b := b) a.mPreviewBuffersAvailable (0 < ·)
    .PREVIEW_FRAME_SYNC k rfl (a := a) fun n hn hq => by
      rw [Adapter.count, hn]
      exact of_decide_eq_true hq
  have hcapture := countP_provided_le (b := b) a.mCaptureBuffersAvailable id .IMAGE_FRAME k rfl
    (a := a) fun x hx hq => by
      rw [Adapter.count, hx, show x = true from hq]
      decide
  have hdata := countP_provided_le (b := b) a.mPreviewDataBuffersAvailable id .FRAME_DATA_SYNC k
    rfl (a := a) fun x hx hq => by
      rw [Adapter.count, hx, show x = true from hq]
      decide
  change (_ ++ _ ++ _ : List _).countP _ ≤ _
  rw [countP_append, countP_append]
  refine Nat.le_trans (Nat.add_le_add (Nat.add_le_add hpreview hcapture) hdata) ?_
  cases k <;> simp

theorem start_inv {a : Adapter} (h : a.Supplied) : (Session.start a).Inv := by
  have hvideo : ∀ b, a.count b .video = none := fun b => by
    rw [Adapter.count, h.video]
    rfl
  have hnonneg : ∀ b k n, a.count b k = some n → 0 ≤ n := by
    intro b k n hn
    cases k with
    | preview => exact h.nonneg b n hn
    | video => cases (hvideo b).symm.trans hn
    | capture | previewData =>
      obtain ⟨x, -, rfl⟩ := map_eq_some_iff.mp hn
      exact Int.natCast_nonneg _
  have hpos : ∀ b k, 0 < (Session.start a).refs b k ↔ 0 < (a.count b k).getD 0 :=
    fun b k => Int.lt_toNat
  refine ⟨fun b k n hn => ?_, fun b k hrefs hnone => ?_, fun b k => ?_, fun b k k' hk hk' => ?_,
    fun hrec => ?_, fun _ => hvideo, fun k => ?_, fun frame hmem => ?_,
    fun b frameType callbacks todo h => ?_⟩
  · change n = ((((a.count b k).getD 0).toNat : Nat) : Int)
    change a.count b k = some n at hn
    rw [hn, getD_some, Int.toNat_of_nonneg (hnonneg b k n hn)]
  · rw [hpos] at hrefs
    change a.count b k = none at hnone
    rw [hnone] at hrefs
    exact absurd hrefs (by decide)
  · exact a.holding_provided b k
  · exact h.together b k k' ((hpos b k).mp hk) ((hpos b k').mp hk')
  · cases hrec.symm.trans h.idle
  · change ((a.count 0 k).getD 0).toNat = 0
    rw [h.null]
    rfl
  · exact Adapter.provided_pool hmem
  · cases h

theorem recycled_once (a : Adapter) (events : List Event) (hstart : a.Supplied)
    (hrun : AlongSome Session.step Session.Enabled (.start a) events)
    (hcare : AlongSome Session.step Session.Careful (.start a) events) :
    AlongSome Session.step Session.Recycles (.start a) events ∧
      ((Session.start a).CountersRight → AlongSome Session.step Session.Silent (.start a) events →
        AlongSome Session.step (fun s event => ∀ t, s.step event = some t → t.CountersRight)
          (.start a) events) := by
  have hnext : ∀ s event t, s.Inv → s.Enabled event → s.Careful event → s.step event = some t →
      Follows s event t := by
    intro s event t hinv henabled hcareful ht
    obtain ⟨u, hu⟩ := step_follows hinv henabled hcareful
    obtain rfl := some.inj (hu.step.symm.trans ht)
    exact hu
  constructor
  · refine hrun.mono_invariant hcare (start_inv hstart) ?_ ?_
    · intro s event hinv henabled hcareful
      obtain ⟨t, ht⟩ := step_follows hinv henabled hcareful
      exact ⟨t, ht.step, ht.handsBack⟩
    · intro s event t hinv henabled hcareful ht
      exact (hnext s event t hinv henabled hcareful ht).inv
  · intro hright hsilent
    refine hrun.mono_invariant (hcare.and hsilent) (I := fun s => s.Inv ∧ s.CountersRight)
      ⟨start_inv hstart, hright⟩ ?_ ?_
    · intro s event hI henabled hok t ht
      exact (hnext s event t hI.1 henabled hok.1 ht).counters hok.2 hI.2
    · intro s event t hI henabled hok ht
      have hfollows := hnext s event t hI.1 henabled hok.1 ht
      exact ⟨hfollows.inv, hfollows.counters hok.2 hI.2⟩

/-- An adapter with two buffers for image capture. -/
def captureAdapter : Adapter :=
  { Adapter.construct .INTIALIZED_STATE 0 0 with
    mCaptureBuffersAvailable := (KeyedVector.empty.add 1 false).add 2 false }

/-- Two image frames go to their subscriber, and come back the other way round, the second one
while it is sent. -/
def captureRun : List Event :=
  [.enableMsgType .IMAGE_FRAME 9 7, .arrive 1 8, .send, .send, .send, .send, .arrive 2 8, .send,
    .send, .returnFrame 2 .IMAGE_FRAME, .send, .returnFrame 1 .IMAGE_FRAME]

theorem captureAdapter_supplied : captureAdapter.Supplied := by
  have hcount : ∀ b k, ¬ 0 < (captureAdapter.count b k).getD 0 := by
    intro b k
    cases k with
    | preview | video | previewData => exact Int.lt_irrefl 0
    | capture =>
      change ¬ 0 < (Option.map _ (KeyedVector.valueFor _ b)).getD 0
      rw [captureAdapter, KeyedVector.valueFor_add, KeyedVector.valueFor_add]
      split
      · exact Int.lt_irrefl 0
      · split <;> exact Int.lt_irrefl 0
  exact ⟨rfl, rfl, nofun, fun k => by cases k <;> rfl, fun b k _ h => absurd h (hcount b k)⟩

theorem captured_images_recycled :
    AlongSome Session.step Session.Recycles (.start captureAdapter) captureRun ∧
      AlongSome Session.step (fun s event => ∀ t, s.step event = some t → t.CountersRight)
        (.start captureAdapter) captureRun := by
  have hrun : AlongSome Session.step Session.Enabled (.start captureAdapter) captureRun := by
    refine .cons rfl rfl (.cons rfl rfl (.cons nofun rfl (.cons nofun rfl ?_)))
    refine .cons nofun rfl (.cons nofun rfl ?_)
    refine .cons rfl rfl (.cons nofun rfl (.cons nofun rfl ?_))
    refine .cons mem_cons_self rfl (.cons nofun rfl ?_)
    exact ⟨mem_cons_self, fun _ _ => trivial⟩
  have hcare : AlongSome Session.step Session.Careful (.start captureAdapter) captureRun := by
    refine .cons trivial rfl (.cons ?_ rfl (.cons ?_ rfl (.cons trivial rfl ?_)))
    · exact ⟨fun k => by cases k <;> decide, fun k k' => by cases k <;> cases k' <;> decide⟩
    · intro subscribers hsubs
      cases hsubs
      exact ⟨by decide, fun _ _ k => by cases k <;> decide⟩
    refine .cons trivial rfl
      (.cons trivial rfl (.cons ?_ rfl (.cons ?_ rfl (.cons trivial rfl ?_))))
    · exact ⟨fun k => by cases k <;> decide, fun k k' => by cases k <;> cases k' <;> decide⟩
    · intro subscribers hsubs
      cases hsubs
      exact ⟨by decide, fun _ _ k => by cases k <;> decide⟩
    exact .cons trivial rfl (.cons trivial rfl ⟨trivial, fun _ _ => trivial⟩)
  have hsilent : AlongSome Session.step Session.Silent (.start captureAdapter) captureRun := by
    refine .cons trivial rfl (.cons trivial rfl (.cons trivial rfl (.cons ?_ rfl ?_)))
    · exact fun _ => by decide
    refine .cons trivial rfl (.cons trivial rfl ?_)
    refine .cons trivial rfl (.cons trivial rfl (.cons ?_ rfl ?_))
    · exact fun _ => by decide
    exact .cons trivial rfl (.cons trivial rfl ⟨trivial, fun _ _ => trivial⟩)
  obtain ⟨hrecycles, hcounters⟩ :=
    recycled_once captureAdapter captureRun captureAdapter_supplied hrun hcare
  exact ⟨hrecycles, hcounters ⟨rfl, rfl⟩ hsilent⟩

/-- An adapter with one buffer for the preview. -/
def previewAdapter : Adapter :=
  { Adapter.construct .INTIALIZED_STATE 0 0 with
    mPreviewBuffersAvailable := KeyedVector.empty.add 1 0 }

/-- A recording ends while an encoder holds a frame: the buffer goes back to the camera, the encoder
still has it, and the frames with the encoder were never counted. -/
theorem recycled_while_held : ∃ t, [.addFramePointers 1 (some (0, 0)),
      .enableMsgType .VIDEO_FRAME_SYNC 9 7, .startVideoCapture, .arrive 1 16, .send, .send,
      .stopVideoCapture].foldlM Session.step (.start previewAdapter) = some t ∧
    (1, .VIDEO_FRAME_SYNC) ∈ t.held ∧ t.adapter.filled = [(1, .VIDEO_FRAME_SYNC)] ∧
    ¬ t.CountersRight := by
  refine ⟨_, rfl, mem_cons_self, rfl, ?_⟩
  rintro ⟨-, hencoder⟩
  exact absurd hencoder (by decide)

end OmapHal.Camera
