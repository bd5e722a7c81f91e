import OmapHal.Camera.Counts

/-!
# References and their holders

Each count stands for the references of its buffer, and no more frames are with subscribers than
there are references. A return drops one reference; with the last one the buffer goes back to the
adapter.
-/

namespace OmapHal.Camera

open List Nat Option

variable {a : Adapter}

variable {s : Session} {b b' : Address} {frameType : FrameType} {k k' : Pool}

/-- Recording uses the buffers of the preview. -/
def Pool.buffers : Pool → Pool
  | .video => .preview
  | k => k

/-- The references of a buffer. -/
def Session.outstanding (s : Session) (frameBuf : Address) : Nat :=
  s.refs frameBuf .preview + s.refs frameBuf .video + s.refs frameBuf .capture +
    s.refs frameBuf .previewData

/-- The frames of a buffer that subscribers hold by references of a pool. -/
def Session.holding (s : Session) (frameBuf : Address) (pool : Pool) : Nat :=
  s.held.countP fun frame => frame.1 = frameBuf ∧ frame.2.pool = some pool

/-- The frames that the loop over callbacks has still to give out. -/
def Delivery.pending (frameBuf : Address) (pool : Pool) : Option Delivery → Nat
  | some (.calling frameBuf' frameType callbacks _) =>
    if frameBuf' = frameBuf ∧ frameType.pool = some pool then callbacks.length else 0
  | _ => 0

/-- What every event keeps. -/
structure Session.Inv (s : Session) : Prop where
  counts : ∀ b k n, s.adapter.count b k = some n → n = s.refs b k
  entries : ∀ b k, 0 < s.refs b k → s.adapter.count b k ≠ none
  holders : ∀ b k, s.holding b k + Delivery.pending b k s.delivery ≤ s.refs b k
  together : ∀ b k k', 0 < s.refs b k → 0 < s.refs b k' → k.buffers = k'.buffers
  recording : s.adapter.mRecording = true →
    ∀ b, s.adapter.count b .video = none ↔ s.adapter.count b .preview = none
  idle : s.adapter.mRecording = false → ∀ b, s.adapter.count b .video = none
  null : ∀ k, s.refs 0 k = 0
  pooled : ∀ frame ∈ s.held, frame.2.pool ≠ none
  calling : ∀ b frameType callbacks todo,
    s.delivery = some (.calling b frameType callbacks todo) → frameType.pool ≠ none

/-! ### Returns -/

/-- The count of a buffer with references. -/
theorem Session.Inv.count_eq (h : s.Inv) (hrefs : 0 < s.refs b k) :
    s.adapter.count b k = some (s.refs b k : Int) := by
  obtain ⟨n, hn⟩ := ne_none_iff_exists'.mp (h.entries b k hrefs)
  rw [hn, h.counts b k n hn]

/-- Where references of one pool are out, those of the others are in the pool that a return looks
at, too. -/
theorem Session.Inv.other_eq (h : s.Inv) (hrefs : 0 < s.refs b k) :
    ∃ m : Nat, (if s.adapter.mRecording then k.other.elim (some 0) (s.adapter.count b)
      else some 0) = some (m : Int) ∧ s.refs b k + m = s.outstanding b := by
  have hzero : ∀ k', k'.buffers ≠ k.buffers → s.refs b k' = 0 := by
    intro k' hne
    by_contra hpos
    exact hne (h.together b k' k (pos_of_ne_zero hpos) hrefs)
  have hidle : s.adapter.mRecording = false → s.refs b .video = 0 := by
    intro hrec
    by_contra hpos
    exact h.entries b .video (pos_of_ne_zero hpos) (h.idle hrec b)
  have hthere : ∀ k', s.adapter.count b k' ≠ none →
      s.adapter.count b k' = some (s.refs b k' : Int) := by
    intro k' hne
    obtain ⟨n, hn⟩ := ne_none_iff_exists'.mp hne
    rw [hn, h.counts b k' n hn]
  have hentry := h.entries b k hrefs
  cases hrec : s.adapter.mRecording with
  | false =>
    have hvideo := hidle hrec
    refine ⟨0, rfl, ?_⟩
    rw [Session.outstanding, hvideo]
    cases k with
    | preview => rw [hzero .capture nofun, hzero .previewData nofun]
    | video => exact absurd hvideo (pos_iff_ne_zero.mp hrefs)
    | capture => rw [hzero .preview nofun, hzero .previewData nofun, Nat.zero_add]
    | previewData =>
      have hpreview := hzero .preview nofun
      have hcapture := hzero .capture nofun
      omega
  | true =>
    rw [Session.outstanding]
    cases k with
    | preview =>
      have hvideo : s.adapter.count b .video ≠ none := fun hnone =>
        hentry ((h.recording hrec b).mp hnone)
      refine ⟨s.refs b .video, hthere .video hvideo, ?_⟩
      rw [hzero .capture nofun, hzero .previewData nofun, Nat.add_zero]
    | video =>
      have hpreview : s.adapter.count b .preview ≠ none := fun hnone =>
        hentry ((h.recording hrec b).mpr hnone)
      refine ⟨s.refs b .preview, hthere .preview hpreview, ?_⟩
      rw [hzero .capture nofun, hzero .previewData nofun, Nat.add_zero, Nat.add_comm]
    | capture =>
      refine ⟨0, rfl, ?_⟩
      rw [hzero .preview nofun, hzero .video nofun, hzero .previewData nofun, Nat.zero_add]
    | previewData =>
      refine ⟨0, rfl, ?_⟩
      have hpreview := hzero .preview nofun
      have hvideo := hzero .video nofun
      have hcapture := hzero .capture nofun
      omega

/-- What a return does with counts and buffers, in terms of references. -/
structure Drops (s : Session) (b : Address) (frameType : FrameType) (k : Pool) (a : Adapter) :
    Prop where
  returned : s.adapter.returnFrame b frameType = some a
  counts : ∀ b' k', a.count b' k' =
    if b' = b ∧ k' = k then some (s.refs b k - 1 : Int) else s.adapter.count b' k'
  recording : a.mRecording = s.adapter.mRecording
  filled : a.filled =
    if s.outstanding b = 1 then (b, frameType) :: s.adapter.filled else s.adapter.filled
  numbers : a.numbers = (s.adapter.countReturn frameType).numbers

theorem Session.Inv.drops (h : s.Inv) (hpool : frameType.pool = some k) (hrefs : 0 < s.refs b k) :
    ∃ a, Drops s b frameType k a := by
  have hb : b ≠ 0 := by
    rintro rfl
    rw [h.null k] at hrefs
    cases hrefs
  have hn := h.count_eq hrefs
  have hpos : (0 : Int) < s.refs b k := Int.natCast_pos.mpr hrefs
  obtain ⟨m, hother, hm⟩ := h.other_eq hrefs
  have hrec : (s.adapter.dropped b frameType (s.refs b k)).mRecording = s.adapter.mRecording :=
    (control_eq_iff.mp (control_dropped s.adapter b frameType _)).2.2
  -- the other count is not the one that has changed
  have hsame : k.other.elim (some 0) ((s.adapter.dropped b frameType (s.refs b k)).count b) =
      k.other.elim (some 0) (s.adapter.count b) := by
    cases k <;> simp [Pool.other, count_dropped hpool hn hpos]
  have hdropped : (s.adapter.dropped b frameType (s.refs b k)).otherRefCount b frameType =
      some (m : Int) := by
    rw [otherRefCount_of_pool hpool, hrec, hsame, hother]
  have hreturn := returnFrame_of_count hpool hb hn hpos hdropped
  have hlast : (s.refs b k : Int) - 1 + m = 0 ↔ s.outstanding b = 1 := by omega
  refine ⟨_, hreturn, fun b' k' => ?_, ?_, ?_, ?_⟩
  · split
    · rw [count_fillThisBuffer, count_dropped hpool hn hpos]
    · exact count_dropped hpool hn hpos
  · split
    · exact hrec
    · exact hrec
  · have hfilled : (s.adapter.dropped b frameType (s.refs b k)).filled = s.adapter.filled := by
      rw [Adapter.dropped, filled_setFrameRefCount, filled_countReturn]
    by_cases hone : s.outstanding b = 1
    · rw [if_pos (hlast.mpr hone), if_pos hone, ← hfilled]
      rfl
    · rw [if_neg (mt hlast.mp hone), if_neg hone, hfilled]
  · split
    · exact numbers_setFrameRefCount
    · exact numbers_setFrameRefCount

theorem Drops.count_none (h : Drops s b frameType k a) (hinv : s.Inv)
    (hrefs : 0 < s.refs b k) (b' : Address) (k' : Pool) :
    a.count b' k' = none ↔ s.adapter.count b' k' = none := by
  rw [h.counts]
  split
  · next heq =>
    obtain ⟨rfl, rfl⟩ := heq
    exact iff_of_false (some_ne_none _) (hinv.entries b' k' hrefs)
  · exact Iff.rfl

theorem Session.givenBack_of_pool (hpool : frameType.pool = some k) :
    s.givenBack b frameType b' k' =
      if b' = b ∧ k' = k then s.refs b k - 1 else s.refs b' k' := by
  by_cases heq : b' = b ∧ k' = k
  · obtain ⟨rfl, rfl⟩ := heq
    rw [Session.givenBack, if_pos ⟨rfl, hpool⟩, if_pos ⟨rfl, rfl⟩]
  · rw [Session.givenBack, if_neg heq, if_neg]
    rintro ⟨rfl, hk⟩
    exact heq ⟨rfl, some.inj (hk.symm.trans hpool)⟩

theorem Session.givenBack_le : s.givenBack b frameType b' k' ≤ s.refs b' k' := by
  rw [Session.givenBack]
  split
  · exact sub_le _ 1
  · exact le_refl _

/-- The session after a reference is given back. -/
def Session.after (s : Session) (a : Adapter) (held : List (Address × FrameType))
    (refs : Address → Pool → Nat) : Session :=
  { s with adapter := a, held := held, refs := refs }

/-- Giving a reference back keeps the invariant, if no holder is left without one. -/
theorem Session.Inv.givenBack (h : s.Inv) {held : List (Address × FrameType)}
    (hpool : frameType.pool = some k) (hrefs : 0 < s.refs b k) (hdrop : Drops s b frameType k a)
    (hheld : ∀ b' k', (s.after a held (s.givenBack b frameType)).holding b' k' +
      Delivery.pending b' k' s.delivery ≤ s.givenBack b frameType b' k')
    (hpooled : ∀ frame ∈ held, frame.2.pool ≠ none) :
    (s.after a held (s.givenBack b frameType)).Inv where
  counts b' k' n hn := by
    change a.count b' k' = some n at hn
    change n = (s.givenBack b frameType b' k' : Int)
    rw [hdrop.counts] at hn
    rw [Session.givenBack_of_pool hpool]
    split at hn
    · next heq =>
      rw [if_pos heq, ← some.inj hn]
      omega
    · next heq =>
      rw [if_neg heq]
      exact h.counts b' k' n hn
  entries b' k' hpos := mt (hdrop.count_none h hrefs b' k').mp
    (h.entries b' k' (lt_of_lt_of_le hpos Session.givenBack_le))
  holders := hheld
  together b' k₁ k₂ h₁ h₂ := h.together b' k₁ k₂
    (lt_of_lt_of_le h₁ Session.givenBack_le) (lt_of_lt_of_le h₂ Session.givenBack_le)
  recording hrec b' := (hdrop.count_none h hrefs b' .video).trans
    ((h.recording (hdrop.recording.symm.trans hrec) b').trans
      (hdrop.count_none h hrefs b' .preview).symm)
  idle hrec b' := (hdrop.count_none h hrefs b' .video).mpr
    (h.idle (hdrop.recording.symm.trans hrec) b')
  null k' := le_zero.mp (le_trans Session.givenBack_le (le_of_eq (h.null k')))
  pooled := hpooled
  calling := h.calling

/-- One reference less. -/
theorem Session.outstanding_givenBack (a : Adapter) (held : List (Address × FrameType))
    (hpool : frameType.pool = some k) (hrefs : 0 < s.refs b k) :
    (s.after a held (s.givenBack b frameType)).outstanding b + 1 = s.outstanding b := by
  have hback : ∀ k', s.givenBack b frameType b k' =
      if k' = k then s.refs b k - 1 else s.refs b k' := by
    intro k'
    rw [Session.givenBack_of_pool hpool]
    simp only [true_and]
  change s.givenBack b frameType b .preview + s.givenBack b frameType b .video +
    s.givenBack b frameType b .capture + s.givenBack b frameType b .previewData + 1 = _
  rw [Session.outstanding, hback, hback, hback, hback]
  cases k <;> simp only [if_true, reduceCtorEq, if_false] <;> omega

/-- Who holds a frame has a reference. -/
theorem Session.Inv.refs_of_held (h : s.Inv) (hheld : (b, frameType) ∈ s.held) :
    ∃ k, frameType.pool = some k ∧ 0 < s.holding b k ∧ 0 < s.refs b k := by
  obtain ⟨k, hk⟩ := ne_none_iff_exists'.mp (h.pooled _ hheld)
  have hholding : 0 < s.holding b k :=
    countP_pos_iff.mpr ⟨(b, frameType), hheld, by simpa using hk⟩
  exact ⟨k, hk, hholding, lt_of_lt_of_le hholding (le_of_add_right_le (h.holders b k))⟩

theorem Session.refs_le_outstanding (k : Pool) : s.refs b k ≤ s.outstanding b := by
  rw [Session.outstanding]
  cases k <;> omega

/-- A buffer without references is with nobody. -/
theorem Session.Inv.free (h : s.Inv) (hzero : s.outstanding b = 0) :
    ∀ frame ∈ s.held, frame.1 ≠ b := by
  rintro ⟨b', frameType⟩ hmem rfl
  obtain ⟨k, -, -, hrefs⟩ := h.refs_of_held hmem
  exact Nat.not_lt_of_le (Nat.le_trans (s.refs_le_outstanding k) (Nat.le_of_eq hzero)) hrefs

/-- The holders after one of them gives its frame back. -/
theorem Session.Inv.holders_erase (h : s.Inv) (hheld : (b, frameType) ∈ s.held)
    (hpool : frameType.pool = some k) (b' : Address) (k' : Pool) :
    (s.after a (s.held.erase (b, frameType)) (s.givenBack b frameType)).holding b' k' +
      Delivery.pending b' k' s.delivery ≤ s.givenBack b frameType b' k' := by
  have hle := h.holders b' k'
  change (s.held.erase (b, frameType)).countP (fun frame => frame.1 = b' ∧ frame.2.pool = some k')
    + _ ≤ _
  rw [countP_erase, Session.givenBack_of_pool hpool]
  by_cases heq : b' = b ∧ k' = k
  · obtain ⟨rfl, rfl⟩ := heq
    obtain ⟨k₁, hk₁, hpos, -⟩ := h.refs_of_held hheld
    obtain rfl := some.inj (hk₁.symm.trans hpool)
    have hcond : (b', frameType) ∈ s.held ∧
        decide ((b', frameType).1 = b' ∧ (b', frameType).2.pool = some k₁) :=
      ⟨hheld, by simpa using hpool⟩
    rw [if_pos hcond, if_pos ⟨rfl, rfl⟩]
    rw [Session.holding] at hle hpos
    omega
  · rw [if_neg heq, if_neg]
    · exact hle
    · rintro ⟨-, hp⟩
      obtain ⟨hb, hk⟩ := of_decide_eq_true hp
      exact heq ⟨hb.symm, some.inj (hk.symm.trans hpool)⟩

/-! ### The end of a recording -/

/-- The references after frames are taken back from the encoder. -/
def Session.takenBack (s : Session) (bufs : List Address) : Address → Pool → Nat :=
  fun b k => if k = .video ∧ b ∈ bufs then 0 else s.refs b k

/-- A buffer that no encoder holds, with one reference at most. -/
structure Session.VideoFree (s : Session) (b : Address) : Prop where
  entry : s.adapter.count b .video ≠ none
  one : s.refs b .video ≤ 1
  free : s.holding b .video = 0
  still : Delivery.pending b .video s.delivery = 0

/-- The effect of the loop of `stopVideoCapture`: frames whose last reference it was go back. -/
structure TakesBack (s : Session) (keys : List Address) (a : Adapter) (bufs : List Address) :
    Prop where
  ran : keys.foldlM Adapter.takeVideoFrame s.adapter = some a
  inv : (s.after a s.held (s.takenBack keys)).Inv
  recording : a.mRecording = s.adapter.mRecording
  filled : a.filled = bufs.map (fun b => (b, .VIDEO_FRAME_SYNC)) ++ s.adapter.filled
  nodup : bufs.Nodup
  numbers : (∀ b ∈ keys, s.refs b .video = 0) → a.numbers = s.adapter.numbers
  mem : ∀ b, b ∈ bufs ↔ b ∈ keys ∧ 0 < s.refs b .video ∧ s.outstanding b = 1

/-- A turn that takes nothing back. -/
theorem takeVideoFrame_zero (h : s.Inv) (hentry : s.adapter.count b .video ≠ none)
    (hzero : s.refs b .video = 0) : s.adapter.takeVideoFrame b = some s.adapter := by
  obtain ⟨n, hn⟩ := ne_none_iff_exists'.mp hentry
  have hcount := h.counts b .video n hn
  rw [hzero] at hcount
  subst hcount
  rw [Adapter.takeVideoFrame, getFrameRefCount_of_pool rfl, hn]
  rfl

/-- A turn that takes a reference back. -/
theorem takeVideoFrame_pos (h : s.Inv) (hrefs : 0 < s.refs b .video)
    (hdrop : Drops s b .VIDEO_FRAME_SYNC .video a) : s.adapter.takeVideoFrame b = some a := by
  rw [Adapter.takeVideoFrame, getFrameRefCount_of_pool rfl, h.count_eq hrefs]
  change (if (0 : Int) < s.refs b .video then _ else _) = _
  rw [if_pos (Int.natCast_pos.mpr hrefs)]
  exact hdrop.returned

/-- A reference of one buffer given back leaves the others alone. -/
theorem Session.givenBack_of_ne (hb : b' ≠ b) : s.givenBack b frameType b' k = s.refs b' k :=
  if_neg fun heq => hb heq.1

theorem Session.outstanding_givenBack_of_ne (hb : b' ≠ b) {held : List (Address × FrameType)} :
    (s.after a held (s.givenBack b frameType)).outstanding b' = s.outstanding b' := by
  change s.givenBack b frameType b' .preview + s.givenBack b frameType b' .video +
    s.givenBack b frameType b' .capture + s.givenBack b frameType b' .previewData = _
  rw [givenBack_of_ne hb, givenBack_of_ne hb, givenBack_of_ne hb, givenBack_of_ne hb]
  rfl

/-- The session after a frame is taken back from the encoder. -/
theorem Session.Inv.takenOne (h : s.Inv) (hfree : s.VideoFree b)
    (hrefs : 0 < s.refs b .video) (hdrop : Drops s b .VIDEO_FRAME_SYNC .video a) :
    (s.after a s.held (s.givenBack b .VIDEO_FRAME_SYNC)).Inv := by
  refine h.givenBack rfl hrefs hdrop (fun b' k' => ?_) h.pooled
  rw [Session.givenBack_of_pool rfl]
  change s.holding b' k' + _ ≤ _
  by_cases heq : b' = b ∧ k' = .video
  · obtain ⟨rfl, rfl⟩ := heq
    rw [hfree.free, hfree.still]
    exact zero_le _
  · rw [if_neg heq]
    exact h.holders b' k'

theorem Session.VideoFree.takenOne (h : s.VideoFree b') (hb : b' ≠ b)
    (hdrop : Drops s b .VIDEO_FRAME_SYNC .video a) :
    (s.after a s.held (s.givenBack b .VIDEO_FRAME_SYNC)).VideoFree b' where
  entry := by
    change a.count b' .video ≠ none
    rw [hdrop.counts, if_neg fun heq => hb heq.1]
    exact h.entry
  one := le_trans Session.givenBack_le h.one
  free := h.free
  still := h.still

theorem Session.takenBack_cons (keys : List Address) (hone : s.refs b .video ≤ 1) :
    (s.after a s.held (s.givenBack b .VIDEO_FRAME_SYNC)).takenBack keys =
      s.takenBack (b :: keys) := by
  funext b' k
  change (if k = .video ∧ b' ∈ keys then 0 else s.givenBack b .VIDEO_FRAME_SYNC b' k) =
    if k = .video ∧ b' ∈ b :: keys then 0 else s.refs b' k
  rw [Session.givenBack_of_pool rfl]
  by_cases hk : k = .video
  · subst hk
    by_cases hb : b' = b
    · subst hb
      simp only [true_and, and_self, if_true, mem_cons, true_or]
      split
      · rfl
      · omega
    · simp only [true_and, and_true, hb, if_false, mem_cons, false_or]
  · rw [if_neg fun heq => hk heq.1, if_neg fun heq => hk heq.2, if_neg fun heq => hk heq.1]

theorem Session.Inv.takesBack (h : s.Inv) (keys : List Address) (hnodup : keys.Nodup)
    (hkeys : ∀ b ∈ keys, s.VideoFree b) : ∃ a bufs, TakesBack s keys a bufs := by
  induction keys generalizing s with
  | nil =>
    have hsame : s.takenBack [] = s.refs := by
      funext b k
      simp [Session.takenBack]
    refine ⟨s.adapter, [], rfl, ?_, rfl, rfl, .nil, fun _ => rfl, by simp⟩
    rw [hsame]
    exact h
  | cons b keys ih =>
    obtain ⟨hb, hnodup⟩ := nodup_cons.mp hnodup
    have hfree := hkeys b mem_cons_self
    have hrest : ∀ b' ∈ keys, s.VideoFree b' := fun b' hb' => hkeys b' (mem_cons_of_mem b hb')
    by_cases hzero : s.refs b .video = 0
    · obtain ⟨a, bufs, hback⟩ := ih h hnodup hrest
      have hsame : s.takenBack (b :: keys) = s.takenBack keys := by
        funext b' k
        by_cases heq : k = .video ∧ b' = b
        · obtain ⟨rfl, rfl⟩ := heq
          simp [Session.takenBack, hzero]
        · exact if_congr (and_congr_right fun hk =>
            mem_cons.trans (or_iff_right fun hb => heq ⟨hk, hb⟩)) rfl rfl
      refine ⟨a, bufs, ?_, ?_, hback.recording, hback.filled, hback.nodup, fun hall =>
        hback.numbers fun b' hb' => hall b' (mem_cons_of_mem b hb'), fun b' => ?_⟩
      · rw [foldlM_cons, takeVideoFrame_zero h hfree.entry hzero]
        exact hback.ran
      · rw [hsame]
        exact hback.inv
      · rw [hback.mem, mem_cons]
        refine and_congr_left fun hpos => (or_iff_right ?_).symm
        rintro rfl
        rw [hzero] at hpos
        exact absurd hpos.1 (lt_irrefl 0)
    · have hrefs : 0 < s.refs b .video := pos_of_ne_zero hzero
      have hpool : FrameType.VIDEO_FRAME_SYNC.pool = some .video := rfl
      obtain ⟨a₁, hdrop⟩ := h.drops hpool hrefs
      have hne : ∀ b' ∈ keys, b' ≠ b := fun b' hb' heq => hb (heq ▸ hb')
      obtain ⟨a, bufs, hback⟩ := ih (h.takenOne hfree hrefs hdrop) hnodup
        fun b' hb' => (hrest b' hb').takenOne (hne b' hb') hdrop
      have hmem : ∀ b', b' ∈ bufs ↔ b' ∈ keys ∧ 0 < s.refs b' .video ∧ s.outstanding b' = 1 := by
        intro b'
        refine (hback.mem b').trans (and_congr_right fun hb' => ?_)
        rw [Session.outstanding_givenBack_of_ne (hne b' hb')]
        change 0 < s.givenBack b .VIDEO_FRAME_SYNC b' .video ∧ _ ↔ _
        rw [Session.givenBack_of_ne (hne b' hb')]
      have hbufs : b ∉ bufs := fun hmem' => hb ((hmem b).mp hmem').1
      have hran : (b :: keys).foldlM Adapter.takeVideoFrame s.adapter = some a := by
        rw [foldlM_cons, takeVideoFrame_pos h hrefs hdrop]
        exact hback.ran
      have hinv : (s.after a s.held (s.takenBack (b :: keys))).Inv := by
        rw [← Session.takenBack_cons (a := a₁) keys hfree.one]
        exact hback.inv
      have hrec := hback.recording.trans hdrop.recording
      have hsome : ¬ ∀ b' ∈ b :: keys, s.refs b' .video = 0 := fun hall =>
        hzero (hall b mem_cons_self)
      by_cases hlast : s.outstanding b = 1
      · refine ⟨a, bufs ++ [b], hran, hinv, hrec, ?_, ?_, fun hall => absurd hall hsome,
          fun b' => ?_⟩
        · rw [hback.filled, map_append, append_assoc]
          change _ ++ a₁.filled = _
          rw [hdrop.filled, if_pos hlast]
          rfl
        · exact nodup_append.mpr ⟨hback.nodup, nodup_singleton b, by
            rintro b' hb' _ hmem' rfl
            exact hbufs (mem_singleton.mp hmem' ▸ hb')⟩
        · rw [mem_append, hmem, mem_singleton, mem_cons]
          constructor
          · rintro (⟨hb', hpos⟩ | rfl)
            · exact ⟨.inr hb', hpos⟩
            · exact ⟨.inl rfl, hrefs, hlast⟩
          · rintro ⟨rfl | hb', hpos⟩
            · exact .inr rfl
            · exact .inl ⟨hb', hpos⟩
      · refine ⟨a, bufs, hran, hinv, hrec, ?_, hback.nodup, fun hall => absurd hall hsome,
          fun b' => ?_⟩
        · rw [hback.filled]
          change _ ++ a₁.filled = _
          rw [hdrop.filled, if_neg hlast]
        · rw [hmem, mem_cons]
          refine and_congr_left fun hpos => (or_iff_right ?_).symm
          rintro rfl
          exact hlast hpos.2

end OmapHal.Camera
