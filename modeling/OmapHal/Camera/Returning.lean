import OmapHal.Camera.NotifierSession

/-!
# Every frame is given back once

Each frame that the notifier took was given back, or it still is in the queue, with an encoder or
with the recorder. The runs in which this stays so are told by what their steps start from.
-/

namespace OmapHal.Camera

open List

open OmapHal.Core (KeyedVector AlongSome)

/-- What an image that is to be encoded needs: the notifier runs, or else, where an encoder is made,
there is a preview for the thumbnail. -/
def AppCallbackNotifier.Encodable (build : Build) (s : AppCallbackNotifier)
    (replies : NotifierReplies) : Prop :=
  if build.JPEG then s.mNotifierState = .NOTIFIER_STARTED
  else replies.tn_jpeg = true → s.mPreviewMemory = true

namespace NotifierSession

variable {build : Build} {s t : NotifierSession} {replies : NotifierReplies}
  {k : Address × FrameType}

/-- What the recorder has got, as frames. -/
def asFrame (r : Address × Address) : Address × FrameType := (r.2, .VIDEO_FRAME_SYNC)

/-- The frames that were not given back yet. -/
def held (s : NotifierSession) : List (Address × FrameType) :=
  s.notifier.mFrameQ.map CameraFrame.key ++ s.notifier.encoders.map Encoder.key ++
    s.recorder.map asFrame

/-- Every frame is given back once with its own buffer and type, or it is held, and no lock is
held. -/
structure Right (s : NotifierSession) : Prop where
  frames : ∀ k, s.accepted.count k = s.returned.count k + s.held.count k
  mLock : s.notifier.mLock = false
  mRecordingLock : s.notifier.mRecordingLock = false

/-- What a step must find for the frames to be given back. -/
def Careful (build : Build) (s : NotifierSession) : NotifierEvent → Prop
  | .notifyFrame replies => ∀ frame, s.notifier.mFrameQ.head? = some frame →
    (s.notifier.Encodes frame → s.notifier.Encodable build replies) ∧
      (s.notifier.Records replies frame → s.notifier.Recordable replies frame.mBuffer)
  | .EncoderDoneCb _ encoder =>
    s.notifier.mNotifierState = .NOTIFIER_STARTED ∧ encoder.src = encoder.mBuffer ∧
      encoder.mBuffer ∈ s.notifier.gEncoderQueue.keys
  | .releaseRecordingFrame word recorded =>
    s.notifier.mUseMetaDataBufferMode = true ∨ recorded.1 ≠ 0 ∧ word recorded.1 = recorded.2
  | .stop _ => s.notifier.mNotifierState = .NOTIFIER_STARTED →
    ∀ encoder ∈ s.notifier.gEncoderQueue.values, encoder ∉ s.notifier.encoders
  | _ => True

/-- Whether a step keeps the frames right is told by what it starts from. -/
def Told (build : Build) (s : NotifierSession) (event : NotifierEvent) : Prop :=
  (∃ t, s.step build event = some t ∧ t.Right) ↔ s.Careful build event

theorem told_of_right (hcareful : s.Careful build event) (ht : s.step build event = some t)
    (hright : t.Right) : s.Told build event :=
  iff_of_true ⟨t, ht, hright⟩ hcareful

theorem told_of_wrong (hcareful : ¬ s.Careful build event)
    (h : ∀ t, s.step build event = some t → ¬ t.Right) : s.Told build event :=
  iff_of_false (fun ⟨t, ht, hright⟩ => h t ht hright) hcareful

theorem count_held (s : NotifierSession) (k : Address × FrameType) : s.held.count k =
    (s.notifier.mFrameQ.map CameraFrame.key).count k +
      (s.notifier.encoders.map Encoder.key).count k +
      (s.recorder.map asFrame).count k := by
  rw [held, count_append, count_append]

/-! ### Frames from the queue -/

theorem told_frameCallback (h : s.Right) (caFrame : Option CameraFrame) :
    s.Told build (.frameCallback caFrame) := by
  refine told_of_right trivial rfl ⟨fun k => ?_, ?_, ?_⟩
  · have hk := h.frames k
    rw [count_held] at hk ⊢
    cases caFrame with
    | none => exact hk
    | some frame =>
      simp only [AppCallbackNotifier.frameCallback, Option.toList_some, map_append,
        map_cons, map_nil, count_append]
      omega
  · cases caFrame <;> exact h.mLock
  · cases caFrame <;> exact h.mRecordingLock

section FirstFrame

variable {frame : CameraFrame} {rest : List CameraFrame} {calls : List CallOut}
  {n : AppCallbackNotifier} (h : s.Right) (hqueue : s.notifier.mFrameQ = frame :: rest)

include h hqueue

/-- What must become of the first frame of the queue. -/
theorem notified_right_iff (hn : n.mFrameQ = rest) (hlock : n.mLock = false) :
    (s.notified calls n).Right ↔ n.mRecordingLock = false ∧
      ∀ k, [frame.key].count k + (s.notifier.encoders.map Encoder.key).count k =
        (returnedOf calls).count k + (n.encoders.map Encoder.key).count k +
          ((recordedOf calls).map fun data => asFrame (data, frame.mBuffer)).count k := by
  have hframes : ∀ k, s.accepted.count k = (s.notified calls n).returned.count k +
        (s.notified calls n).held.count k ↔
      [frame.key].count k + (s.notifier.encoders.map Encoder.key).count k =
        (returnedOf calls).count k + (n.encoders.map Encoder.key).count k +
          ((recordedOf calls).map fun data => asFrame (data, frame.mBuffer)).count k := by
    intro k
    have hk := h.frames k
    have hrecorder : ((s.record calls).map asFrame).count k =
        ((recordedOf calls).map fun data => asFrame (data, frame.mBuffer)).count k +
          (s.recorder.map asFrame).count k := by
      rw [record, hqueue, map_append, map_map, count_append]
      rfl
    rw [count_held, hqueue, map_cons, count_cons] at hk
    rw [count_held, notified, count_append, count_singleton, hn]
    dsimp only
    rw [hrecorder]
    omega
  constructor
  · exact fun hright => ⟨hright.mRecordingLock, fun k => (hframes k).mp (hright.frames k)⟩
  · exact fun hright => ⟨fun k => (hframes k).mpr (hright.2 k), hlock, hright.1⟩

omit h in
theorem careful_notifyFrame_iff : s.Careful build (.notifyFrame replies) ↔
    (s.notifier.Encodes frame → s.notifier.Encodable build replies) ∧
      (s.notifier.Records replies frame → s.notifier.Recordable replies frame.mBuffer) := by
  rw [Careful, hqueue]
  exact ⟨fun h => h frame rfl, fun h frame' hframe' => Option.some.inj hframe' ▸ h⟩

theorem step_notifyFrame_cons (build : Build) (replies : NotifierReplies) :
    s.step build (.notifyFrame replies) =
    (({ s.notifier with mFrameQ := rest }.processFrame build replies frame).map
      fun result : List CallOut × AppCallbackNotifier => s.notified result.1 result.2) := by
  rw [step, AppCallbackNotifier.notifyFrame_cons h.mLock hqueue, Option.map_eq_bind]
  rfl

/-- A frame that is neither given back nor kept is lost. -/
theorem not_right_of_lost (hreturned : returnedOf calls = []) (hrecorded : recordedOf calls = [])
    (hn : n.mFrameQ = rest) (hlock : n.mLock = false)
    (hencoders : n.encoders = s.notifier.encoders) : ¬ (s.notified calls n).Right := by
  intro hright
  obtain ⟨-, hk⟩ := (notified_right_iff h hqueue hn hlock).mp hright
  have hkey := hk frame.key
  rw [hreturned, hrecorded, hencoders, count_singleton_self, map_nil, count_nil]
    at hkey
  omega

/-- A frame that is given back, encoded or recorded. -/
theorem told_of_notified (hcareful : s.Careful build (.notifyFrame replies))
    (hstep : s.step build (.notifyFrame replies) = some (s.notified calls n))
    (hn : n.mFrameQ = rest) (hlock : n.mLock = s.notifier.mLock)
    (hreclock : n.mRecordingLock = s.notifier.mRecordingLock)
    (hk : ∀ k, [frame.key].count k + (s.notifier.encoders.map Encoder.key).count k =
      (returnedOf calls).count k + (n.encoders.map Encoder.key).count k +
        ((recordedOf calls).map fun data => asFrame (data, frame.mBuffer)).count k) :
    s.Told build (.notifyFrame replies) := by
  apply told_of_right hcareful hstep
  apply (notified_right_iff h hqueue hn (hlock.trans h.mLock)).mpr
  exact ⟨hreclock.trans h.mRecordingLock, hk⟩

theorem told_encodeFrame (hencodes : s.notifier.Encodes frame) :
    s.Told build (.notifyFrame replies) := by
  have hrecords : ¬ s.notifier.Records replies frame := by
    intro hrecords
    have htype := hencodes.1.symm.trans hrecords.1
    cases htype
  have hstep := step_notifyFrame_cons h hqueue build replies
  rw [AppCallbackNotifier.processFrame_encodes
    (s := { s.notifier with mFrameQ := rest }) hencodes] at hstep
  have hcareful : s.Careful build (.notifyFrame replies) ↔ s.notifier.Encodable build replies := by
    rw [careful_notifyFrame_iff hqueue, and_iff_left fun hr => absurd hr hrecords]
    exact ⟨fun h => h hencodes, fun h _ => h⟩
  cases hbuild : build.JPEG with
  | true =>
    obtain ⟨calls, heq, hrecorded, hreturned⟩ :=
      ({ s.notifier with mFrameQ := rest }).encodeFrame_JPEG hbuild replies frame
    rw [heq, Option.map_some] at hstep
    rw [AppCallbackNotifier.Encodable, if_pos hbuild] at hcareful
    by_cases hstate : s.notifier.mNotifierState = .NOTIFIER_STARTED
    · refine told_of_notified h hqueue (hcareful.mpr hstate) hstep rfl rfl rfl fun k => ?_
      rw [hreturned, if_pos hstate, hrecorded]
      rfl
    · refine told_of_wrong (fun hc => hstate (hcareful.mp hc)) fun t ht => ?_
      obtain rfl := Option.some.inj (hstep.symm.trans ht)
      exact not_right_of_lost h hqueue (hreturned.trans (if_neg hstate)) hrecorded rfl h.mLock rfl
  | false =>
    have hencoder : ¬ build.JPEG = true := by
      rw [hbuild]
      exact Bool.false_ne_true
    rw [AppCallbackNotifier.Encodable, if_neg hencoder] at hcareful
    rw [AppCallbackNotifier.encodeFrame, if_pos (by rw [hbuild]; rfl)] at hstep
    split at hstep
    · next hnone =>
      rw [Bool.and_eq_true, Bool.not_eq_true'] at hnone
      refine told_of_wrong (fun hc => ?_) fun t ht => ?_
      · rw [hcareful.mp hc hnone.1] at hnone
        cases hnone.2
      · rw [hstep] at ht
        cases ht
    · next hsome =>
      refine told_of_notified h hqueue (hcareful.mpr fun htn => ?_) hstep rfl rfl rfl fun k => ?_
      · rw [htn, Bool.true_and, Bool.not_eq_true', Bool.not_eq_false] at hsome
        exact hsome
      · change _ = 0 + (frame.key :: s.notifier.encoders.map Encoder.key).count k + 0
        simp only [count_cons, count_nil]
        omega

theorem told_videoFrame (hinv : s.Inv) (hrecords : s.notifier.Records replies frame) :
    s.Told build (.notifyFrame replies) := by
  have hencodes : ¬ s.notifier.Encodes frame := by
    intro hencodes
    have htype := hencodes.1.symm.trans hrecords.1
    cases htype
  have hstep := step_notifyFrame_cons h hqueue build replies
  rw [AppCallbackNotifier.processFrame_records
    (s := { s.notifier with mFrameQ := rest }) hrecords] at hstep
  have hcareful : s.Careful build (.notifyFrame replies) ↔
      s.notifier.Recordable replies frame.mBuffer := by
    rw [careful_notifyFrame_iff hqueue, and_iff_right fun he => absurd he hencodes]
    exact ⟨fun h => h hrecords, fun h _ => h⟩
  rcases AppCallbackNotifier.videoFrame_cases replies frame
      (s := { s.notifier with mFrameQ := rest }) h.mRecordingLock hinv.paired.data with
    ⟨hrecordable, data, handle, heq, -⟩ | ⟨hnot, hlost⟩
  · rw [heq, Option.map_some] at hstep
    refine told_of_notified h hqueue (hcareful.mpr hrecordable) hstep rfl rfl rfl fun k => ?_
    have hkey : frame.key = asFrame (data, frame.mBuffer) := by
      rw [CameraFrame.key, hrecords.1, asFrame]
    rw [hkey]
    simp only [returnedOf_mDataCbTimestamp, returnedOf_nil, count_nil,
      recordedOf_mDataCbTimestamp, recordedOf_nil, map_cons, map_nil]
    omega
  · refine told_of_wrong (fun hc => hnot (hcareful.mp hc)) fun t ht => ?_
    rw [hstep] at ht
    obtain ⟨⟨calls, n⟩, hresult, rfl⟩ := Option.map_eq_some_iff.mp ht
    obtain ⟨rfl, hn⟩ := hlost calls n hresult
    exact not_right_of_lost h hqueue rfl rfl (by rw [hn]) (by rw [hn]; exact h.mLock) (by rw [hn])

theorem told_givenBack (hencodes : ¬ s.notifier.Encodes frame)
    (hrecords : ¬ s.notifier.Records replies frame) : s.Told build (.notifyFrame replies) := by
  have hstep := step_notifyFrame_cons h hqueue build replies
  obtain ⟨calls, a, m, heq, hreturned, hrecorded⟩ := AppCallbackNotifier.processFrame_gives
    build (s := { s.notifier with mFrameQ := rest }) h.mLock hencodes hrecords
  rw [heq, Option.map_some] at hstep
  refine told_of_notified h hqueue ((careful_notifyFrame_iff hqueue).mpr
    ⟨fun he => absurd he hencodes, fun hr => absurd hr hrecords⟩) hstep rfl rfl rfl fun k => ?_
  rw [hreturned, hrecorded]
  rfl

end FirstFrame

theorem told_notifyFrame (hinv : s.Inv) (h : s.Right) (replies : NotifierReplies) :
    s.Told build (.notifyFrame replies) := by
  cases hqueue : s.notifier.mFrameQ with
  | nil =>
    have hstep : s.step build (.notifyFrame replies) = some s := by
      rw [step, AppCallbackNotifier.notifyFrame_nil h.mLock hqueue]
      simp [notified, record, hqueue]
    refine told_of_right (fun frame hframe => ?_) hstep h
    rw [hqueue] at hframe
    cases hframe
  | cons frame rest =>
    by_cases hencodes : s.notifier.Encodes frame
    · exact told_encodeFrame h hqueue hencodes
    by_cases hrecords : s.notifier.Records replies frame
    · exact told_videoFrame h hqueue hinv hrecords
    · exact told_givenBack h hqueue hencodes hrecords

/-! ### The other functions -/

theorem count_map_erase {α β : Type} [BEq α] [LawfulBEq α] [BEq β] {f : α → β} {l : List α} {a : α}
    (h : a ∈ l) (k : β) : (l.map f).count k = [f a].count k + ((l.erase a).map f).count k := by
  rw [((perm_cons_erase h).map f).count_eq, map_cons, count_cons, count_singleton, Nat.add_comm]

theorem told_EncoderDoneCb (h : s.Right) {encoder : Encoder}
    (hmem : encoder ∈ s.notifier.encoders) :
    s.Told build (.EncoderDoneCb replies encoder) := by
  have hheld : ∀ k, s.accepted.count k = s.returned.count k +
      ((s.notifier.mFrameQ.map CameraFrame.key).count k + [encoder.key].count k +
        ((s.notifier.encoders.erase encoder).map Encoder.key).count k +
        (s.recorder.map asFrame).count k) := by
    intro k
    rw [h.frames k, count_held, count_map_erase hmem]
    omega
  by_cases hstate : s.notifier.mNotifierState = .NOTIFIER_STARTED
  · obtain ⟨calls, a, heq, hreturned, -⟩ :=
      AppCallbackNotifier.EncoderDoneCb_started h.mLock hstate replies encoder
    cases hval : s.notifier.gEncoderQueue.valueFor encoder.src with
    | none =>
      refine told_of_wrong (fun hc => ?_) fun t ht => ?_
      · have hmem := hc.2.2
        rw [← hc.2.1, KeyedVector.mem_keys] at hmem
        exact hmem hval
      · rw [step, heq, hval] at ht
        cases ht
    | some e =>
      have hstep : s.step build (.EncoderDoneCb replies encoder) = some (s.done calls
          { s.notifier with
            encoders := s.notifier.encoders.erase encoder
            mRawAvailable := a
            gEncoderQueue := s.notifier.gEncoderQueue.removeItem encoder.src }) := by
        rw [step, heq, hval]
        rfl
      by_cases hsrc : encoder.src = encoder.mBuffer
      · have hkey : (encoder.src, encoder.mType) = encoder.key := by rw [hsrc, Encoder.key]
        refine told_of_right ⟨hstate, hsrc, ?_⟩ hstep ⟨fun k => ?_, h.mLock, h.mRecordingLock⟩
        · rw [← hsrc, KeyedVector.mem_keys, hval]
          exact Option.some_ne_none e
        · have hk := hheld k
          rw [count_held, done, hreturned, hkey, count_append]
          dsimp only
          omega
      · refine told_of_wrong (fun hc => hsrc hc.2.1) fun t ht hright => ?_
        obtain rfl := Option.some.inj (hstep.symm.trans ht)
        have hne : (encoder.src, encoder.mType) ≠ encoder.key := fun heq =>
          hsrc (Prod.mk.inj heq).1
        have hkey := hheld encoder.key
        have hkey' := hright.frames encoder.key
        rw [count_held, done, hreturned, singleton_append, count_cons_of_ne hne] at hkey'
        rw [count_singleton_self] at hkey
        dsimp only at hkey'
        omega
  · obtain ⟨calls, a, heq, hreturned, -⟩ :=
      AppCallbackNotifier.EncoderDoneCb_stopped h.mLock hstate replies encoder
    refine told_of_wrong (fun hc => hstate hc.1) fun t ht hright => ?_
    rw [step, heq] at ht
    obtain rfl := Option.some.inj ht
    have hkey := hheld encoder.key
    have hkey' := hright.frames encoder.key
    rw [count_held, done, hreturned] at hkey'
    rw [count_singleton_self] at hkey
    dsimp only [nil_append] at hkey'
    omega

theorem told_releaseRecordingFrame (hinv : s.Inv) (h : s.Right) (word : Address → Address)
    {recorded : Address × Address} (hmem : recorded ∈ s.recorder) :
    s.Told build (.releaseRecordingFrame word recorded) := by
  have hheld : ∀ k, s.accepted.count k = s.returned.count k +
      ((s.notifier.mFrameQ.map CameraFrame.key).count k +
        (s.notifier.encoders.map Encoder.key).count k + [asFrame recorded].count k +
        ((s.recorder.erase recorded).map asFrame).count k) := by
    intro k
    rw [h.frames k, count_held, count_map_erase hmem]
    omega
  have hright : ∀ frame, { s with
      returned := returnedOf [.returnFrame frame .VIDEO_FRAME_SYNC] ++ s.returned
      recorder := s.recorder.erase recorded }.Right ↔ frame = recorded.2 := by
    intro frame
    constructor
    · intro hright
      by_contra hne
      have hne' : (frame, FrameType.VIDEO_FRAME_SYNC) ≠ asFrame recorded := fun heq =>
        hne (Prod.mk.inj heq).1
      have hkey := hheld (asFrame recorded)
      have hkey' := hright.frames (asFrame recorded)
      rw [count_held, returnedOf_returnFrame, returnedOf_nil, singleton_append,
        count_cons_of_ne hne'] at hkey'
      rw [count_singleton_self] at hkey
      dsimp only at hkey'
      omega
    · rintro rfl
      refine ⟨fun k => ?_, h.mLock, h.mRecordingLock⟩
      have hk := hheld k
      rw [count_held, count_append]
      change _ = [asFrame recorded].count k + _ + _
      dsimp only
      omega
  have hlost : ¬ { s with recorder := s.recorder.erase recorded }.Right := by
    intro hright
    have hkey := hheld (asFrame recorded)
    have hkey' := hright.frames (asFrame recorded)
    rw [count_held] at hkey'
    rw [count_singleton_self] at hkey
    dsimp only at hkey'
    omega
  have hstep : ∀ frame, recorded.1 ≠ 0 →
      s.notifier.releasedFrame word recorded.1 = some frame →
      s.step build (.releaseRecordingFrame word recorded) = some { s with
        returned := returnedOf [.returnFrame frame .VIDEO_FRAME_SYNC] ++ s.returned
        recorder := s.recorder.erase recorded } := by
    intro frame hzero hframe
    rw [step, AppCallbackNotifier.releaseRecordingFrame, if_neg hzero, hframe]
    rfl
  by_cases hmeta : s.notifier.mUseMetaDataBufferMode = true
  · obtain ⟨hrev, hzero⟩ := hinv.held hmeta recorded hmem
    exact told_of_right (.inl hmeta) (hstep _ hzero ((if_pos hmeta).trans hrev))
      ((hright _).mpr rfl)
  by_cases hzero : recorded.1 = 0
  · refine told_of_wrong (fun hc => (hc.resolve_left hmeta).1 hzero) fun t ht => ?_
    rw [step, AppCallbackNotifier.releaseRecordingFrame, if_pos hzero] at ht
    obtain rfl := Option.some.inj ht
    exact hlost
  have hplain := hstep (word recorded.1) hzero (if_neg hmeta)
  by_cases hword : word recorded.1 = recorded.2
  · exact told_of_right (.inr ⟨hzero, hword⟩) hplain ((hright _).mpr hword)
  · refine told_of_wrong (fun hc => hword (hc.resolve_left hmeta).2) fun t ht => ?_
    obtain rfl := Option.some.inj (hplain.symm.trans ht)
    exact fun hr => hword ((hright _).mp hr)

theorem diff_eq_self {l l' : List Encoder} (h : ∀ e ∈ l', e ∉ l) : l.diff l' = l := by
  induction l' with
  | nil => rfl
  | cons e l' ih =>
    rw [diff_cons, erase_of_not_mem (h e mem_cons_self),
      ih fun e' he' => h e' (mem_cons_of_mem e he')]

/-- Encoders of which none is missing when some are taken out. -/
theorem eq_self_of_diff {l l' : List Encoder}
    (h : ∀ k, (l.map Encoder.key).count k = ((l.diff l').map Encoder.key).count k) :
    ∀ e ∈ l', e ∉ l := by
  have hlength := (perm_iff_count.mpr h).length_eq
  rw [length_map, length_map] at hlength
  have heq := (diff_sublist l l').eq_of_length hlength.symm
  intro e he hmem
  have hcount := count_diff e l l'
  rw [heq] at hcount
  have hpos := count_pos_iff.mpr hmem
  have hpos' := count_pos_iff.mpr he
  omega

theorem told_stop (h : s.Right) (replies : NotifierReplies) : s.Told build (.stop replies) := by
  by_cases hstate : s.notifier.mNotifierState = .NOTIFIER_STARTED
  · obtain ⟨calls, a, q, heq, hreturned, -⟩ :=
      AppCallbackNotifier.stop_started h.mLock hstate replies
    have hstep : s.step build (.stop replies) = some (s.done calls
        { s.notifier with
          mNotifierState := .NOTIFIER_STOPPED
          encoders := s.notifier.encoders.diff s.notifier.gEncoderQueue.values
          mRawAvailable := a
          gEncoderQueue := q }) := by
      rw [step, heq]
      rfl
    by_cases hnone : ∀ encoder ∈ s.notifier.gEncoderQueue.values, encoder ∉ s.notifier.encoders
    · refine told_of_right (fun _ => hnone) hstep ⟨fun k => ?_, h.mLock, h.mRecordingLock⟩
      have hk := h.frames k
      rw [count_held] at hk ⊢
      rw [done, hreturned, nil_append, diff_eq_self hnone]
      exact hk
    · refine told_of_wrong (fun hc => hnone (hc hstate)) fun t ht hright => hnone ?_
      obtain rfl := Option.some.inj (hstep.symm.trans ht)
      refine eq_self_of_diff fun k => ?_
      have hk := h.frames k
      have hk' := hright.frames k
      rw [count_held] at hk hk'
      rw [done, hreturned, nil_append] at hk'
      dsimp only at hk'
      omega
  · refine told_of_right (fun hs => absurd hs hstate) (t := s) ?_ h
    rw [step, AppCallbackNotifier.stop, if_pos hstate]
    rfl

theorem told_flushAndReturnFrames (h : s.Right) : s.Told build .flushAndReturnFrames := by
  have hstep : s.step build .flushAndReturnFrames = some (s.done
      (s.notifier.mFrameQ.map fun frame => .returnFrame frame.mBuffer frame.mFrameType)
      { s.notifier with mFrameQ := [] }) := by
    rw [step, AppCallbackNotifier.flushAndReturnFrames_eq h.mLock]
    rfl
  have hreturned : returnedOf (s.notifier.mFrameQ.map fun frame =>
      .returnFrame frame.mBuffer frame.mFrameType) = s.notifier.mFrameQ.map CameraFrame.key := by
    rw [returnedOf, filterMap_map]
    exact congrFun filterMap_eq_map _
  refine told_of_right trivial hstep ⟨fun k => ?_, h.mLock, h.mRecordingLock⟩
  have hk := h.frames k
  rw [count_held] at hk ⊢
  rw [done, hreturned, count_append]
  simp only [map_nil, count_nil]
  omega

/-- Where frames and locks stay as they are. -/
theorem Right.congr (h : s.Right) (haccepted : t.accepted = s.accepted)
    (hreturned : t.returned = s.returned) (hheld : t.held = s.held)
    (hlock : t.notifier.mLock = s.notifier.mLock)
    (hreclock : t.notifier.mRecordingLock = s.notifier.mRecordingLock) : t.Right := by
  refine ⟨fun k => ?_, hlock.trans h.mLock, hreclock.trans h.mRecordingLock⟩
  rw [haccepted, hreturned, hheld]
  exact h.frames k

theorem told_start (h : s.Right) : s.Told build .start := by
  refine told_of_right trivial rfl ?_
  rw [AppCallbackNotifier.start]
  split <;> exact h.congr rfl rfl rfl rfl rfl

theorem told_startRecording (h : s.Right) : s.Told build .startRecording := by
  obtain ⟨ret, heq⟩ := AppCallbackNotifier.startRecording_eq h.mRecordingLock
  have hstep : s.step build .startRecording =
      some { s with notifier := { s.notifier with mRecording := true } } := by
    rw [step, heq]
    rfl
  exact told_of_right trivial hstep (h.congr rfl rfl rfl rfl rfl)

theorem told_stopRecording (h : s.Right) : s.Told build .stopRecording := by
  obtain ⟨ret, heq⟩ := AppCallbackNotifier.stopRecording_eq h.mRecordingLock
  refine told_of_right trivial (by rw [step, heq]; rfl) ?_
  split <;> exact h.congr rfl rfl rfl rfl rfl

theorem told (hinv : s.Inv) (h : s.Right) {event : NotifierEvent} (hpossible : s.Possible event) :
    s.Told build event := by
  cases event with
  | frameCallback caFrame => exact told_frameCallback h caFrame
  | notifyFrame replies => exact told_notifyFrame hinv h replies
  | EncoderDoneCb replies encoder => exact told_EncoderDoneCb h hpossible
  | releaseRecordingFrame word recorded => exact told_releaseRecordingFrame hinv h word hpossible
  | start => exact told_start h
  | stop replies => exact told_stop h replies
  | flushAndReturnFrames => exact told_flushAndReturnFrames h
  | useMetaDataBufferMode enable =>
    exact told_of_right trivial rfl (h.congr rfl rfl rfl rfl rfl)
  | halStartRecording useVideoBuffers mRequestMemory bufArr vBufArr =>
    obtain ⟨t, ht⟩ := Option.ne_none_iff_exists'.mp
      (halStartRecording_ne_none build hinv h.mRecordingLock hpossible)
    refine told_of_right trivial ht ?_
    obtain ⟨ret, rs, -, ⟨-, rfl⟩ | ⟨-, rfl⟩⟩ := halStartRecording_cases hinv hpossible ht
    · exact h.congr rfl rfl rfl rfl rfl
    · exact h.congr rfl rfl rfl rfl rfl
  | startRecording => exact told_startRecording h
  | stopRecording => exact told_stopRecording h

end NotifierSession

/-- A notifier that has no frames and no lock held. -/
structure AppCallbackNotifier.Idle (n : AppCallbackNotifier) : Prop where
  mLock : n.mLock = false
  mRecordingLock : n.mRecordingLock = false
  mFrameQ : n.mFrameQ = []
  encoders : n.encoders = []
  mVideoMetadataBufferMemoryMap : n.mVideoMetadataBufferMemoryMap = .empty

theorem NotifierSession.construct_right {n : AppCallbackNotifier} (h : n.Idle) :
    (construct n).Right := by
  refine ⟨fun k => ?_, h.mLock, h.mRecordingLock⟩
  rw [count_held, construct, h.mFrameQ, h.encoders]
  rfl

/-- In a run every step gives the frames back as it should exactly if every step starts from what
it needs. -/
theorem givesBackOnce_iff (build : Build) (n : AppCallbackNotifier) (events : List NotifierEvent)
    (hstart : n.Idle)
    (hrun : AlongSome (NotifierSession.step build) NotifierSession.Possible (.construct n) events) :
    AlongSome (NotifierSession.step build)
        (fun s event => ∃ t, s.step build event = some t ∧ t.Right) (.construct n) events ↔
      AlongSome (NotifierSession.step build) (NotifierSession.Careful build) (.construct n)
        events := by
  have hpaired : n.Paired := by
    constructor <;> intro b data hb <;> rw [hstart.mVideoMetadataBufferMemoryMap] at hb <;> cases hb
  refine AlongSome.congr_invariant (I := fun s => s.Inv ∧ s.Right) hrun
    ⟨NotifierSession.construct_inv hpaired, NotifierSession.construct_right hstart⟩ ?_ ?_
  · intro s event hI hpossible
    exact NotifierSession.told hI.1 hI.2 hpossible
  · intro s event t hI hpossible hcareful ht
    obtain ⟨u, hu, hright⟩ := (NotifierSession.told hI.1 hI.2 hpossible).mpr hcareful
    obtain rfl := Option.some.inj (hu.symm.trans ht)
    exact ⟨hI.1.step hpossible ht, hright⟩

theorem sampleNotifier_idle : sampleNotifier.Idle := ⟨rfl, rfl, rfl, rfl, rfl⟩

/-- A recorded frame that is released before the recording stops. -/
theorem givesBackOnce_recording :
    AlongSome (NotifierSession.step ⟨true, false⟩)
      (fun s event => ∃ t, s.step ⟨true, false⟩ event = some t ∧ t.Right)
      (.construct sampleNotifier)
      [.halStartRecording false (fun i => some (300 + i)) [10, 20] [100, 200],
        .frameCallback (sampleFrame 10), .notifyFrame sampleReplies,
        .releaseRecordingFrame (fun _ => 0) (300, 10), .stopRecording] := by
  refine (givesBackOnce_iff ⟨true, false⟩ sampleNotifier _ sampleNotifier_idle ?_).mpr ?_
  · refine .cons (sampleRecording_possible false) (sampleRecording_eq false) ?_
    refine .cons trivial rfl ?_
    refine .cons trivial rfl ?_
    refine .cons (mem_singleton_self (300, 10)) rfl ?_
    exact ⟨fun _ => rfl, fun t _ => trivial⟩
  · refine .cons trivial (sampleRecording_eq false) ?_
    refine .cons trivial rfl ?_
    refine ⟨fun frame hframe => ?_, fun t ht => ?_⟩
    · obtain rfl := Option.some.inj hframe
      refine ⟨fun h => (by cases h.1), fun _ => ⟨rfl, by decide, ?_⟩⟩
      exact ⟨mem_cons_self, Option.some_ne_none 100⟩
    obtain rfl := Option.some.inj ht
    refine .cons (.inl rfl) rfl ?_
    exact ⟨trivial, fun t _ => trivial⟩

/-- A frame for the recorder that comes while no recording is made gets lost. -/
theorem recorder_frame_lost :
    ∃ events, AlongSome (NotifierSession.step ⟨true, false⟩) NotifierSession.Possible
        (.construct sampleNotifier) events ∧
      ¬ AlongSome (NotifierSession.step ⟨true, false⟩)
        (fun s event => ∃ t, s.step ⟨true, false⟩ event = some t ∧ t.Right)
        (.construct sampleNotifier) events := by
  refine ⟨[.frameCallback (sampleFrame 10), .notifyFrame sampleReplies], ?_, fun h => ?_⟩
  · exact ⟨trivial, fun t _ => ⟨trivial, fun t _ => trivial⟩⟩
  · obtain ⟨⟨t, ht, hright⟩, -⟩ := h.2 _ rfl
    obtain rfl := Option.some.inj ht
    exact absurd (hright.frames (10, .VIDEO_FRAME_SYNC)) (by decide)

end OmapHal.Camera
