import OmapHal.Camera.Delivery

/-!
# Counts and references

Between events each count is the number of references of its buffer, and of these at least as many
are with subscribers, or on their way to them, as the session says. What returns, arrivals and
recording do with the counts is said here once.
-/

namespace OmapHal.Camera

open Option List

open OmapHal.Core (KeyedVector)

variable {s : Adapter} {b b' : Address} {frameType : FrameType} {k k' : Pool} {n m : Int}

/-! ### The view of the counts -/

/-- A count as a vector keeps it; two of them keep only whether there is one. -/
def Pool.stored : Pool → Int → Int
  | .preview, n | .video, n => n
  | .capture, n | .previewData, n => if n ≠ 0 then 1 else 0

theorem getFrameRefCount_of_pool (h : frameType.pool = some k) :
    s.getFrameRefCount b frameType = s.count b k := by
  cases frameType <;> cases h <;> rfl

theorem valueFor_replaced (v : KeyedVector Address Int) :
    (v.replaceValueFor b n).valueFor b' =
      if b' = b then (v.valueFor b).map fun _ => n else v.valueFor b' := by
  by_cases hb : b' = b
  · rw [hb, KeyedVector.valueFor_replaceValueFor, if_pos rfl]
    simp only [if_true]
  · rw [KeyedVector.valueFor_replaceValueFor_of_ne hb, if_neg hb]

/-- The same for a vector that keeps only whether there is a reference. -/
theorem available_replaced (v : KeyedVector Address Bool) :
    ((v.replaceValueFor b (n ≠ 0)).valueFor b').map (fun available => (available.toNat : Int)) =
      if b' = b then
        ((v.valueFor b).map fun available => (available.toNat : Int)).map fun _ =>
          if n ≠ 0 then 1 else 0
      else (v.valueFor b').map fun available => (available.toNat : Int) := by
  by_cases hb : b' = b
  · rw [hb, KeyedVector.valueFor_replaceValueFor, if_pos rfl]
    cases v.valueFor b with
    | none => rfl
    | some x => by_cases hn : n = 0 <;> simp [hn]
  · rw [KeyedVector.valueFor_replaceValueFor_of_ne hb, if_neg hb]

theorem count_setFrameRefCount (h : frameType.pool = some k) :
    (s.setFrameRefCount b frameType n).count b' k' =
      if b' = b ∧ k' = k then (s.count b k).map fun _ => k.stored n else s.count b' k' := by
  cases frameType <;> cases h <;> cases k' <;>
    simp only [Adapter.setFrameRefCount, Adapter.count, Pool.stored, valueFor_replaced,
      available_replaced, and_true, reduceCtorEq, and_false, if_false]

@[simp] theorem filled_setFrameRefCount :
    (s.setFrameRefCount b frameType n).filled = s.filled := by
  cases frameType <;> rfl

@[simp] theorem count_countReturn : (s.countReturn frameType).count b k = s.count b k := by
  cases frameType <;> rfl

@[simp] theorem filled_countReturn : (s.countReturn frameType).filled = s.filled := by
  cases frameType <;> rfl

@[simp] theorem count_fillThisBuffer :
    (s.fillThisBuffer b' frameType).count b k = s.count b k := by
  cases k <;> rfl

/-- The numbers of frames with display and encoder. -/
def Adapter.numbers (s : Adapter) : BitVec 32 × BitVec 32 :=
  (s.mFramesWithDisplay, s.mFramesWithEncoder)

@[simp] theorem numbers_setFrameRefCount :
    (s.setFrameRefCount b frameType n).numbers = s.numbers := by
  cases frameType <;> rfl

/-- A count that is there and can be dropped is kept as it is. -/
theorem stored_pred (h : s.count b k = some n) (hpos : 0 < n) : k.stored (n - 1) = n - 1 := by
  have hbool : ∀ v : Option Bool, v.map (fun available => (available.toNat : Int)) = some n →
      n = 1 := by
    intro v hv
    obtain ⟨x, -, rfl⟩ := map_eq_some_iff.mp hv
    cases x <;> simp at hpos ⊢
  cases k with
  | preview | video => rfl
  | capture =>
    rw [hbool _ h]
    rfl
  | previewData =>
    rw [hbool _ h]
    rfl

theorem count_dropped (hpool : frameType.pool = some k) (hn : s.count b k = some n)
    (hpos : 0 < n) : (s.dropped b frameType n).count b' k' =
      if b' = b ∧ k' = k then some (n - 1) else s.count b' k' := by
  rw [Adapter.dropped, count_setFrameRefCount hpool, count_countReturn, count_countReturn, hn,
    map_some, stored_pred hn hpos]

/-- The vector that a return also looks at while recording. -/
def Pool.other : Pool → Option Pool
  | .preview => some .video
  | .video => some .preview
  | _ => none

theorem otherRefCount_of_pool (hpool : frameType.pool = some k) :
    s.otherRefCount b frameType =
      if s.mRecording then k.other.elim (some 0) (s.count b) else some 0 := by
  cases hrec : s.mRecording <;> cases frameType <;> cases hpool <;>
    simp [Adapter.otherRefCount, hrec, Pool.other, getFrameRefCount_of_pool, FrameType.pool]

/-- A return with an effect. -/
theorem returnFrame_of_count (hpool : frameType.pool = some k) (hb : b ≠ 0)
    (hn : s.count b k = some n) (hpos : 0 < n)
    (hother : (s.dropped b frameType n).otherRefCount b frameType = some m) :
    s.returnFrame b frameType = some (if n - 1 + m = 0 then
      (s.dropped b frameType n).fillThisBuffer b frameType else s.dropped b frameType n) := by
  rw [Adapter.returnFrame, if_neg hb, getFrameRefCount_of_pool hpool, hn]
  change (if 0 < n then _ else _) = _
  rw [if_pos hpos]
  change ((s.dropped b frameType n).otherRefCount b frameType).bind _ = _
  rw [hother]
  change (if n - 1 + m = 0 then _ else _) = _
  split <;> rfl

/-! ### Arrivals -/

variable {buf : Address} {types : List FrameType}

theorem subscribers_isSome (s : Adapter) (frameType : FrameType) :
    (s.subscribers frameType).isSome = frameType.pool.isSome := by
  cases frameType <;> rfl

/-- The effect of one turn on the counts. -/
theorem setInit_cases (s : Adapter) (buf : Address) (frameType : FrameType) :
    (frameType.pool = none ∧ s.setInit buf frameType = s) ∨
      ∃ k n, frameType.pool = some k ∧ (0 : Int) ≤ n ∧
        s.setInit buf frameType = s.setFrameRefCount buf frameType n := by
  have hsome := subscribers_isSome s frameType
  rw [Adapter.setInit]
  cases hsubs : s.subscribers frameType with
  | none =>
    rw [hsubs] at hsome
    exact .inl ⟨isNone_iff_eq_none.mp (by simpa using hsome), rfl⟩
  | some subscribers =>
    rw [hsubs] at hsome
    obtain ⟨k, hk⟩ := isSome_iff_exists.mp hsome.symm
    exact .inr ⟨k, subscribers.size, hk, Int.natCast_nonneg _, rfl⟩

theorem control_setInit : (s.setInit buf frameType).control = s.control := by
  rcases setInit_cases s buf frameType with ⟨-, h⟩ | ⟨k, n, -, -, h⟩ <;> rw [h]
  exact control_setFrameRefCount s buf frameType n

theorem filled_setInit : (s.setInit buf frameType).filled = s.filled := by
  rcases setInit_cases s buf frameType with ⟨-, h⟩ | ⟨k, n, -, -, h⟩ <;> rw [h]
  exact filled_setFrameRefCount

theorem numbers_setInit : (s.setInit buf frameType).numbers = s.numbers := by
  rcases setInit_cases s buf frameType with ⟨-, h⟩ | ⟨k, n, -, -, h⟩ <;> rw [h]
  exact numbers_setFrameRefCount

theorem count_setInit_of_ne (h : b ≠ buf ∨ frameType.pool ≠ some k) :
    (s.setInit buf frameType).count b k = s.count b k := by
  rcases setInit_cases s buf frameType with ⟨-, heq⟩ | ⟨k', n, hpool, -, heq⟩
  · rw [heq]
  · rw [heq, count_setFrameRefCount hpool, if_neg]
    rintro ⟨rfl, rfl⟩
    rcases h with h | h
    · exact h rfl
    · exact h hpool

theorem count_setInit_none :
    (s.setInit buf frameType).count b k = none ↔ s.count b k = none := by
  rcases setInit_cases s buf frameType with ⟨-, heq⟩ | ⟨k', n, hpool, -, heq⟩
  · rw [heq]
  · rw [heq, count_setFrameRefCount hpool]
    split
    · next heq' =>
      obtain ⟨rfl, rfl⟩ := heq'
      exact map_eq_none_iff
    · exact Iff.rfl

theorem stored_nonneg (hn : 0 ≤ n) : 0 ≤ k.stored n := by
  cases k with
  | preview | video => exact hn
  | capture | previewData =>
    rw [Pool.stored]
    split <;> decide

/-- A count that is set, or was not negative, is not negative. -/
theorem count_setInit_nonneg (h : frameType.pool = some k ∨ ∀ n, s.count buf k = some n → 0 ≤ n) :
    ∀ n, (s.setInit buf frameType).count buf k = some n → 0 ≤ n := by
  intro n hn
  by_cases hpool : frameType.pool = some k
  · rcases setInit_cases s buf frameType with ⟨hnone, -⟩ | ⟨k', m, hpool', hm, heq⟩
    · rw [hnone] at hpool
      cases hpool
    · obtain rfl := some.inj (hpool'.symm.trans hpool)
      rw [heq, count_setFrameRefCount hpool, if_pos ⟨rfl, rfl⟩] at hn
      obtain ⟨-, -, rfl⟩ := map_eq_some_iff.mp hn
      exact stored_nonneg hm
  · rw [count_setInit_of_ne (.inr hpool)] at hn
    exact h.resolve_left hpool n hn

/-- The effect of all turns. -/
structure SetsCounts (s : Adapter) (buf : Address) (types : List FrameType) (a : Adapter) :
    Prop where
  control : a.control = s.control
  filled : a.filled = s.filled
  numbers : a.numbers = s.numbers
  same : ∀ b k, b ≠ buf ∨ (∀ frameType ∈ types, frameType.pool ≠ some k) →
    a.count b k = s.count b k
  none_iff : ∀ b k, a.count b k = none ↔ s.count b k = none
  nonneg : ∀ k, (∃ frameType ∈ types, frameType.pool = some k) ∨
    (∀ n, s.count buf k = some n → 0 ≤ n) → ∀ n, a.count buf k = some n → 0 ≤ n

theorem setsCounts (s : Adapter) (buf : Address) (types : List FrameType) :
    SetsCounts s buf types (types.foldl (Adapter.setInit buf) s) := by
  induction types generalizing s with
  | nil =>
    refine ⟨rfl, rfl, rfl, fun _ _ _ => rfl, fun _ _ => Iff.rfl, fun k h => ?_⟩
    rcases h with ⟨_, hmem, -⟩ | h
    · cases hmem
    · exact h
  | cons frameType types ih =>
    have hrest := ih (s.setInit buf frameType)
    rw [foldl_cons]
    refine ⟨hrest.control.trans control_setInit, hrest.filled.trans filled_setInit,
      hrest.numbers.trans numbers_setInit, fun b k h => ?_,
      fun b k => (hrest.none_iff b k).trans count_setInit_none, fun k h => ?_⟩
    · rw [hrest.same b k (h.imp_right fun hall t ht => hall t (mem_cons_of_mem _ ht))]
      exact count_setInit_of_ne (h.imp_right fun hall => hall frameType mem_cons_self)
    · refine hrest.nonneg k ?_
      rcases h with ⟨t, hmem, ht⟩ | h
      · rcases mem_cons.mp hmem with rfl | hmem
        · exact .inr (count_setInit_nonneg (.inl ht))
        · exact .inl ⟨t, hmem, ht⟩
      · exact .inr (count_setInit_nonneg (.inr h))

end OmapHal.Camera
