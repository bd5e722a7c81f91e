import Mathlib.Data.List.Nodup
import OmapHal.MessageQueue.Pipe

/-!
# Messages in the pipe

Where the messages stand in what the pipe carries. Both loops start again at the first byte of the
message in every pass, so that the last byte is moved by a transfer of the whole message only.
-/

namespace OmapHal.MessageQueue

open List Nat

/-- The last byte of a message. -/
def lastByte : Fin sizeofMessage := ⟨31, by decide⟩

/-- A message stands whole in a string of bytes. -/
def Message.At (msg : Message) (bytes : List UInt8) (offset : Nat) : Prop :=
  ∀ i : Fin sizeofMessage, bytes[offset + i]? = some (msg i)

namespace Message

variable {msg msg' : Message} {bytes : List UInt8} {offset : Nat}

theorem At.append (h : msg.At bytes offset) (more : List UInt8) :
    msg.At (bytes ++ more) offset := by
  intro i
  have hi := h i
  have hlt := (List.getElem?_eq_some_iff.mp hi).1
  rw [List.getElem?_append_left hlt, hi]

/-- At most one message stands at an offset. -/
theorem At.unique (h : msg.At bytes offset) (h' : msg'.At bytes offset) : msg = msg' :=
  funext fun i => Option.some.inj ((h i).symm.trans (h' i))

theorem at_append_bytes (bytes : List UInt8) : msg.At (bytes ++ msg.bytes) bytes.length := by
  intro i
  rw [getElem?_append_right (Nat.le_add_right _ _), Nat.add_sub_cancel_left, getElem?_bytes]

/-- A short chunk leaves the last byte as it was. -/
private theorem overwrite_last {chunk : List UInt8} (h : chunk.length < sizeofMessage) :
    msg.overwrite chunk lastByte = msg lastByte := by
  have hnone : chunk[lastByte.val]? = none := getElem?_eq_none (by
    have : lastByte.val = 31 := rfl
    simp only [sizeofMessage] at h
    omega)
  rw [overwrite, getD_eq_getElem?_getD, hnone, Option.getD_none]

/-- Bytes that fill a message are the message afterwards. -/
private theorem overwrite_at (h : offset + sizeofMessage ≤ bytes.length) :
    (msg.overwrite ((bytes.drop offset).take sizeofMessage)).At bytes offset := by
  intro i
  have hi := i.isLt
  have hlt : offset + i < bytes.length := by omega
  rw [overwrite, getD_eq_getElem?_getD, getElem?_take_of_lt hi, getElem?_drop,
    getElem?_eq_getElem hlt, Option.getD_some]

end Message

/-! ### What a run keeps -/

/-- Where the messages of a run stand, for the calls with given contents. -/
structure Placed (c : Contents) (q : Queue) : Prop where
  putting : ∀ msg bytes, q.putting = some (msg, bytes) →
    msg = c.message q.putCalls.length ∧ bytes < sizeofPointer
  getting : ∀ msg read_bytes, q.getting = some (msg, read_bytes) →
    msg lastByte = c.buffer q.getCalls.length lastByte
  taken : q.taken ≤ q.carried.length
  sent : ∀ msg t, (msg, t) ∈ q.sent → msg = c.message t.call ∧ t.call < q.putCalls.length ∧
    (t.count = sizeofMessage → msg.At q.carried t.offset)
  calls : (q.sent.map fun e => e.2.call).Nodup
  received : ∀ msg t, (msg, t) ∈ q.received →
    (t.count = sizeofMessage → msg.At q.carried t.offset) ∧
    (t.count ≠ sizeofMessage → msg lastByte = c.buffer t.call lastByte)
  /-- The last byte of a message is in the pipe after a whole transfer only. -/
  origin : ∀ j b, q.carried[j]? = some b → ∃ call i, b = c.message call i ∧
    (i = lastByte → ∃ msg t, (msg, t) ∈ q.sent ∧ t.call = call ∧ t.count = sizeofMessage ∧
      t.offset + lastByte = j)

namespace Placed

variable {c : Contents} {q : Queue}

theorem new (fds : Option (Int × Int)) : Placed c (Queue.new fds) := by
  cases fds <;> constructor <;> simp [Queue.new]

theorem put (h : Placed c q) (hq : q.putting = none) (null : Bool) : Placed c (q.put c null) := by
  have hreturn (status : Status) : Placed c { q with putCalls := q.putCalls ++ [status] } := by
    refine { h with putting := ?_, sent := ?_ }
    · intro msg bytes hmsg
      exact absurd (hq.symm.trans hmsg) (by simp)
    · intro msg t hmem
      obtain ⟨hmsg, hcall, hat⟩ := h.sent msg t hmem
      refine ⟨hmsg, ?_, hat⟩
      simp only [length_append, length_singleton]
      omega
  simp only [Queue.put]
  split
  · exact hreturn _
  · split
    · exact hreturn _
    · refine { h with putting := ?_ }
      rintro msg bytes ⟨⟩
      exact ⟨rfl, by decide⟩

theorem get (h : Placed c q) (hq : q.getting = none) (null : Bool) : Placed c (q.get c null) := by
  have hreturn (status : Status) : Placed c { q with getCalls := q.getCalls ++ [status] } := by
    refine { h with getting := ?_ }
    intro msg read_bytes hmsg
    exact absurd (hq.symm.trans hmsg) (by simp)
  simp only [Queue.get]
  split
  · exact hreturn _
  · split
    · exact hreturn _
    · refine { h with getting := ?_ }
      rintro msg read_bytes ⟨⟩
      rfl

/-- What is written behind the bytes of the pipe is the start of the message. -/
theorem origin_append (h : Placed c q) {msg : Message} {count : Nat}
    (hmsg : msg = c.message q.putCalls.length) {j : Nat} {b : UInt8}
    (hb : (q.carried ++ msg.bytes.take count)[j]? = some b) :
    (∃ call i, b = c.message call i ∧ (i = lastByte → ∃ msg t, (msg, t) ∈ q.sent ∧ t.call = call ∧
      t.count = sizeofMessage ∧ t.offset + lastByte = j)) ∨
    (∃ i : Fin sizeofMessage, b = c.message q.putCalls.length i ∧ i < count ∧
      j = q.carried.length + i) := by
  rcases lt_or_ge j q.carried.length with hj | hj
  · rw [getElem?_append_left hj] at hb
    exact .inl (h.origin j b hb)
  · right
    rw [getElem?_append_right hj, getElem?_take] at hb
    split at hb
    next hlt =>
      obtain ⟨hsize, -⟩ := List.getElem?_eq_some_iff.mp hb
      rw [Message.length_bytes] at hsize
      refine ⟨⟨j - q.carried.length, hsize⟩, ?_, hlt, (Nat.add_sub_cancel' hj).symm⟩
      rw [Message.getElem?_bytes msg ⟨j - q.carried.length, hsize⟩, hmsg] at hb
      exact (Option.some.inj hb).symm
    next => exact absurd hb (by simp)

/-- A pass puts its bytes behind those before. -/
theorem write (h : Placed c q) {msg : Message} {bytes : Nat} (hq : q.putting = some (msg, bytes))
    {err : Int} (hle : bytes + err ≤ sizeofMessage) : Placed c (q.write msg bytes err) := by
  obtain ⟨hmsg, hbytes⟩ := h.putting msg bytes hq
  have hsize : sizeofMessage = 32 := rfl
  have hpointer : sizeofPointer = 4 := rfl
  have hlast : lastByte.val = 31 := rfl
  simp only [Queue.write]
  split
  next hneg =>
    refine { h with putting := by simp, sent := ?_ }
    intro msg t hmem
    obtain ⟨hm, hcall, hat⟩ := h.sent msg t hmem
    exact ⟨hm, by simp only [length_append, length_singleton]; omega, hat⟩
  next hneg =>
    have htaken : q.taken ≤ (q.carried ++ msg.bytes.take err.toNat).length := by
      rw [length_append]
      exact h.taken.trans (le_add_right _ _)
    have hreceived (m : Message) (t : Transfer) (hmem : (m, t) ∈ q.received) :
        (t.count = sizeofMessage → m.At (q.carried ++ msg.bytes.take err.toNat) t.offset) ∧
        (t.count ≠ sizeofMessage → m lastByte = c.buffer t.call lastByte) :=
      ⟨fun hcount => ((h.received m t hmem).1 hcount).append _, (h.received m t hmem).2⟩
    split
    next hmore =>
      refine { h with
        putting := ?_, taken := htaken, sent := ?_, received := hreceived, origin := ?_ }
      · rintro _ _ ⟨⟩
        exact ⟨hmsg, hmore⟩
      · intro m t hmem
        obtain ⟨hm, hcall, hat⟩ := h.sent m t hmem
        exact ⟨hm, hcall, fun hcount => (hat hcount).append _⟩
      · intro j b hb
        rcases h.origin_append hmsg hb with hold | ⟨i, hbi, hi, hj⟩
        · exact hold
        · exact ⟨q.putCalls.length, i, hbi, fun hilast => by subst hilast; omega⟩
    next hdone =>
      refine { h with
        putting := by simp, taken := htaken, sent := ?_, calls := ?_, received := hreceived,
        origin := ?_ }
      · intro m t hmem
        simp only [length_append, length_singleton]
        rcases mem_append.mp hmem with hmem | hmem
        · obtain ⟨hm, hcall, hat⟩ := h.sent m t hmem
          exact ⟨hm, by omega, fun hcount => (hat hcount).append _⟩
        · obtain ⟨rfl, rfl⟩ := Prod.mk.inj (mem_singleton.mp hmem)
          refine ⟨hmsg, lt_succ_self _, fun hcount => ?_⟩
          have hwhole : m.bytes.take err.toNat = m.bytes :=
            take_of_length_le (by rw [Message.length_bytes]; exact le_of_eq hcount.symm)
          rw [hwhole]
          exact Message.at_append_bytes q.carried
      · rw [map_append, map_cons, map_nil]
        refine Nodup.append h.calls (nodup_singleton _) ?_
        rintro call hold hnew
        obtain ⟨⟨m, t⟩, hmem, rfl⟩ := mem_map.mp hold
        have hcall : t.call = q.putCalls.length := mem_singleton.mp hnew
        have := (h.sent m t hmem).2.1
        omega
      · intro j b hb
        rcases h.origin_append hmsg hb with ⟨call, i, hbi, hold⟩ | ⟨i, hbi, hi, hj⟩
        · refine ⟨call, i, hbi, fun hilast => ?_⟩
          obtain ⟨m, t, hmem, hrest⟩ := hold hilast
          exact ⟨m, t, mem_append_left _ hmem, hrest⟩
        · refine ⟨q.putCalls.length, i, hbi, fun hilast => ?_⟩
          subst hilast
          refine ⟨msg, _, mem_append_right _ (mem_singleton.mpr rfl), rfl, ?_, hj.symm⟩
          change err.toNat = sizeofMessage
          omega

/-- A pass takes the next bytes. -/
theorem read (h : Placed c q) {msg : Message} {read_bytes : Nat}
    (hq : q.getting = some (msg, read_bytes)) {err : Int} (hle : read_bytes + err ≤ sizeofMessage)
    (hpipe : err ≤ q.pipe.length) : Placed c (q.read msg read_bytes err) := by
  have hbuffer := h.getting msg read_bytes hq
  have hcarried := h.taken
  rw [Queue.pipe, length_drop] at hpipe
  simp only [Queue.read]
  split
  · exact { h with getting := by simp }
  next hneg =>
    have htaken : q.taken + err.toNat ≤ q.carried.length := by omega
    have hshort (hlt : err.toNat < sizeofMessage) :
        (msg.overwrite (q.pipe.take err.toNat)) lastByte = c.buffer q.getCalls.length lastByte := by
      rw [Message.overwrite_last, hbuffer]
      exact lt_of_le_of_lt (length_take_le _ _) hlt
    split
    next hmore =>
      refine { h with getting := ?_, taken := htaken }
      rintro _ _ ⟨⟩
      exact hshort (by omega)
    next hdone =>
      refine { h with getting := by simp, taken := htaken, received := ?_ }
      intro m t hmem
      rcases mem_append.mp hmem with hmem | hmem
      · exact h.received m t hmem
      · obtain ⟨rfl, rfl⟩ := Prod.mk.inj (mem_singleton.mp hmem)
        refine ⟨fun hcount => ?_, fun hcount => hshort ?_⟩
        · change err.toNat = sizeofMessage at hcount
          rw [hcount] at htaken ⊢
          exact Message.overwrite_at htaken
        · change err.toNat ≠ sizeofMessage at hcount
          omega

/-- Every event keeps the messages in place. -/
theorem step (h : Placed c q) (e : Event) : Placed c (q.step c e) := by
  cases e with
  | put null =>
    cases hq : q.putting with
    | none => simpa only [Queue.step, hq] using h.put hq null
    | some _ => simpa only [Queue.step, hq] using h
  | write err =>
    cases hq : q.putting with
    | none => simpa only [Queue.step, hq] using h
    | some p =>
      simp only [Queue.step, hq]
      split
      next hle => exact h.write hq hle
      next => exact h
  | get null =>
    cases hq : q.getting with
    | none => simpa only [Queue.step, hq] using h.get hq null
    | some _ => simpa only [Queue.step, hq] using h
  | read err =>
    cases hq : q.getting with
    | none => simpa only [Queue.step, hq] using h
    | some p =>
      simp only [Queue.step, hq]
      split
      next hle => exact h.read hq hle.1 hle.2
      next => exact h

theorem run (c : Contents) (fds : Option (Int × Int)) (events : List Event) :
    Placed c (Queue.run c fds events) :=
  Core.foldl_invariant (new fds) fun _ e h => h.step e

end Placed

end OmapHal.MessageQueue
