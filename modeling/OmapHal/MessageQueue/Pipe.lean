import Mathlib.Data.List.OfFn
import OmapHal.Core.Run

/-!
# Messages through a pipe

`MessageQueue.cpp`: the queue is a pipe, `put` writes the bytes of a message in a loop and `get`
reads them in a loop. One step of the model is the call of a function or one pass of its loop, with
the answer of the kernel to the `write` or the `read` of that pass, so that a `put` and a `get` of
two threads mix in every way. `sizeof` is that of 32-bit ARM. `isEmpty`, `setMsg` and `waitForMsg`
move no bytes and are left out, and so is `setInFd`, which nothing calls.
-/

namespace OmapHal.MessageQueue

open List

/-- `sizeof(*msg)`: the command, four arguments, padding, and the `id` of eight bytes. -/
def sizeofMessage : Nat := 32

/-- `sizeof(msg)`. -/
def sizeofPointer : Nat := 4

/-- `Message`, as the bytes that are moved. -/
abbrev Message := Fin sizeofMessage → UInt8

namespace Message

def bytes (msg : Message) : List UInt8 := List.ofFn msg

/-- A message with other bytes at its start. -/
def overwrite (msg : Message) (chunk : List UInt8) : Message :=
  fun i => chunk.getD i (msg i)

@[simp]
theorem length_bytes (msg : Message) : msg.bytes.length = sizeofMessage := length_ofFn

theorem getElem?_bytes (msg : Message) (i : Fin sizeofMessage) :
    msg.bytes[i.val]? = some (msg i) := by
  rw [bytes, List.getElem?_ofFn, dif_pos i.isLt]

end Message

/-- `android::status_t`. -/
inductive Status where
  | NO_ERROR
  | BAD_VALUE
  | NO_INIT
  | UNKNOWN_ERROR
  deriving DecidableEq, Repr

/-- What the callers hand over: the message of each `put`, and what the buffer of each `get`
held. -/
structure Contents where
  message : Nat → Message
  buffer : Nat → Message

/-- A call of `put` or `get`, with a NULL pointer or not, or the answer to a `write` or a `read`. -/
inductive Event where
  | put (null : Bool)
  | write (err : Int)
  | get (null : Bool)
  | read (err : Int)
  deriving DecidableEq, Repr

/-- The last transfer of a call that succeeds: how many bytes the pipe had carried before, and the
bytes it moved. -/
structure Transfer where
  call : Nat
  offset : Nat
  count : Nat
  deriving DecidableEq, Repr

/-- `MessageQueue`, the pipe, and the calls so far. -/
structure Queue where
  fd_read : Int
  fd_write : Int
  mHasMsg : Bool
  /-- All bytes that were written to the pipe. -/
  carried : List UInt8
  /-- How many of them were read. -/
  taken : Nat
  /-- The message of a `put` that has not returned, with its `bytes`. -/
  putting : Option (Message × Nat)
  /-- The buffer of a `get` that has not returned, with its `read_bytes`. -/
  getting : Option (Message × Nat)
  putCalls : List Status
  getCalls : List Status
  /-- The messages that were put. -/
  sent : List (Message × Transfer)
  /-- The messages that `get` returned. -/
  received : List (Message × Transfer)

namespace Queue

/-- The bytes that wait in the pipe. -/
def pipe (q : Queue) : List UInt8 := q.carried.drop q.taken

/-- The constructor, with the descriptors of `pipe()`, or without where it fails. -/
def new : Option (Int × Int) → Queue
  | some (fdRead, fdWrite) => ⟨fdRead, fdWrite, false, [], 0, none, none, [], [], [], []⟩
  | none => ⟨0, 0, false, [], 0, none, none, [], [], [], []⟩

variable (c : Contents) (q : Queue)

/-- The head of `put`. -/
def put (null : Bool) : Queue :=
  if null then { q with putCalls := q.putCalls ++ [.BAD_VALUE] }
  else if q.fd_write = 0 then { q with putCalls := q.putCalls ++ [.NO_INIT] }
  else { q with putting := some (c.message q.putCalls.length, 0) }

/-- A pass of the loop of `put`. What is written is taken from the start of the message. -/
def write (msg : Message) (bytes : Nat) (err : Int) : Queue :=
  if err < 0 then { q with putting := none, putCalls := q.putCalls ++ [.UNKNOWN_ERROR] }
  else
    let carried := q.carried ++ msg.bytes.take err.toNat
    if bytes + err.toNat < sizeofPointer then
      { q with carried, putting := some (msg, bytes + err.toNat) }
    else
      { q with
        carried
        putting := none
        putCalls := q.putCalls ++ [.NO_ERROR]
        sent := q.sent ++ [(msg, ⟨q.putCalls.length, q.carried.length, err.toNat⟩)] }

/-- The head of `get`. -/
def get (null : Bool) : Queue :=
  if null then { q with getCalls := q.getCalls ++ [.BAD_VALUE] }
  else if q.fd_read = 0 then { q with getCalls := q.getCalls ++ [.NO_INIT] }
  else { q with getting := some (c.buffer q.getCalls.length, 0) }

/-- A pass of the loop of `get`. What is read goes to the start of the message. -/
def read (msg : Message) (read_bytes : Nat) (err : Int) : Queue :=
  if err < 0 then { q with getting := none, getCalls := q.getCalls ++ [.UNKNOWN_ERROR] }
  else
    let msg := msg.overwrite (q.pipe.take err.toNat)
    let taken := q.taken + err.toNat
    if read_bytes + err.toNat < sizeofMessage then
      { q with taken, getting := some (msg, read_bytes + err.toNat) }
    else
      { q with
        mHasMsg := false
        taken
        getting := none
        getCalls := q.getCalls ++ [.NO_ERROR]
        received := q.received ++ [(msg, ⟨q.getCalls.length, q.taken, err.toNat⟩)] }

/-- One event. What can not happen leaves the queue as it is: a call before the last one has
returned, a pass of a loop that does not run, a transfer of more bytes than were asked for or than
there are. -/
def step (q : Queue) : Event → Queue
  | .put null =>
    match q.putting with
    | some _ => q
    | none => q.put c null
  | .write err =>
    match q.putting with
    | some (msg, bytes) => if bytes + err ≤ sizeofMessage then q.write msg bytes err else q
    | none => q
  | .get null =>
    match q.getting with
    | some _ => q
    | none => q.get c null
  | .read err =>
    match q.getting with
    | some (msg, read_bytes) =>
      if read_bytes + err ≤ sizeofMessage ∧ err ≤ q.pipe.length then
        q.read msg read_bytes err
      else q
    | none => q

/-- A run: the counts of all transfers, whatever the messages are. -/
def run (fds : Option (Int × Int)) (events : List Event) : Queue :=
  events.foldl (step c) (new fds)

end Queue

/-! ### Counts do not depend on the messages -/

namespace Queue

/-- Two queues that differ in the bytes of the messages only. -/
structure SameCounts (q q' : Queue) : Prop where
  fd_read : q.fd_read = q'.fd_read
  fd_write : q.fd_write = q'.fd_write
  carried : q.carried.length = q'.carried.length
  taken : q.taken = q'.taken
  putting : q.putting.map Prod.snd = q'.putting.map Prod.snd
  getting : q.getting.map Prod.snd = q'.getting.map Prod.snd
  putCalls : q.putCalls = q'.putCalls
  getCalls : q.getCalls = q'.getCalls
  sent : q.sent.map Prod.snd = q'.sent.map Prod.snd
  received : q.received.map Prod.snd = q'.received.map Prod.snd

namespace SameCounts

variable {c c' : Contents} {q q' : Queue}

theorem pipe_length (h : SameCounts q q') : q.pipe.length = q'.pipe.length := by
  rw [pipe, pipe, length_drop, length_drop, h.carried, h.taken]

theorem put (h : SameCounts q q') (null : Bool) : SameCounts (q.put c null) (q'.put c' null) := by
  have hfd : q.fd_write = 0 ↔ q'.fd_write = 0 := by rw [h.fd_write]
  simp only [Queue.put]
  split
  · exact { h with putCalls := congrArg (· ++ [_]) h.putCalls }
  · split
    next hq =>
      rw [if_pos (hfd.mp hq)]
      exact { h with putCalls := congrArg (· ++ [_]) h.putCalls }
    next hq =>
      rw [if_neg (hfd.not.mp hq)]
      exact { h with putting := rfl }

theorem get (h : SameCounts q q') (null : Bool) : SameCounts (q.get c null) (q'.get c' null) := by
  have hfd : q.fd_read = 0 ↔ q'.fd_read = 0 := by rw [h.fd_read]
  simp only [Queue.get]
  split
  · exact { h with getCalls := congrArg (· ++ [_]) h.getCalls }
  · split
    next hq =>
      rw [if_pos (hfd.mp hq)]
      exact { h with getCalls := congrArg (· ++ [_]) h.getCalls }
    next hq =>
      rw [if_neg (hfd.not.mp hq)]
      exact { h with getting := rfl }

theorem write (h : SameCounts q q') (msg msg' : Message) (bytes : Nat) (err : Int) :
    SameCounts (q.write msg bytes err) (q'.write msg' bytes err) := by
  have hcarried : (q.carried ++ msg.bytes.take err.toNat).length =
      (q'.carried ++ msg'.bytes.take err.toNat).length := by
    simp only [length_append, length_take, Message.length_bytes, h.carried]
  simp only [Queue.write]
  split
  · exact { h with putting := rfl, putCalls := congrArg (· ++ [_]) h.putCalls }
  · split
    · exact { h with putting := rfl, carried := hcarried }
    · refine { h with
        putting := rfl
        carried := hcarried
        putCalls := congrArg (· ++ [_]) h.putCalls
        sent := ?_ }
      simp only [map_append, map_cons, map_nil, h.sent, h.carried, h.putCalls]

theorem read (h : SameCounts q q') (msg msg' : Message) (read_bytes : Nat) (err : Int) :
    SameCounts (q.read msg read_bytes err) (q'.read msg' read_bytes err) := by
  have htaken : q.taken + err.toNat = q'.taken + err.toNat := by rw [h.taken]
  simp only [Queue.read]
  split
  · exact { h with getting := rfl, getCalls := congrArg (· ++ [_]) h.getCalls }
  · split
    · exact { h with getting := rfl, taken := htaken }
    · refine { h with
        getting := rfl
        taken := htaken
        getCalls := congrArg (· ++ [_]) h.getCalls
        received := ?_ }
      simp only [map_append, map_cons, map_nil, h.received, h.taken, h.getCalls]

/-- The counts do not depend on the contents. -/
theorem step (h : SameCounts q q') (e : Event) : SameCounts (q.step c e) (q'.step c' e) := by
  have hputting := h.putting
  have hgetting := h.getting
  cases e with
  | put null =>
    cases hq : q.putting <;> cases hq' : q'.putting <;> simp [hq, hq'] at hputting
    · simpa only [Queue.step, hq, hq'] using h.put null
    · simpa only [Queue.step, hq, hq'] using h
  | write err =>
    cases hq : q.putting <;> cases hq' : q'.putting <;> simp [hq, hq'] at hputting
    · simpa only [Queue.step, hq, hq'] using h
    · simp only [Queue.step, hq, hq', hputting]
      split
      · exact h.write _ _ _ _
      · exact h
  | get null =>
    cases hq : q.getting <;> cases hq' : q'.getting <;> simp [hq, hq'] at hgetting
    · simpa only [Queue.step, hq, hq'] using h.get null
    · simpa only [Queue.step, hq, hq'] using h
  | read err =>
    cases hq : q.getting <;> cases hq' : q'.getting <;> simp [hq, hq'] at hgetting
    · simpa only [Queue.step, hq, hq'] using h
    · simp only [Queue.step, hq, hq', hgetting, h.pipe_length]
      split
      · exact h.read _ _ _ _
      · exact h

end SameCounts

/-- The counts of a run are those of its events. -/
theorem run_sameCounts (c c' : Contents) (fds : Option (Int × Int)) (events : List Event) :
    SameCounts (run c fds events) (run c' fds events) := by
  induction events using reverseRecOn with
  | nil => constructor <;> rfl
  | append_singleton events e ih =>
    simp only [run, foldl_append, foldl_cons, foldl_nil]
    exact ih.step e

end Queue

end OmapHal.MessageQueue
