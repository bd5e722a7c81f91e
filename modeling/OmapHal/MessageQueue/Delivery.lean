import Mathlib.Data.List.Flatten
import OmapHal.MessageQueue.Placement

/-!
# Delivery of messages

When the messages that `get` returns are those that were put: each is written in one transfer and
read in one, from the same place of the pipe. The loop of `put` ends with the size of a pointer
already, so that a shorter write puts the rest of the message aside.
-/

namespace OmapHal.MessageQueue

open List Nat

variable {msgs : List Message} {msg : Message} {bytes : List UInt8} {taken offset : Nat}

/-! ### The messages of a run -/

/-- The messages that were returned are those that were put, in their order, and between calls the
others wait in the pipe. -/
structure Delivers (q : Queue) : Prop where
  returned : q.received.map Prod.fst <+: q.sent.map Prod.fst
  waiting : q.putting = none → q.getting = none →
    q.pipe = ((q.sent.map Prod.fst).drop q.received.length).flatMap Message.bytes

/-- Of the counts alone: a message that was returned was read in one transfer, it was written in
one, and both have the same place in what the pipe carried. Between calls the pipe holds nothing but
such messages. -/
structure Aligned (q : Queue) : Prop where
  returned : ∀ (n : Nat) (u : Transfer), (q.received.map Prod.snd)[n]? = some u →
    u.count = sizeofMessage ∧ ∃ t : Transfer, (q.sent.map Prod.snd)[n]? = some t ∧
      t.count = sizeofMessage ∧ t.offset = u.offset
  waiting : q.putting = none → q.getting = none →
    q.carried.length = q.taken + sizeofMessage * (q.sent.length - q.received.length) ∧
    ∀ (k : Nat) (t : Transfer), (q.sent.map Prod.snd)[q.received.length + k]? = some t →
      t.count = sizeofMessage ∧ t.offset = q.taken + sizeofMessage * k

/-- An entry of a list of pairs, found by its second part. -/
private theorem getElem?_of_map_snd {α β : Type} {l : List (α × β)} {n : Nat} {b : β}
    (h : (l.map Prod.snd)[n]? = some b) : ∃ a, l[n]? = some (a, b) := by
  rw [getElem?_map] at h
  obtain ⟨⟨a, _⟩, hentry, rfl⟩ := Option.map_eq_some_iff.mp h
  exact ⟨a, hentry⟩

namespace Queue.SameCounts

variable {q q' : Queue} (h : SameCounts q q')

include h in
theorem putting_none : q.putting = none ↔ q'.putting = none := by
  rw [← Option.map_eq_none_iff (f := Prod.snd), h.putting, Option.map_eq_none_iff]

include h in
theorem getting_none : q.getting = none ↔ q'.getting = none := by
  rw [← Option.map_eq_none_iff (f := Prod.snd), h.getting, Option.map_eq_none_iff]

include h in
theorem length_sent : q.sent.length = q'.sent.length := by
  simpa only [length_map] using congrArg length h.sent

include h in
theorem length_received : q.received.length = q'.received.length := by
  simpa only [length_map] using congrArg length h.received

include h in
theorem aligned (ha : Aligned q) : Aligned q' := by
  refine ⟨?_, fun hput hget => ?_⟩
  · rw [← h.sent, ← h.received]
    exact ha.returned
  · rw [← h.sent, ← h.carried, ← h.taken, ← h.length_sent, ← h.length_received]
    exact ha.waiting (h.putting_none.mpr hput) (h.getting_none.mpr hget)

end Queue.SameCounts

/-! ### The bytes of messages one behind the other -/

private theorem length_flatMap_bytes (msgs : List Message) :
    (msgs.flatMap Message.bytes).length = sizeofMessage * msgs.length := by
  induction msgs with
  | nil => rfl
  | cons msg msgs ih =>
    rw [flatMap_cons, length_append, Message.length_bytes, ih, length_cons, mul_succ,
      Nat.add_comm]

/-- The `k`th message stands behind `k` others. -/
theorem at_flatMap_bytes {k : Nat} (h : msgs[k]? = some msg) :
    msg.At (msgs.flatMap Message.bytes) (sizeofMessage * k) := by
  obtain ⟨hk, rfl⟩ := List.getElem?_eq_some_iff.mp h
  have hsplit : msgs = msgs.take k ++ msgs[k] :: msgs.drop (k + 1) := by
    rw [← drop_eq_getElem_cons hk, take_append_drop]
  have hlen : ((msgs.take k).flatMap Message.bytes).length = sizeofMessage * k := by
    rw [length_flatMap_bytes, length_take, min_eq_left hk.le]
  have hbefore : msgs[k].At ((msgs.take k).flatMap Message.bytes ++ msgs[k].bytes)
      ((msgs.take k).flatMap Message.bytes).length := Message.at_append_bytes _
  have hat := hbefore.append ((msgs.drop (k + 1)).flatMap Message.bytes)
  rw [hlen, append_assoc, ← flatMap_cons, ← flatMap_append, ← hsplit] at hat
  exact hat

/-- Bytes in which the messages stand one behind the other, and no others. -/
theorem eq_flatMap_bytes (hlen : bytes.length = sizeofMessage * msgs.length)
    (h : ∀ (k : Nat) (msg : Message), msgs[k]? = some msg → msg.At bytes (sizeofMessage * k)) :
    bytes = msgs.flatMap Message.bytes := by
  refine ext_getElem? fun j => ?_
  rcases lt_or_ge j bytes.length with hj | hj
  · have hpos : 0 < sizeofMessage := by decide
    have hk : j / sizeofMessage < msgs.length := Nat.div_lt_of_lt_mul (hlen ▸ hj)
    have hmsg : msgs[j / sizeofMessage]? = some msgs[j / sizeofMessage] := getElem?_eq_getElem hk
    have hj' : sizeofMessage * (j / sizeofMessage) + j % sizeofMessage = j := div_add_mod _ _
    have hleft := h _ _ hmsg ⟨j % sizeofMessage, mod_lt _ hpos⟩
    have hright := at_flatMap_bytes hmsg ⟨j % sizeofMessage, mod_lt _ hpos⟩
    simp only [hj'] at hleft hright
    rw [hleft, hright]
  · rw [getElem?_eq_none hj, getElem?_eq_none (by rw [length_flatMap_bytes, ← hlen]; exact hj)]

/-! ### When the messages arrive -/

theorem Message.At.of_drop (h : msg.At (bytes.drop taken) offset) :
    msg.At bytes (taken + offset) := by
  intro i
  have hi := h i
  rw [getElem?_drop, ← Nat.add_assoc] at hi
  exact hi

theorem Message.At.drop (h : msg.At bytes (taken + offset)) :
    msg.At (bytes.drop taken) offset := by
  intro i
  rw [getElem?_drop, ← Nat.add_assoc]
  exact h i

/-- Whole transfers at the same places carry every message. -/
theorem Placed.delivers {c : Contents} {q : Queue} (h : Placed c q) (ha : Aligned q) :
    Delivers q := by
  have hsent (n : Nat) (t : Transfer) (ht : (q.sent.map Prod.snd)[n]? = some t)
      (hcount : t.count = sizeofMessage) :
      ∃ msg, (q.sent.map Prod.fst)[n]? = some msg ∧ msg.At q.carried t.offset := by
    obtain ⟨msg, hmsg⟩ := getElem?_of_map_snd ht
    refine ⟨msg, by rw [getElem?_map, hmsg]; rfl, ?_⟩
    exact (h.sent msg t (mem_of_getElem? hmsg)).2.2 hcount
  refine ⟨?_, fun hput hget => ?_⟩
  · rw [prefix_iff_getElem?]
    intro n hn
    obtain ⟨⟨msg, u⟩, hentry⟩ : ∃ e, q.received[n]? = some e :=
      ⟨_, getElem?_eq_getElem (by rwa [length_map] at hn)⟩
    obtain ⟨hcount, t, ht, hcount', hoffset⟩ :=
      ha.returned n u (by rw [getElem?_map, hentry]; rfl)
    obtain ⟨msg', hmsg', hat'⟩ := hsent n t ht hcount'
    have hat := (h.received msg u (mem_of_getElem? hentry)).1 hcount
    have hsame : msg = msg' := hat.unique (hoffset ▸ hat')
    have hget : (q.received.map Prod.fst)[n] = msg := by
      apply Option.some.inj
      rw [← getElem?_eq_getElem hn, getElem?_map, hentry]
      rfl
    rw [hmsg', hget, hsame]
  · obtain ⟨hlen, hwaiting⟩ := ha.waiting hput hget
    refine eq_flatMap_bytes ?_ fun k msg hmsg => ?_
    · rw [Queue.pipe, length_drop, hlen, length_drop, length_map, Nat.add_sub_cancel_left]
    · rw [getElem?_drop] at hmsg
      obtain ⟨⟨_, t⟩, hentry, rfl⟩ := Option.map_eq_some_iff.mp (getElem?_map ▸ hmsg)
      have ht : (q.sent.map Prod.snd)[q.received.length + k]? = some t := by
        rw [getElem?_map, hentry]
        rfl
      obtain ⟨hcount, hoffset⟩ := hwaiting k t ht
      have hat := (h.sent _ t (mem_of_getElem? hentry)).2.2 hcount
      exact (hoffset ▸ hat).drop

/-- Messages of zeros, but for the last byte of one of them, and buffers of zeros. -/
def marked (call : Nat) : Contents where
  message n i := if n = call ∧ i = lastByte then 1 else 0
  buffer _ _ := 0

/-- The mark is where one whole transfer brought it. -/
theorem Placed.mark {call : Nat} {q : Queue} (h : Placed (marked call) q)
    (hat : q.carried[offset + lastByte.val]? = some 1) {t : Transfer} (ht : t ∈ q.sent.map Prod.snd)
    (hcall : t.call = call) : t.count = sizeofMessage ∧ t.offset = offset := by
  obtain ⟨a, i, hbyte, horigin⟩ := h.origin _ _ hat
  simp only [marked] at hbyte
  split at hbyte
  next hmark =>
    obtain ⟨msg, t', hmem, hcall', hcount, hoffset⟩ := horigin hmark.2
    obtain ⟨⟨msg', _⟩, hmem', rfl⟩ := mem_map.mp ht
    have hsame := inj_on_of_nodup_map h.calls hmem hmem' (by rw [hcall', hmark.1, hcall])
    obtain ⟨rfl, rfl⟩ := Prod.mk.inj hsame
    exact ⟨hcount, Nat.add_right_cancel hoffset⟩
  next => exact absurd hbyte (by decide)

/-- If the messages arrive whatever they are, the transfers are whole and at the same places. -/
theorem aligned_of_delivers {fds : Option (Int × Int)} {events : List Event}
    (h : ∀ c, Delivers (Queue.run c fds events)) (c : Contents) :
    Aligned (Queue.run c fds events) := by
  have hmark (c : Contents) (n : Nat) (t : Transfer)
      (ht : ((Queue.run c fds events).sent.map Prod.snd)[n]? = some t) :
      ∃ msg : Message, ((Queue.run (marked t.call) fds events).sent.map Prod.fst)[n]? = some msg ∧
        msg lastByte = 1 ∧ t ∈ (Queue.run (marked t.call) fds events).sent.map Prod.snd := by
    have hcounts := Queue.run_sameCounts c (marked t.call) fds events
    rw [hcounts.sent] at ht
    obtain ⟨msg, hentry⟩ := getElem?_of_map_snd ht
    have hmsg := ((Placed.run (marked t.call) fds events).sent msg t (mem_of_getElem? hentry)).1
    refine ⟨msg, by rw [getElem?_map, hentry]; rfl, ?_, mem_of_getElem? ht⟩
    rw [hmsg]
    exact if_pos ⟨rfl, rfl⟩
  refine ⟨fun n u hu => ?_, fun hput hget => ?_⟩
  · have hlt : n < ((Queue.run c fds events).sent.map Prod.snd).length := by
      have hle := (h c).returned.length_le
      have hn := (List.getElem?_eq_some_iff.mp hu).1
      simp only [length_map] at hle hn ⊢
      omega
    obtain ⟨t, ht⟩ : ∃ t, ((Queue.run c fds events).sent.map Prod.snd)[n]? = some t :=
      ⟨_, getElem?_eq_getElem hlt⟩
    obtain ⟨msg, hmsg, hone, hmem⟩ := hmark c n t ht
    have hcounts := Queue.run_sameCounts c (marked t.call) fds events
    have hplaced := Placed.run (marked t.call) fds events
    rw [hcounts.received] at hu
    obtain ⟨msg', hentry⟩ := getElem?_of_map_snd hu
    obtain ⟨hwhole, hshort⟩ := hplaced.received msg' u (mem_of_getElem? hentry)
    have hsame : msg' = msg := by
      have hreturned := prefix_iff_getElem?.mp (h (marked t.call)).returned n
        (by rw [List.length_map]; exact (List.getElem?_eq_some_iff.mp hentry).1)
      rw [hmsg, ← getElem?_eq_getElem, getElem?_map, hentry] at hreturned
      exact (Option.some.inj hreturned).symm
    have hcount : u.count = sizeofMessage := by
      by_contra hne
      have hzero := hshort hne
      rw [hsame, hone] at hzero
      exact absurd hzero (by decide : (1 : UInt8) ≠ 0)
    have hat := hwhole hcount lastByte
    rw [hsame, hone] at hat
    exact ⟨hcount, t, ht, hplaced.mark hat hmem rfl⟩
  · have htaken := (Placed.run c fds events).taken
    have hlen := congrArg length ((h c).waiting hput hget)
    rw [length_flatMap_bytes, length_drop, length_map, Queue.pipe, length_drop] at hlen
    refine ⟨by omega, fun k t ht => ?_⟩
    obtain ⟨msg, hmsg, hone, hmem⟩ := hmark c _ t ht
    have hcounts := Queue.run_sameCounts c (marked t.call) fds events
    have hpipe := (h (marked t.call)).waiting (hcounts.putting_none.mp hput)
      (hcounts.getting_none.mp hget)
    rw [hcounts.length_received, ← getElem?_drop] at hmsg
    have hat : msg.At (Queue.run (marked t.call) fds events).carried _ :=
      Message.At.of_drop (hpipe ▸ at_flatMap_bytes hmsg)
    rw [hcounts.taken]
    exact (Placed.run (marked t.call) fds events).mark ((hat lastByte).trans (congrArg some hone))
      hmem rfl

/-- Whatever the messages are, they are delivered in a run exactly if its transfers are whole and at
the same places. -/
theorem delivery_iff (fds : Option (Int × Int)) (events : List Event) (c : Contents) :
    (∀ c, Delivers (Queue.run c fds events)) ↔ Aligned (Queue.run c fds events) := by
  constructor
  · intro h
    exact aligned_of_delivers h c
  · intro ha c'
    exact (Placed.run c' fds events).delivers ((Queue.run_sameCounts c c' fds events).aligned ha)

/-- One `write` of a whole message, which is read in two halves: the second half is stored over the
first. -/
def halves : List Event := [.put false, .write 32, .get false, .read 16, .read 16]

/-- A message of the bytes 0 to 31, and a buffer of zeros. -/
def numbered : Contents := ⟨fun _ i => UInt8.ofNat i, fun _ _ => 0⟩

theorem halves_garbled : ¬ Delivers (Queue.run numbered (some (3, 4)) halves) := by
  intro h
  have hsent : ((Queue.run numbered (some (3, 4)) halves).sent.map fun e => e.1 lastByte) =
      [31] := by
    decide
  have hreceived : ((Queue.run numbered (some (3, 4)) halves).received.map fun e => e.1 lastByte) =
      [0] := by
    decide
  have hprefix := h.returned.map fun msg => msg lastByte
  rw [map_map, map_map] at hprefix
  have hbytes : [(0 : UInt8)] <+: [31] := hreceived ▸ hsent ▸ hprefix
  exact absurd hbytes (by decide)

end OmapHal.MessageQueue
