import OmapHal.ConfigParser.UnitConversion

/-!
# Running the conversion

After each round the units found so far stand at the front, each behind its length, and the rest of
the buffer is as it was; the front never passes what `GetNAL_Config` has looked at.
-/

namespace OmapHal.ConfigParser

open OmapHal.Core Function List Nat Option

variable {m : Memory} {inBytes a k n t : Nat} {s r : Conversion} {log more : List Access}
  {u z : List UInt8} {us found : List (List UInt8)}

/-! ### The log -/

/-- Only bytes of the buffer are written, after they have been read. -/
def WritesRead (inBytes : Nat) (log : List Access) : Prop :=
  ∀ before k after, log = before ++ .write k :: after → k < inBytes ∧ .read k ∈ before

theorem WritesRead.append (h : WritesRead inBytes log)
    (hmore : ∀ k, .write k ∈ more → k < inBytes ∧ .read k ∈ log) :
    WritesRead inBytes (log ++ more) := by
  intro before k after heq
  rcases append_eq_append_iff.mp heq with ⟨rest, rfl, hrest⟩ | ⟨rest, hlog, hrest⟩
  · obtain ⟨hk, hread⟩ := hmore k (by
      rw [hrest]
      exact mem_append_right _ mem_cons_self)
    exact ⟨hk, mem_append_left _ hread⟩
  · cases rest with
    | nil =>
      obtain ⟨hk, hread⟩ := hmore k (by
        rw [nil_append] at hrest
        rw [← hrest]
        exact mem_cons_self)
      rw [append_nil] at hlog
      exact ⟨hk, hlog ▸ hread⟩
    | cons access rest =>
      obtain ⟨rfl, -⟩ := cons.inj hrest
      exact h before k rest hlog

theorem WritesRead.lt (h : WritesRead inBytes log) (hk : .write k ∈ log) : k < inBytes := by
  obtain ⟨before, after, rfl⟩ := append_of_mem hk
  exact (h before k after rfl).1

/-! ### The round -/

/-- A unit behind its length. -/
def prefixed (u : List UInt8) : List UInt8 := encode 2 u.length ++ u

theorem int16_eq (h : n < 2 ^ 15) : int16 n = n := by
  rw [int16]
  omega

theorem advance_eq (h : t + n < 2 ^ 32) : advance t n = t + n := by
  rw [advance]
  omega

/-- The conversion stands at byte `t` of the buffer, and has put the units `found` at the front. -/
structure Converting (m : Memory) (inBytes t : Nat) (found : List (List UInt8)) (s : Conversion) :
    Prop where
  position : advance s.tmp_ptr s.length = t
  t_le : t ≤ inBytes
  size : s.initbufsize = (inBytes - t : Nat)
  begin_eq : s.buffer_begin = (found.flatMap prefixed).length
  begin_le : s.buffer_begin ≤ t
  config : s.tConfigSize = s.buffer_begin
  front : s.data.read 0 s.buffer_begin = found.flatMap prefixed
  rest : ∀ k, t ≤ k → s.data k = m k
  writes : WritesRead inBytes s.log
  reads : ∀ k < t, .read k ∈ s.log

theorem converting_start (h : inBytes < 2 ^ 31) : Converting m inBytes 0 [] (.start m inBytes) where
  position := rfl
  t_le := zero_le _
  size := by
    show ((inBytes : Int) + 2 ^ 31) % 2 ^ 32 - 2 ^ 31 = _
    omega
  begin_eq := rfl
  begin_le := le_refl 0
  config := rfl
  front := rfl
  rest _ _ := rfl
  writes before k after h := by
    have hmem : Access.write k ∈ [Access.read 0, .read 1] := by
      rw [show [Access.read 0, .read 1] = before ++ .write k :: after from h]
      exact mem_append_right _ mem_cons_self
    simp at hmem
  reads k hk := absurd hk (not_lt_zero k)

/-- The bytes of a length that an `int16` holds. -/
theorem length_bytes (h : n < 2 ^ 15) :
    UInt8.ofNat ((n : Int) % 256).toNat = UInt8.ofNat n ∧
      UInt8.ofNat ((n : Int) / 256 % 256).toNat = UInt8.ofNat (n / 256) := by
  have hlow : ((n : Int) % 256).toNat = n % 2 ^ 8 := by omega
  have hhigh : ((n : Int) / 256 % 256).toNat = n / 256 := by omega
  rw [hlow, hhigh]
  exact ⟨UInt8.ofNat_mod_size .., rfl⟩

/-- A unit and its length put in front of where it stands. -/
theorem put_unit {data put : Memory} {b x : Nat} {u : List UInt8} (hb : b + 2 ≤ x)
    (hsource : data.read x u.length = u)
    (hput : oscl_memcpy (update (update data b (.ofNat u.length)) (b + 1)
      (.ofNat (u.length / 256))) (b + 2) x u.length = put) :
    (∀ k, k < b ∨ b + 2 + u.length ≤ k → put k = data k) ∧
      put.read b (2 + u.length) = prefixed u := by
  subst hput
  constructor
  · intro k hk
    rw [oscl_memcpy_outside _ (by omega), update_of_ne (by omega), update_of_ne (by omega)]
  · rw [Memory.read_append, prefixed]
    congr 1
    · show [_, _] = _
      rw [oscl_memcpy_outside _ (by omega), oscl_memcpy_outside _ (by omega), update_self,
        update_of_ne (by omega), update_self]
      rfl
    · refine (Memory.read_eq_read fun k hk => ?_).trans hsource
      rw [oscl_memcpy_inside (by omega) _ hk, update_of_ne (by omega), update_of_ne (by omega)]

/-- One round on a unit whose length an `int16` holds. -/
theorem Converting.round (h : Converting m inBytes t found s) (hn : inBytes < 2 ^ 31)
    (ha : 2 ≤ a) (hy : m.read t (inBytes - t) = List.replicate a 0 ++ 1 :: z)
    (hunits : units 0 z = u :: us) (hu : u.length < 2 ^ 15) :
    Converting m inBytes (t + (a + 1 + u.length)) (found ++ [u]) s.round := by
  obtain ⟨hpos, hle, hsize, hbegin, hbeginLe, hconfig, hfront, hrest, hwrites, hreads⟩ := h
  have hread : Memory.read (fun k => s.data (t + k)) 0 (inBytes - t) =
      replicate a 0 ++ 1 :: z := by
    rw [← hy]
    refine Memory.read_eq_read fun k _ => ?_
    rw [zero_add]
    exact hrest _ (le_add_right t k)
  obtain ⟨hbits, hresult, hleft, hseen, hseenLe⟩ := GetNAL_Config_unit ha hread hunits
  rw [← hsize] at hbits hresult hleft hseen hseenLe
  generalize hnal : GetNAL_Config (fun k => s.data (t + k)) s.initbufsize = nal at *
  obtain ⟨u', us', rest, hsplit, hz, -⟩ := units_split 0 z
  obtain ⟨rfl, rfl⟩ := cons.inj (hunits.symm.trans hsplit)
  rw [replicate_zero, nil_append] at hz
  have hin : t + (a + 1 + u.length) ≤ inBytes := by
    have hlen := congrArg length hy
    rw [Memory.length_read, hz, length_append, length_replicate, length_cons,
      length_append] at hlen
    omega
  -- the unit's bytes stand behind its start code
  have hsource : s.data.read (t + (a + 1)) u.length = u := by
    have hcode : replicate a 0 ++ 1 :: z = (replicate a 0 ++ [1]) ++ (u ++ rest) := by
      rw [hz, append_assoc, singleton_append]
    have hpart := Memory.read_part (hy.trans hcode)
    rw [length_append, length_replicate] at hpart
    exact (Memory.read_congr fun k hk _ => hrest k (by omega)).trans hpart
  have hcopied : (int16 nal.result % 2 ^ 32).toNat = u.length := by
    rw [hresult, int16_eq hu]
    omega
  have hadvance : advance s.buffer_begin ((u.length : Int) + 2) = s.buffer_begin + (u.length + 2) :=
    advance_eq (n := u.length + 2) (by omega)
  have hround : s.round =
      { data := oscl_memcpy (update (update s.data s.buffer_begin
            (.ofNat u.length)) (s.buffer_begin + 1) (.ofNat (u.length / 256)))
            (s.buffer_begin + 2) (t + (a + 1)) u.length
        tmp_ptr := t + (a + 1)
        buffer_begin := s.buffer_begin + (u.length + 2)
        length := u.length
        initbufsize := nal.size
        tConfigSize := s.tConfigSize + (u.length + 2)
        log := s.log ++ (range' t nal.seen).map .read ++
          [.write s.buffer_begin, .write (s.buffer_begin + 1)] ++
          copyLog (s.buffer_begin + 2) (t + (a + 1)) u.length } := by
    rw [Conversion.round]
    simp only [hpos, hnal, hbits, hcopied]
    simp only [hresult, int16_eq hu, hadvance, length_bytes hu]
  generalize hdata : oscl_memcpy (update (update s.data s.buffer_begin
    (.ofNat u.length)) (s.buffer_begin + 1) (.ofNat (u.length / 256)))
    (s.buffer_begin + 2) (t + (a + 1)) u.length = data at hround
  obtain ⟨houtside, hput⟩ := put_unit (by omega) hsource hdata
  have hseenRead : ∀ k < t + (a + 1 + u.length),
      Access.read k ∈ s.log ++ (range' t nal.seen).map .read := by
    intro k hk
    by_cases hlt : k < t
    · exact mem_append_left _ (hreads k hlt)
    · exact mem_append_right _ (mem_map_of_mem
        (mem_range'_1.mpr ⟨by omega, by omega⟩))
  rw [hround]
  refine ⟨?_, hin, ?_, ?_, ?_, ?_, ?_, fun k hk => ?_, ?_, fun k hk => ?_⟩
  · show advance (t + (a + 1)) u.length = _
    rw [advance_eq (by omega), add_assoc]
  · show nal.size = _
    rw [hleft]
    omega
  · show s.buffer_begin + (u.length + 2) = _
    rw [flatMap_append, length_append, ← hbegin]
    simp [prefixed, add_comm]
  · show s.buffer_begin + (u.length + 2) ≤ _
    omega
  · show s.tConfigSize + (u.length + 2) = ((s.buffer_begin + (u.length + 2) : Nat) : Int)
    rw [hconfig]
    omega
  · show data.read 0 (s.buffer_begin + (u.length + 2)) = _
    have hsplit' : s.buffer_begin + (u.length + 2) = s.buffer_begin + (2 + u.length) := by omega
    have hbefore : data.read 0 s.buffer_begin = found.flatMap prefixed := by
      rw [← hfront]
      exact Memory.read_congr fun k _ hk => houtside k (Or.inl (by omega))
    rw [hsplit', Memory.read_append, zero_add, hbefore, hput, flatMap_append]
    simp
  · show data k = m k
    rw [houtside k (by omega), hrest k (by omega)]
  · show WritesRead inBytes (_ ++ _ ++ _ ++ _)
    have hscan : WritesRead inBytes (s.log ++ (range' t nal.seen).map .read) :=
      hwrites.append fun k hk => by simp at hk
    rw [append_assoc _ [_, _]]
    refine hscan.append fun k hk => ?_
    have hbound : s.buffer_begin ≤ k ∧ k < s.buffer_begin + 2 + u.length := by
      rcases mem_append.mp hk with hk | hk
      · simp only [mem_cons, Access.write.injEq, not_mem_nil, or_false] at hk
        omega
      · have := mem_copyLog_write.mp hk
        omega
    exact ⟨by omega, hseenRead k (by omega)⟩
  · show Access.read k ∈ _ ++ _ ++ _ ++ _
    exact mem_append_left _ (mem_append_left _ (hseenRead k hk))

/-- The bytes behind a unit. -/
theorem read_rest {rest : List UInt8} (hle : t ≤ inBytes)
    (hy : m.read t (inBytes - t) = List.replicate a 0 ++ 1 :: (u ++ rest)) :
    m.read (t + (a + 1 + u.length)) (inBytes - (t + (a + 1 + u.length))) = rest ∧
      t + (a + 1 + u.length) + rest.length = inBytes := by
  have hlen := congrArg length hy
  rw [Memory.length_read, length_append, length_replicate, length_cons, length_append] at hlen
  have hparts : replicate a 0 ++ 1 :: (u ++ rest) =
      (replicate a 0 ++ 1 :: u) ++ (rest ++ []) := by simp
  have hpart := Memory.read_part (hy.trans hparts)
  have hat : t + (replicate a 0 ++ 1 :: u).length = t + (a + 1 + u.length) := by
    rw [length_append, length_replicate, length_cons]
    omega
  have hleft : inBytes - (t + (a + 1 + u.length)) = rest.length := by omega
  rw [hat] at hpart
  rw [hleft]
  exact ⟨hpart, by omega⟩

/-! ### The loop -/

/-- The loop converts all units whose lengths an `int16` holds. -/
theorem Converting.run (h : Converting m inBytes t found s) (hn : inBytes < 2 ^ 31)
    (ha : 2 ≤ a) (hy : m.read t (inBytes - t) = List.replicate a 0 ++ 1 :: z)
    (hu : ∀ u ∈ units 0 z, u.length < 2 ^ 15) :
    ∃ fuel r, s.run fuel = some r ∧ Converting m inBytes inBytes (found ++ units 0 z) r := by
  induction hus : units 0 z generalizing s t a z found with
  | nil =>
    obtain ⟨u, us, rest, hsplit, -, -⟩ := units_split 0 z
    rw [hus] at hsplit
    cases hsplit
  | cons u us ih =>
    rw [hus] at hu
    have hround := h.round hn ha hy hus (hu u mem_cons_self)
    obtain ⟨u', us', rest, hsplit, hz, hrest⟩ := units_split 0 z
    obtain ⟨rfl, rfl⟩ := cons.inj (hus.symm.trans hsplit)
    rw [replicate_zero, nil_append] at hz
    rw [hz] at hy
    obtain ⟨hleft, hlen⟩ := read_rest h.t_le hy
    rcases hrest with ⟨rfl, rfl⟩ | ⟨z', rfl, rfl⟩
    · have hend : t + (a + 1 + u.length) = inBytes := hlen
      have hsize := hround.size
      rw [hend] at hround hsize
      refine ⟨1, s.round, ?_, hround⟩
      rw [Conversion.run, if_neg (by omega)]
    · have hsize := hround.size
      rw [length_cons, length_cons, length_cons] at hlen
      obtain ⟨fuel, r, hrun, hr⟩ := ih hround (le_refl 2) hleft
        (fun v hv => hu v (mem_cons_of_mem _ hv)) rfl
      refine ⟨fuel + 1, r, ?_, ?_⟩
      · rw [Conversion.run, if_pos (by omega), hrun]
      · rwa [append_assoc, singleton_append] at hr

/-- The loop ends in one way. -/
theorem run_unique {r' : Conversion} {n n' : Nat} (h : s.run n = some r)
    (h' : s.run n' = some r') : r = r' := by
  induction n generalizing s n' with
  | zero => cases h
  | succ n ih =>
    cases n' with
    | zero => cases h'
    | succ n' =>
      rw [Conversion.run] at h h'
      by_cases hmore : s.round.initbufsize > 0
      · rw [if_pos hmore] at h h'
        exact ih h h'
      · rw [if_neg hmore] at h h'
        exact some.inj (h.symm.trans h')

theorem round_log (s : Conversion) : s.log <+: s.round.log := by
  rw [Conversion.round]
  simp only [append_assoc]
  exact prefix_append ..

/-- What the first round writes stays in the log. -/
theorem run_log (h : s.run n = some r) : s.round.log <+: r.log := by
  induction n generalizing s with
  | zero => cases h
  | succ n ih =>
    rw [Conversion.run] at h
    split at h
    · exact (round_log s.round).trans (ih h)
    · obtain rfl := some.inj h
      exact prefix_rfl

/-- A byte that a copy of such a length writes. -/
theorem write_mem_round {v : Int} (hv : (GetNAL_Config
      (fun k => s.data (advance s.tmp_ptr s.length + k)) s.initbufsize).result = v)
    (hlow : s.buffer_begin + 2 ≤ k) (hhigh : k < s.buffer_begin + 2 + (int16 v % 2 ^ 32).toNat) :
    Access.write k ∈ s.round.log := by
  rw [Conversion.round]
  simp only [hv]
  exact mem_append_right _ (mem_copyLog_write.mpr ⟨hlow, hhigh⟩)

/-- Where the loop has only written to the buffer, all lengths are those of an `int16`. -/
theorem Converting.short (h : Converting m inBytes t found s) (hn : inBytes < 2 ^ 16)
    (ha : 2 ≤ a) (hy : m.read t (inBytes - t) = List.replicate a 0 ++ 1 :: z)
    (hrun : s.run n = some r) (hwrites : WritesRead inBytes r.log) :
    ∀ u ∈ units 0 z, u.length < 2 ^ 15 := by
  induction hus : units 0 z generalizing s t a z found n with
  | nil => exact fun u hu => absurd hu not_mem_nil
  | cons u us ih =>
    obtain ⟨u', us', rest, hsplit, hz, hrest⟩ := units_split 0 z
    obtain ⟨rfl, rfl⟩ := cons.inj (hus.symm.trans hsplit)
    rw [replicate_zero, nil_append] at hz
    have hy' := hz ▸ hy
    obtain ⟨hleft, hlen⟩ := read_rest h.t_le hy'
    have hu : u.length < 2 ^ 15 := by
      by_contra hlong
      have hread : Memory.read (fun k => s.data (advance s.tmp_ptr s.length + k)) 0
          (inBytes - t) = replicate a 0 ++ 1 :: z := by
        rw [← hy, h.position]
        refine Memory.read_eq_read fun k _ => ?_
        rw [zero_add]
        exact h.rest _ (le_add_right t k)
      obtain ⟨-, hresult, -, -, -⟩ := GetNAL_Config_unit ha hread hus
      rw [← h.size] at hresult
      have hbegin := h.begin_le
      have hmem : Access.write inBytes ∈ s.round.log := by
        apply write_mem_round hresult (by omega)
        rw [int16]
        omega
      exact absurd (hwrites.lt ((run_log hrun).subset hmem)) (lt_irrefl _)
    have hround := h.round (by omega) ha hy hus hu
    intro v hv
    rcases mem_cons.mp hv with rfl | hv
    · exact hu
    · rcases hrest with ⟨rfl, rfl⟩ | ⟨z', rfl, rfl⟩
      · exact absurd hv not_mem_nil
      · have hsize := hround.size
        rw [length_cons, length_cons, length_cons] at hlen
        cases n with
        | zero => cases hrun
        | succ n =>
          rw [Conversion.run, if_pos (by omega)] at hrun
          exact ih hround (le_refl 2) hleft hrun rfl v hv

/-! ### Streams -/

section Streams

variable {p : Bool × Nal} {nals : List (Bool × Nal)}

/-- The units of a stream behind their lengths. -/
def converted (nals : List (Bool × Nal)) : List UInt8 := nals.flatMap fun p => prefixed p.2.bytes

theorem chunks_plain (h : ∀ q ∈ nals.tail, q.1 = false) :
    (chunks nals).flatMap prefixed = converted nals := by
  induction nals with
  | nil => rfl
  | cons p nals ih =>
    have hpad : (nals.head?.elim 0 fun next => next.1.toNat) = 0 := by
      cases nals with
      | nil => rfl
      | cons q nals => exact congrArg Bool.toNat (h q mem_cons_self)
    rw [chunks, hpad, replicate_zero, append_nil, flatMap_cons,
      ih fun q hq => h q (mem_of_mem_tail hq)]
    rfl

/-- Every start code of four bytes but the first makes the unit before it longer. -/
theorem length_chunks (p : Bool × Nal) (nals : List (Bool × Nal)) :
    ((chunks (p :: nals)).flatMap prefixed).length =
      (converted (p :: nals)).length + (nals.map fun q => q.1.toNat).sum := by
  induction nals generalizing p with
  | nil => simp [chunks, converted]
  | cons q nals ih =>
    have hrest := ih q
    rw [chunks, flatMap_cons, length_append, hrest]
    simp only [converted, flatMap_cons, length_append, map_cons, sum_cons,
      head?_cons, elim_some, prefixed, length_encode, length_replicate]
    omega

/-- The conversion ends; a stream becomes the units behind their lengths; and nothing is written
behind the buffer or where it has not been read. -/
structure ConvertsRight (m : Memory) (inBytes : Nat) : Prop where
  terminates : ∃ fuel r, convertUnits m inBytes fuel = some r
  rewrites : ∀ fuel r nals, convertUnits m inBytes fuel = some r →
    m.read 0 inBytes = stream nals →
      r.tConfigSize = (converted nals).length ∧
        r.data.read 0 (converted nals).length = converted nals
  writes : ∀ fuel r, convertUnits m inBytes fuel = some r → WritesRead inBytes r.log

/-- The buffer begins with a start code; no unit, up to the next start code or the end, is longer
than an `int16` can say; and no start code of a stream but the first has four bytes. -/
structure Convertible (m : Memory) (inBytes : Nat) : Prop where
  size : inBytes < 2 ^ 31
  begins : ∃ i ≤ inBytes, BeginsUnit m i
  short : ∀ u ∈ (units 0 (m.read 0 inBytes)).tail, u.length < 2 ^ 15
  plain : ∀ nals, m.read 0 inBytes = stream nals → ∀ q ∈ nals.tail, q.1 = false

theorem BeginsUnit.read {i : Nat} (h : BeginsUnit m i) (hi : i ≤ inBytes) :
    ∃ a z, 2 ≤ a ∧ m.read 0 inBytes = List.replicate a 0 ++ 1 :: z := by
  obtain ⟨hge, hzeros, hone⟩ := h
  obtain ⟨a, rfl⟩ : ∃ a, i = a + 1 := ⟨i - 1, by omega⟩
  have hn : inBytes = a + ((inBytes - a - 1) + 1) := by omega
  have hfirst : m.read 0 a = replicate a 0 := by
    refine eq_replicate_iff.mpr ⟨Memory.length_read .., fun b hb => ?_⟩
    obtain ⟨k, hk⟩ := mem_iff_getElem?.mp hb
    have hlt : k < a := by
      have := (List.getElem?_eq_some_iff.mp hk).1
      rwa [Memory.length_read] at this
    rw [Memory.getElem?_read m 0 hlt, zero_add, hzeros k hlt] at hk
    exact (some.inj hk).symm
  refine ⟨a, m.read (a + 1) (inBytes - a - 1), by omega, ?_⟩
  have hat : m (0 + a) = 1 := by
    rw [zero_add]
    exact hone
  rw [hn, Memory.read_append, hfirst, Memory.read, hat, zero_add]
  congr 3
  omega

/-- Where the conversion does nothing. -/
theorem convertsRight_of_idle (h : ¬(1 < inBytes ∧ m 0 = 0 ∧ m 1 = 0)) :
    ConvertsRight m inBytes := by
  have hidle : ∀ fuel, ∃ log, convertUnits m inBytes fuel =
      some { Conversion.start m inBytes with log := log } ∧ ∀ k, .write k ∉ log := by
    intro fuel
    rw [convertUnits]
    by_cases hlen : inBytes > 1
    · rw [if_pos hlen, if_neg fun h01 => h ⟨hlen, h01⟩]
      exact ⟨[.read 0, .read 1], rfl, fun k => by simp⟩
    · rw [if_neg hlen]
      exact ⟨[], rfl, fun k => not_mem_nil⟩
  refine ⟨?_, fun fuel r nals hr hstream => ?_, fun fuel r hr => ?_⟩
  · obtain ⟨log, hlog, -⟩ := hidle 0
    exact ⟨0, _, hlog⟩
  · obtain ⟨log, hlog, -⟩ := hidle fuel
    obtain rfl := some.inj (hlog.symm.trans hr)
    cases nals with
    | nil => exact ⟨rfl, rfl⟩
    | cons p nals =>
      have hbegin : ∃ w, stream (p :: nals) = 0 :: 0 :: w := by
        refine ⟨.replicate p.1.toNat 0 ++ 1 :: (p.2.bytes ++ stream nals), ?_⟩
        rw [stream, add_comm, replicate_succ, replicate_succ]
        rfl
      obtain ⟨w, hw⟩ := hbegin
      rw [hw] at hstream
      have hlen := congrArg length hstream
      rw [Memory.length_read, length_cons, length_cons] at hlen
      obtain ⟨n, rfl⟩ : ∃ n, inBytes = n + 1 + 1 := ⟨w.length, by omega⟩
      obtain ⟨h0, h1⟩ := cons.inj hstream
      exact absurd ⟨by omega, h0, (cons.inj h1).1⟩ h
  · obtain ⟨log, hlog, hno⟩ := hidle fuel
    obtain rfl := some.inj (hlog.symm.trans hr)
    intro before k after heq
    have hmem : Access.write k ∈ log := by
      rw [show log = _ from heq]
      exact mem_append_right _ mem_cons_self
    exact absurd hmem (hno k)

theorem convertUnits_loop (hlen : 1 < inBytes) (h0 : m 0 = 0) (h1 : m 1 = 0) (fuel : Nat) :
    convertUnits m inBytes fuel = (Conversion.start m inBytes).run fuel := by
  rw [convertUnits, if_pos hlen, if_pos ⟨h0, h1⟩]

/-- A convertible buffer is converted. -/
theorem convertsRight_of_convertible (hlen : 1 < inBytes) (h0 : m 0 = 0) (h1 : m 1 = 0)
    (h : Convertible m inBytes) : ConvertsRight m inBytes := by
  obtain ⟨hsize, ⟨i, hi, hbegin⟩, hshort, hplain⟩ := h
  obtain ⟨a, z, ha, hread⟩ := hbegin.read hi
  have hunits := units_startCode 0 a (by omega) z
  rw [← hread] at hunits
  rw [hunits] at hshort
  obtain ⟨fuel, r, hrun, hr⟩ := (converting_start hsize).run hsize ha hread hshort
  have hloop := convertUnits_loop hlen h0 h1
  refine ⟨⟨fuel, r, (hloop fuel).trans hrun⟩, fun fuel' r' nals hr' hstream => ?_,
    fun fuel' r' hr' => ?_⟩
  · obtain rfl := run_unique hrun ((hloop fuel').symm.trans hr')
    cases nals with
    | nil =>
      rw [hread] at hstream
      simp [stream] at hstream
    | cons p nals =>
      obtain ⟨long, nal⟩ := p
      have hchunks := units_stream long nal nals
      rw [← hstream, hunits] at hchunks
      have hfound := hr.front
      have hcount := hr.begin_eq
      rw [nil_append, (cons.inj hchunks).2, chunks_plain (hplain _ hstream)]
        at hfound hcount
      rw [hcount] at hfound
      exact ⟨by rw [hr.config, hcount], hfound⟩
  · obtain rfl := run_unique hrun ((hloop fuel').symm.trans hr')
    exact hr.writes

/-- Where the buffer does not begin with a start code, the copy ends behind it. -/
theorem begins_of_writes (hlen : 1 < inBytes) (hsize : inBytes < 2 ^ 16) (h0 : m 0 = 0)
    (h1 : m 1 = 0) (hrun : (Conversion.start m inBytes).run n = some r)
    (hwrites : WritesRead inBytes r.log) : ∃ i ≤ inBytes, BeginsUnit m i := by
  by_contra hno
  have hinit : (Conversion.start m inBytes).initbufsize = inBytes := by
    show ((inBytes : Int) + 2 ^ 31) % 2 ^ 32 - 2 ^ 31 = _
    omega
  have hresult : (GetNAL_Config (fun k => (Conversion.start m inBytes).data
      (advance (Conversion.start m inBytes).tmp_ptr (Conversion.start m inBytes).length + k))
      (Conversion.start m inBytes).initbufsize).result = inBytes := by
    have hdata : (fun k => (Conversion.start m inBytes).data
        (advance (Conversion.start m inBytes).tmp_ptr (Conversion.start m inBytes).length + k)) =
        m := by
      funext k
      show m (0 + k) = m k
      rw [zero_add]
    rw [hdata, hinit, GetNAL_Config]
    simp only
    rw [if_neg]
    intro hone
    have hle := @skipZeros_le m inBytes ((inBytes : Int).toNat + 1) 0 (by omega)
    exact hno ⟨_, by omega, beginsUnit_skipZeros h0 h1 hone⟩
  have hmem : Access.write inBytes ∈ (Conversion.start m inBytes).round.log := by
    have hfirst : (Conversion.start m inBytes).buffer_begin = 0 := rfl
    apply write_mem_round hresult
    · omega
    · rw [hfirst, int16]
      omega
  exact absurd (hwrites.lt ((run_log hrun).subset hmem)) (lt_irrefl _)

/-- A buffer of less than 64 KiB that is converted is convertible. -/
theorem convertible_of_convertsRight (hsize : inBytes < 2 ^ 16) (hlen : 1 < inBytes)
    (h0 : m 0 = 0) (h1 : m 1 = 0) (h : ConvertsRight m inBytes) : Convertible m inBytes := by
  obtain ⟨⟨fuel, r, hr⟩, hrewrites, hwrites⟩ := h
  have hrun := (convertUnits_loop hlen h0 h1 fuel).symm.trans hr
  obtain ⟨i, hi, hbegin⟩ := begins_of_writes hlen hsize h0 h1 hrun (hwrites fuel r hr)
  obtain ⟨a, z, ha, hread⟩ := hbegin.read hi
  have hstart : Converting m inBytes 0 [] (.start m inBytes) := converting_start (by omega)
  have hshort := hstart.short hsize ha hread hrun (hwrites fuel r hr)
  have hunits := units_startCode 0 a (by omega) z
  rw [← hread] at hunits
  refine ⟨by omega, ⟨i, hi, hbegin⟩, by rw [hunits]; exact hshort, fun nals hstream => ?_⟩
  obtain ⟨fuel', r', hrun', hconv⟩ := hstart.run (by omega) ha hread hshort
  obtain rfl := run_unique hrun hrun'
  obtain ⟨hconfig, -⟩ := hrewrites fuel r nals hr hstream
  cases nals with
  | nil => exact fun q hq => absurd hq not_mem_nil
  | cons p nals =>
    obtain ⟨long, nal⟩ := p
    have hchunks := units_stream long nal nals
    rw [← hstream, hunits] at hchunks
    have hcount := hconv.begin_eq
    rw [nil_append, (cons.inj hchunks).2, length_chunks] at hcount
    have hsum : (nals.map fun q => q.1.toNat).sum = 0 := by
      have := hconv.config
      omega
    intro q hq
    have hzero := List.sum_eq_zero_iff_forall_eq_nat.mp hsum _ (List.mem_map_of_mem hq)
    exact Bool.toNat_eq_zero.mp hzero

/-- For every buffer: the conversion is right if the buffer is convertible where the conversion does
anything; and up to 64 KiB it is right only then. -/
theorem convertsRight_iff (m : Memory) (inBytes : Nat) :
    ((1 < inBytes → m 0 = 0 → m 1 = 0 → Convertible m inBytes) → ConvertsRight m inBytes) ∧
      (inBytes < 2 ^ 16 → ConvertsRight m inBytes →
        1 < inBytes → m 0 = 0 → m 1 = 0 → Convertible m inBytes) := by
  constructor
  · intro h
    by_cases hbegin : 1 < inBytes ∧ m 0 = 0 ∧ m 1 = 0
    · obtain ⟨hlen, h0, h1⟩ := hbegin
      exact convertsRight_of_convertible hlen h0 h1 (h hlen h0 h1)
    · exact convertsRight_of_idle hbegin
  · exact fun hsize h hlen h0 h1 => convertible_of_convertsRight hsize hlen h0 h1 h

end Streams

/-- Two zeros that no start code follows: two bytes are written behind the buffer. -/
theorem zeros_overrun : ¬∀ (m : Memory) (inBytes : Nat), ConvertsRight m inBytes := by
  intro h
  have hwrites := (h (fun _ => 0) 2).writes 1 _ rfl
  exact absurd (hwrites.lt (k := 3) (by decide)) (by decide)

end OmapHal.ConfigParser
