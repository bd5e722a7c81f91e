import OmapHal.Core.Memory
import OmapHal.Core.NalSyntax

/-!
# Emulation prevention

`Parser_EBSPtoRBSP` removes in place the bytes 03 that an encoder puts behind two zero bytes. A
first loop looks for the first of them, a second one moves what follows and removes the others; the
second loop does not look whether there is a byte behind the one that it removes.
-/

namespace OmapHal.ConfigParser

open OmapHal.Core List Nat Function

variable {nal_unit m : Memory} {x : List UInt8} {size count : Nat}

/-- The variables of `Parser_EBSPtoRBSP`, and which bytes it has read or written. -/
structure Pass where
  nal_unit : Memory
  i : Nat
  j : Nat
  count : Nat
  accessed : List Nat

namespace Pass

/-- `count == 2 && nal_unit[i] == 0x03`. -/
def atEscape (s : Pass) : Bool := s.count == 2 && s.nal_unit s.i == 3

/-- The first loop, up to the first escape. -/
def findEscape (size : Nat) : Nat → Pass → Pass
  | 0, s => s
  | n + 1, s =>
    if s.i < size then
      if s.atEscape then { s with accessed := s.accessed ++ [s.i] }
      else findEscape size n { s with
        i := s.i + 1
        count := zeros s.count (s.nal_unit s.i)
        accessed := s.accessed ++ [s.i] }
    else s

/-- `i++; count = 0;` -/
def skipEscape (s : Pass) : Pass :=
  { s with i := s.i + 1, count := 0, accessed := s.accessed ++ [s.i] }

/-- `nal_unit[j] = nal_unit[i]` and what follows it in the second loop. -/
def copy (s : Pass) : Pass :=
  let nal_unit := Function.update s.nal_unit s.j (s.nal_unit s.i)
  { s with
    nal_unit := nal_unit
    i := s.i + 1
    j := s.j + 1
    count := zeros s.count (nal_unit s.i)
    accessed := s.accessed ++ [s.i, s.j] }

/-- The second loop. -/
def removeEscapes (size : Nat) : Nat → Pass → Pass
  | 0, s => s
  | n + 1, s =>
    if s.i < size then removeEscapes size n (if s.atEscape then s.skipEscape.copy else s.copy)
    else s

end Pass

open Pass

/-- `Parser_EBSPtoRBSP`; the new size is the `j` at the end. -/
def Parser_EBSPtoRBSP (nal_unit : Memory) (size : Nat) : Pass :=
  let s := findEscape size size ⟨nal_unit, 0, 0, 0, []⟩
  -- `count = 0; j = i++;`
  removeEscapes size size { s with i := s.i + 1, j := s.i, count := 0 }

/-! ### Escapes at the end -/

/-- The last byte is an escape. -/
def endsInEscape : Nat → List UInt8 → Bool
  | _, [] => false
  | count, b :: x =>
    if count = 2 ∧ b = 3 then x.isEmpty || endsInEscape 0 x else endsInEscape (zeros count b) x

/-- The last byte is an escape, and it is not the only one. -/
def TrailingEscape (x : List UInt8) : Prop :=
  endsInEscape 0 x = true ∧ (strip 0 x).length + 1 < x.length

instance : Decidable (TrailingEscape x) := inferInstanceAs (Decidable (_ ∧ _))

/-- An escape at the end is removed. -/
theorem length_strip_lt (h : endsInEscape count x = true) : (strip count x).length < x.length := by
  induction x generalizing count with
  | nil => cases h
  | cons b x ih =>
    rw [strip]
    split
    · exact lt_succ_of_le (length_strip_le x 0)
    · next hne =>
      rw [endsInEscape, if_neg hne] at h
      exact succ_lt_succ (ih h)

/-! ### The first loop -/

section Loops

variable {s r : Pass} {out : List UInt8} {overrun : Bool} {n : Nat}

/-- The bytes from the index on. -/
def Pass.left (size : Nat) (s : Pass) : List UInt8 := s.nal_unit.read s.i (size - s.i)

theorem Pass.left_cons (h : s.i < size) :
    s.left size = s.nal_unit s.i :: s.nal_unit.read (s.i + 1) (size - (s.i + 1)) := by
  have hsucc : size - s.i = size - (s.i + 1) + 1 := by omega
  rw [left, hsucc]
  rfl

theorem Pass.left_nil (h : size ≤ s.i) : s.left size = [] := by
  rw [left, Nat.sub_eq_zero_of_le h]
  rfl

theorem atEscape_iff : s.atEscape = true ↔ s.count = 2 ∧ s.nal_unit s.i = 3 := by
  rw [atEscape, Bool.and_eq_true, beq_iff_eq, beq_iff_eq]

/-- The first loop stops at the end or at an escape; what is before it stays. -/
theorem findEscape_spec (hn : size - s.i ≤ n) (hi : s.i ≤ size)
    (hr : findEscape size n s = r) :
    r.nal_unit = s.nal_unit ∧
      ((∀ k ∈ s.accessed, k < size) → ∀ k ∈ r.accessed, k < size) ∧
      (r.i = size ∧ strip s.count (s.left size) = s.left size ∧
          endsInEscape s.count (s.left size) = false ∨
        ∃ before after, s.left size = before ++ 3 :: after ∧ r.i = s.i + before.length ∧
          strip s.count (s.left size) = before ++ strip 0 after ∧
          endsInEscape s.count (s.left size) = (after.isEmpty || endsInEscape 0 after)) := by
  induction n generalizing s with
  | zero =>
    subst hr
    rw [left_nil (by omega)]
    exact ⟨rfl, id, .inl ⟨show s.i = size by omega, rfl, rfl⟩⟩
  | succ n ih =>
    rw [findEscape] at hr
    by_cases hlt : s.i < size
    · rw [if_pos hlt] at hr
      have hread : (∀ k ∈ s.accessed, k < size) → ∀ k ∈ s.accessed ++ [s.i], k < size := by
        intro hs k hk
        rcases mem_append.mp hk with hk | hk
        · exact hs k hk
        · rw [mem_singleton.mp hk]
          exact hlt
      rw [left_cons hlt]
      by_cases hesc : s.atEscape = true
      · obtain ⟨hcount, hbyte⟩ := atEscape_iff.mp hesc
        rw [if_pos hesc] at hr
        subst hr
        refine ⟨rfl, hread, .inr ⟨[], _, by rw [hbyte]; rfl, rfl, ?_, ?_⟩⟩
        · rw [strip, if_pos ⟨hcount, hbyte⟩]
          rfl
        · rw [endsInEscape, if_pos ⟨hcount, hbyte⟩]
      · rw [if_neg hesc] at hr
        rw [atEscape_iff] at hesc
        obtain ⟨hsame, hacc, hcases⟩ := @ih { s with
          i := s.i + 1
          count := zeros s.count (s.nal_unit s.i)
          accessed := s.accessed ++ [s.i] } (show size - (s.i + 1) ≤ n by omega) hlt hr
        refine ⟨hsame, fun hs => hacc (hread hs), ?_⟩
        rw [strip, if_neg hesc, endsInEscape, if_neg hesc]
        rcases hcases with ⟨hend, hstrip, hno⟩ | ⟨before, after, hleft, hat, hstrip, hends⟩
        · exact .inl ⟨hend, congrArg _ hstrip, hno⟩
        · refine .inr ⟨s.nal_unit s.i :: before, after, congrArg _ hleft, ?_,
            congrArg _ hstrip, hends⟩
          rw [hat, length_cons, add_right_comm, add_assoc]
    · rw [if_neg hlt] at hr
      subst hr
      rw [left_nil (by omega)]
      exact ⟨rfl, id, .inl ⟨by omega, rfl, rfl⟩⟩

/-! ### The second loop -/

/-- What the second loop has done when it goes from `s` to `r`: it has put the bytes `out` from
`s.j` on, and one byte more if it has read behind the last byte. -/
structure Removed (size : Nat) (s r : Pass) (out : List UInt8) (overrun : Bool) : Prop where
  j : r.j = s.j + out.length + overrun.toNat
  frame : ∀ k < s.j, r.nal_unit k = s.nal_unit k
  bytes : overrun = false → r.nal_unit.read s.j out.length = out
  accessed : (∀ k ∈ s.accessed, k < size) → ((∀ k ∈ r.accessed, k < size) ↔ overrun = false)

theorem removed_refl (size : Nat) (s : Pass) : Removed size s s [] false :=
  ⟨rfl, fun _ _ => rfl, fun _ => rfl, fun h => iff_of_true h rfl⟩

theorem Removed.of_copy (h : Removed size s.copy r out overrun) (hj : s.j < size)
    (hi : s.i < size) :
    Removed size s r (s.nal_unit s.i :: out) overrun := by
  obtain ⟨hrj, hframe, hbytes, hacc⟩ := h
  have hcopied : ∀ k, s.copy.nal_unit k = if k = s.j then s.nal_unit s.i else s.nal_unit k :=
    fun k => update_apply ..
  refine ⟨?_, fun k hk => ?_, fun hover => ?_, fun hs => hacc fun k hk => ?_⟩
  · rw [hrj, length_cons]
    show s.j + 1 + out.length + _ = s.j + (out.length + 1) + _
    omega
  · rw [hframe k (show k < s.j + 1 by omega), hcopied, if_neg (by omega)]
  · show r.nal_unit s.j :: r.nal_unit.read (s.j + 1) out.length = _
    have hrest : r.nal_unit.read (s.j + 1) out.length = out := hbytes hover
    rw [hrest, hframe s.j (lt_succ_self s.j), hcopied, if_pos rfl]
  · rcases mem_append.mp hk with hk | hk
    · exact hs k hk
    · rcases mem_pair.mp hk with rfl | rfl
      · exact hi
      · exact hj

theorem Removed.of_skipEscape (h : Removed size s.skipEscape r out overrun) (hi : s.i < size) :
    Removed size s r out overrun := by
  obtain ⟨hrj, hframe, hbytes, hacc⟩ := h
  refine ⟨hrj, hframe, hbytes, fun hs => hacc fun k hk => ?_⟩
  rcases mem_append.mp hk with hk | hk
  · exact hs k hk
  · rw [mem_singleton.mp hk]
    exact hi

/-- The byte behind the last one is read. -/
theorem removed_over (hi : s.i = size) : Removed size s s.copy [] true := by
  refine ⟨rfl, fun k hk => update_of_ne (Nat.ne_of_lt hk) .., (fun h => by cases h),
    fun _ => iff_of_false (fun h => ?_) (by simp)⟩
  have hlt := h s.i (mem_append_right _ mem_cons_self)
  omega

theorem removeEscapes_done (h : size ≤ s.i) (n : Nat) : removeEscapes size n s = s := by
  cases n with
  | zero => rfl
  | succ n => rw [removeEscapes, if_neg (not_lt.mpr h)]

theorem copy_left (h : s.j < s.i) :
    s.copy.left size = s.nal_unit.read (s.i + 1) (size - (s.i + 1)) := by
  refine Memory.read_congr fun k hk _ => update_of_ne (fun heq => ?_) ..
  have hk' : s.i + 1 ≤ k := hk
  omega

theorem copy_count (h : s.j < s.i) : s.copy.count = zeros s.count (s.nal_unit s.i) := by
  show zeros s.count (update s.nal_unit s.j (s.nal_unit s.i) s.i) = _
  rw [update_of_ne (ne_of_gt h)]

/-- The second loop removes the escapes of what is left. -/
theorem removeEscapes_spec (hn : size - s.i ≤ n) (hj : s.j < s.i) :
    Removed size s (removeEscapes size n s) (strip s.count (s.left size))
      (endsInEscape s.count (s.left size)) := by
  induction n generalizing s with
  | zero =>
    rw [left_nil (by omega)]
    exact removed_refl size s
  | succ n ih =>
    by_cases hlt : s.i < size
    · -- one byte is copied, and the loop goes on behind it
      have hcopy : ∀ t : Pass, t.j < t.i → t.i < size → size - (t.i + 1) ≤ n →
          Removed size t (removeEscapes size n t.copy)
            (t.nal_unit t.i :: strip (zeros t.count (t.nal_unit t.i))
              (t.nal_unit.read (t.i + 1) (size - (t.i + 1))))
            (endsInEscape (zeros t.count (t.nal_unit t.i))
              (t.nal_unit.read (t.i + 1) (size - (t.i + 1)))) := by
        intro t htj hti htn
        have h := @ih t.copy htn (succ_lt_succ htj)
        rw [copy_left htj, copy_count htj] at h
        exact h.of_copy (lt_trans htj hti) hti
      rw [removeEscapes, if_pos hlt, left_cons hlt, strip, endsInEscape]
      by_cases hesc : s.atEscape = true
      · have hskip : s.skipEscape.j < s.skipEscape.i := lt_succ_of_lt hj
        rw [if_pos hesc, if_pos (atEscape_iff.mp hesc), if_pos (atEscape_iff.mp hesc)]
        apply Removed.of_skipEscape _ hlt
        by_cases hend : s.i + 1 < size
        · have h := hcopy s.skipEscape hskip hend (show size - (s.i + 1 + 1) ≤ n by omega)
          have hleft := @left_cons size s.skipEscape hend
          change s.nal_unit.read (s.i + 1) (size - (s.i + 1)) = _ at hleft
          rw [hleft, strip, if_neg fun h0 => absurd h0.1 (by omega), endsInEscape,
            if_neg fun h0 => absurd h0.1 (by omega)]
          exact h
        · have hlast : s.i + 1 = size := by omega
          have hnil : size - (s.i + 1) = 0 := by omega
          rw [hnil, removeEscapes_done (show size ≤ s.i + 1 + 1 by omega)]
          exact removed_over hlast
      · rw [if_neg hesc, if_neg fun h => hesc (atEscape_iff.mpr h),
          if_neg fun h => hesc (atEscape_iff.mpr h)]
        exact hcopy s hj hlt (by omega)
    · rw [removeEscapes_done (not_lt.mp hlt), left_nil (not_lt.mp hlt)]
      exact removed_refl size s

end Loops

/-! ### Both loops -/

/-- What the function leaves, when it reads behind the buffer (`overrun`) and when it does not. -/
structure Parsed (nal_unit : Memory) (size : Nat) (r : Pass) (overrun : Bool) : Prop where
  over_iff : overrun = true ↔ TrailingEscape (nal_unit.read 0 size)
  newSize : r.j = (strip 0 (nal_unit.read 0 size)).length + overrun.toNat
  bytes : overrun = false → r.nal_unit.read 0 (strip 0 (nal_unit.read 0 size)).length =
    strip 0 (nal_unit.read 0 size)
  accessed : (∀ k ∈ r.accessed, k < size) ↔ overrun = false

theorem parser_spec (nal_unit : Memory) (size : Nat) :
    ∃ overrun, Parsed nal_unit size (Parser_EBSPtoRBSP nal_unit size) overrun := by
  obtain ⟨s, hs⟩ : ∃ s, findEscape size size ⟨nal_unit, 0, 0, 0, []⟩ = s := ⟨_, rfl⟩
  obtain ⟨hsame, hacc, hcases⟩ := findEscape_spec (sub_le size 0) (zero_le _) hs
  have hacc' := hacc fun k hk => absurd hk not_mem_nil
  have hparser : Parser_EBSPtoRBSP nal_unit size =
      removeEscapes size size { s with i := s.i + 1, j := s.i, count := 0 } := by
    rw [Parser_EBSPtoRBSP, hs]
  have hlen := Memory.length_read nal_unit 0 size
  change s.i = size ∧ strip 0 (nal_unit.read 0 size) = nal_unit.read 0 size ∧
    endsInEscape 0 (nal_unit.read 0 size) = false ∨ ∃ before after,
      nal_unit.read 0 size = before ++ 3 :: after ∧ s.i = 0 + before.length ∧
        strip 0 (nal_unit.read 0 size) = before ++ strip 0 after ∧
        endsInEscape 0 (nal_unit.read 0 size) = (after.isEmpty || endsInEscape 0 after) at hcases
  rcases hcases with ⟨hend, hstrip, hno⟩ | ⟨before, after, hx, hat, hstrip, hends⟩
  · rw [removeEscapes_done (show size ≤ s.i + 1 by omega)] at hparser
    refine ⟨false, ?_, ?_, fun _ => ?_, ?_⟩
    · refine iff_of_false Bool.false_ne_true fun h => ?_
      have hlast := h.1
      rw [hno] at hlast
      cases hlast
    · rw [hparser, hstrip, hlen]
      exact hend
    · rw [hparser, hstrip, hlen]
      exact congrArg (fun m : Memory => m.read 0 size) hsame
    · rw [hparser]
      exact iff_of_true hacc' rfl
  · have hsize : size = before.length + (after.length + 1) := by
      rw [← hlen, hx, length_append, length_cons]
    obtain ⟨hbefore, hafter⟩ : nal_unit.read 0 before.length = before ∧
        nal_unit.read (before.length + 1) after.length = after := by
      rw [hsize, Memory.read_append, zero_add] at hx
      obtain ⟨hbefore, hrest⟩ := append_inj hx (Memory.length_read ..)
      exact ⟨hbefore, (cons.inj hrest).2⟩
    rw [zero_add] at hat
    have hleft : ({ s with i := s.i + 1, j := s.i, count := 0 } : Pass).left size = after := by
      show s.nal_unit.read (s.i + 1) (size - (s.i + 1)) = after
      have hrest : size - (before.length + 1) = after.length := by omega
      rw [hsame, hat, hrest, hafter]
    obtain ⟨hrj, hframe, hbytes, hread⟩ := removeEscapes_spec
      (s := { s with i := s.i + 1, j := s.i, count := 0 })
      (show size - (s.i + 1) ≤ size from sub_le _ _) (lt_succ_self s.i)
    rw [hleft] at hrj hbytes hread
    rw [← hparser] at hrj hframe hbytes hread
    change (Parser_EBSPtoRBSP nal_unit size).j =
      s.i + (strip 0 after).length + (endsInEscape 0 after).toNat at hrj
    refine ⟨endsInEscape 0 after, ?_, ?_, fun hno => ?_, hread hacc'⟩
    · rw [TrailingEscape, hends, hstrip, hx, length_append, length_append,
        length_cons]
      constructor
      · intro hover
        have := length_strip_lt hover
        exact ⟨by rw [hover, Bool.or_true], by omega⟩
      · rintro ⟨hlast, hlt⟩
        rcases Bool.or_eq_true_iff.mp hlast with hempty | hover
        · rw [isEmpty_iff.mp hempty] at hlt
          simp [strip] at hlt
        · exact hover
    · rw [hrj, hstrip, length_append, hat]
    · have hbefore' : (Parser_EBSPtoRBSP nal_unit size).nal_unit.read 0 before.length = before := by
        refine (Memory.read_congr fun k _ hk => ?_).trans hbefore
        rw [hframe k (show k < s.i by omega)]
        exact congrFun hsame k
      have hrest : (Parser_EBSPtoRBSP nal_unit size).nal_unit.read s.i (strip 0 after).length =
          strip 0 after := hbytes hno
      rw [hstrip, length_append, Memory.read_append, hbefore', zero_add, ← hat, hrest]

/-- For the byte string of a buffer: if it is an escaped string, the function leaves that string
and its size; it only reads and writes the buffer; and the size does not grow. -/
structure ParsesRight (nal_unit : Memory) (size : Nat) : Prop where
  inverts : ∀ s, nal_unit.read 0 size = escape 0 s →
    (Parser_EBSPtoRBSP nal_unit size).j = s.length ∧
      (Parser_EBSPtoRBSP nal_unit size).nal_unit.read 0 s.length = s
  accessed : ∀ k ∈ (Parser_EBSPtoRBSP nal_unit size).accessed, k < size
  size_le : (Parser_EBSPtoRBSP nal_unit size).j ≤ size

/-- For every buffer: the function is right exactly if the last byte is not an escape behind
another one. -/
theorem parsesRight_iff (nal_unit : Memory) (size : Nat) :
    ParsesRight nal_unit size ↔ ¬TrailingEscape (nal_unit.read 0 size) := by
  obtain ⟨overrun, hover, hsize, hbytes, hread⟩ := parser_spec nal_unit size
  constructor
  · intro h htrailing
    have hno := hread.mp h.accessed
    rw [hover.mpr htrailing] at hno
    cases hno
  · intro h
    obtain rfl : overrun = false := by
      cases overrun with
      | false => rfl
      | true => exact absurd (hover.mp rfl) h
    rw [Bool.toNat_false, add_zero] at hsize
    refine ⟨fun s hs => ?_, hread.mpr rfl, ?_⟩
    · have hstrip := strip_escape s (zero_le 2)
      rw [hs, hstrip] at hsize hbytes
      exact ⟨hsize, hbytes rfl⟩
    · have hle := length_strip_le (nal_unit.read 0 size) 0
      rw [Memory.length_read] at hle
      rw [hsize]
      exact hle

/-- Four zeros, escaped: the byte behind the buffer becomes part of the result. -/
theorem trailing_escape_overread :
    ¬∀ (nal_unit : Memory) (size : Nat), ParsesRight nal_unit size := by
  intro h
  have hright := h (fun k => [0, 0, 3, 0, 0, 3].getD k 7) 6
  have hsize := (hright.inverts [0, 0, 0, 0] (by decide)).1
  exact absurd hsize (by decide)

end OmapHal.ConfigParser
