import Mathlib.Data.List.Basic
import Mathlib.Tactic.Cases

/-!
# Encoded text

UTF-8 as numbers: the bytes of a scalar value, the sequences of such bytes, and that each sequence
has one reading. They are the bytes of the characters that strings are made of.
-/

namespace OmapHal.Core.Utf8

open List

variable {v w : Nat} {l r s : List Nat}

/-- The bytes of a scalar value. -/
def encode (v : Nat) : List Nat :=
  if v < 0x80 then [v]
  else if v < 0x800 then [v / 64 + 0xC0, v % 64 + 0x80]
  else if v < 0x10000 then [v / 4096 + 0xE0, v / 64 % 64 + 0x80, v % 64 + 0x80]
  else [v / 262144 + 0xF0, v / 4096 % 64 + 0x80, v / 64 % 64 + 0x80, v % 64 + 0x80]

/-- The bytes of a text. -/
def Encoded (l : List Nat) : Prop := ∃ vs : List Nat,
    (∀ v ∈ vs, v.isValidChar) ∧ l = vs.flatMap encode

theorem encoded_nil : Encoded [] := ⟨[], nofun, rfl⟩

theorem Encoded.cons (hv : v.isValidChar) (h : Encoded l) : Encoded (encode v ++ l) := by
  obtain ⟨vs, hvs, rfl⟩ := h
  refine ⟨v :: vs, fun w hw => ?_, rfl⟩
  rcases mem_cons.mp hw with rfl | hw
  · exact hv
  · exact hvs w hw

/-- Bytes that are a text start with those of a scalar value. -/
theorem Encoded.exists_cons (h : Encoded l) (hne : l ≠ []) :
    ∃ v r, v.isValidChar ∧ l = encode v ++ r ∧ Encoded r := by
  obtain ⟨vs, hvs, rfl⟩ := h
  cases vs with
  | nil => exact absurd rfl hne
  | cons v vs =>
    exact ⟨v, vs.flatMap encode, hvs v mem_cons_self, rfl, vs,
      fun w hw => hvs w (mem_cons_of_mem v hw), rfl⟩

/-- The lengths of an encoding. -/
theorem encode_cases (v : Nat) : (v < 0x80 ∧ encode v = [v]) ∨
    (0x80 ≤ v ∧ v < 0x800 ∧ encode v = [v / 64 + 0xC0, v % 64 + 0x80]) ∨
    (0x800 ≤ v ∧ v < 0x10000 ∧ encode v = [v / 4096 + 0xE0, v / 64 % 64 + 0x80, v % 64 + 0x80]) ∨
    (0x10000 ≤ v ∧ encode v =
      [v / 262144 + 0xF0, v / 4096 % 64 + 0x80, v / 64 % 64 + 0x80, v % 64 + 0x80]) := by
  rw [encode]
  split
  · exact .inl ⟨‹_›, rfl⟩
  split
  · exact .inr (.inl ⟨by omega, ‹_›, rfl⟩)
  split
  · exact .inr (.inr (.inl ⟨by omega, ‹_›, rfl⟩))
  · exact .inr (.inr (.inr ⟨by omega, rfl⟩))

/-- The first bytes can be read in one way only. -/
theorem encode_append_inj (h : encode v ++ r = encode w ++ s) : v = w ∧ r = s := by
  have heq : v = w := by
    rcases encode_cases v with ⟨_, hev⟩ | ⟨_, _, hev⟩ | ⟨_, _, hev⟩ | ⟨_, hev⟩ <;>
    rcases encode_cases w with ⟨_, hew⟩ | ⟨_, _, hew⟩ | ⟨_, _, hew⟩ | ⟨_, hew⟩ <;>
    simp only [hev, hew, cons_append, nil_append, cons.injEq] at h <;> omega
  subst heq
  exact ⟨rfl, append_cancel_left h⟩

theorem encode_ne_nil (v : Nat) : encode v ≠ [] := by
  rcases encode_cases v with ⟨_, hev⟩ | ⟨_, _, hev⟩ | ⟨_, _, hev⟩ | ⟨_, hev⟩ <;> simp [hev]

/-- A text that starts with an encoding goes on with a text. -/
theorem encoded_append_iff : Encoded (encode v ++ l) ↔ v.isValidChar ∧ Encoded l := by
  refine ⟨fun h => ?_, fun h => h.2.cons h.1⟩
  obtain ⟨w, r, hw, heq, hr⟩ :=
    h.exists_cons (append_ne_nil_of_left_ne_nil (encode_ne_nil v) l)
  obtain ⟨rfl, rfl⟩ := encode_append_inj heq
  exact ⟨hw, hr⟩

/-! ### Strings -/

theorem lt_of_isValidChar (h : v.isValidChar) : v < 0x110000 := by
  rw [Nat.isValidChar] at h
  omega

/-- The bytes of a character are those of its scalar value. -/
theorem map_utf8EncodeChar (c : Char) :
    (String.utf8EncodeChar c).map UInt8.toNat = encode c.toNat := by
  have hlt := lt_of_isValidChar c.valid
  simp only [String.utf8EncodeChar, Char.toNat]
  generalize c.val.toNat = v at hlt ⊢
  rcases encode_cases v with ⟨h, hev⟩ | ⟨h, h', hev⟩ | ⟨h, h', hev⟩ | ⟨h, hev⟩
  · rw [if_pos (Nat.le_of_lt_succ h), hev]
    simp only [map_cons, map_nil, UInt8.toNat_ofNat', cons.injEq, and_true]
    omega
  · rw [if_neg (by omega), if_pos (Nat.le_of_lt_succ h'), hev]
    simp only [map_cons, map_nil, UInt8.toNat_ofNat', cons.injEq, and_true]
    omega
  · rw [if_neg (by omega), if_neg (by omega), if_pos (Nat.le_of_lt_succ h'), hev]
    simp only [map_cons, map_nil, UInt8.toNat_ofNat', cons.injEq, and_true]
    omega
  · rw [if_neg (by omega), if_neg (by omega), if_neg (by omega), hev]
    simp only [map_cons, map_nil, UInt8.toNat_ofNat', cons.injEq, and_true]
    omega

theorem toNat_ofNat (h : v.isValidChar) : (Char.ofNat v).toNat = v := by
  rw [Char.ofNat, dif_pos h]
  rfl

/-- A text is what the characters of a string are encoded to. -/
theorem encoded_iff_chars {l : List UInt8} : Encoded (l.map UInt8.toNat) ↔
    ∃ chars : List Char, l = chars.flatMap String.utf8EncodeChar := by
  have hmap : ∀ chars : List Char, (chars.flatMap String.utf8EncodeChar).map UInt8.toNat =
      (chars.map Char.toNat).flatMap encode := by
    intro chars
    rw [map_flatMap, flatMap_map]
    exact flatMap_congr fun c _ => map_utf8EncodeChar c
  constructor
  · rintro ⟨vs, hvs, heq⟩
    refine ⟨vs.map Char.ofNat, map_injective_iff.mpr (fun _ _ => UInt8.toNat_inj.mp) ?_⟩
    rw [heq, hmap, map_map]
    congr 1
    refine (map_id vs).symm.trans (map_congr_left fun v hv => ?_)
    exact (toNat_ofNat (hvs v hv)).symm
  · rintro ⟨chars, rfl⟩
    refine ⟨chars.map Char.toNat, fun v hv => ?_, hmap chars⟩
    obtain ⟨c, -, rfl⟩ := mem_map.mp hv
    exact c.valid

end OmapHal.Core.Utf8
