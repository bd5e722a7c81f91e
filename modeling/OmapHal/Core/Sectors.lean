import Mathlib.Data.List.Basic
import Mathlib.Data.Nat.Basic
import Mathlib.Tactic.Cases
import Mathlib.Tactic.SplitIfs

/-!
# Sectors of a file

A file is a list, written at any position: a gap behind its end is filled. Its sectors are the
whole pieces of a fixed length.
-/

namespace OmapHal.Core

open List Nat

variable {α : Type*} {fill : α} {l d : List α} {p i j size : Nat}

/-- Data over the elements from a position on. Nothing is filled for no data. -/
def overwrite (fill : α) (l : List α) (p : Nat) (d : List α) : List α :=
  if d = [] then l
  else (l ++ List.replicate (p - l.length) fill).take p ++ d ++ l.drop (p + d.length)

theorem overwrite_nil : overwrite fill l p [] = l := if_pos rfl

theorem overwrite_of_ne_nil (hd : d ≠ []) : overwrite fill l p d =
    (l ++ List.replicate (p - l.length) fill).take p ++ d ++ l.drop (p + d.length) := if_neg hd

theorem length_gap (l : List α) (fill : α) (p : Nat) :
    ((l ++ List.replicate (p - l.length) fill).take p).length = p := by
  rw [length_take, length_append, length_replicate]
  omega

theorem length_overwrite (hd : d ≠ []) :
    (overwrite fill l p d).length = max l.length (p + d.length) := by
  rw [overwrite_of_ne_nil hd, length_append, length_append, length_gap, length_drop]
  omega

theorem length_le_overwrite : l.length ≤ (overwrite fill l p d).length := by
  by_cases hd : d = []
  · rw [hd, overwrite_nil]
  · rw [length_overwrite hd]
    exact le_max_left _ _

/-- Elements in front of the position stay. -/
theorem getElem?_overwrite_of_lt (hi : i < p) (hl : i < l.length) :
    (overwrite fill l p d)[i]? = l[i]? := by
  by_cases hd : d = []
  · rw [hd, overwrite_nil]
  · rw [overwrite_of_ne_nil hd, append_assoc, getElem?_append_left,
      getElem?_take_of_lt hi, getElem?_append_left hl]
    rwa [length_gap]

/-- Elements behind the data stay. -/
theorem getElem?_overwrite_of_le (hi : p + d.length ≤ i) : (overwrite fill l p d)[i]? = l[i]? := by
  by_cases hd : d = []
  · rw [hd, overwrite_nil]
  · rw [overwrite_of_ne_nil hd, getElem?_append_right, length_append, length_gap,
      getElem?_drop, Nat.add_sub_cancel' hi]
    rwa [length_append, length_gap]

/-- The data can be read back. -/
theorem getElem?_overwrite_add (hi : i < d.length) :
    (overwrite fill l p d)[p + i]? = d[i]? := by
  have hd : d ≠ [] := by
    rintro rfl
    exact absurd hi (Nat.not_lt_zero i)
  rw [overwrite_of_ne_nil hd, getElem?_append_left, getElem?_append_right,
    length_gap, Nat.add_sub_cancel_left]
  · rw [length_gap]
    exact le_add_right p i
  · rw [length_append, length_gap]
    exact Nat.add_lt_add_left hi p

/-- The number of whole sectors. -/
def sectors (size : Nat) (l : List α) : Nat := l.length / size

/-- The elements of a sector. -/
def sector (size : Nat) (l : List α) (j : Nat) : List α := (l.drop (j * size)).take size

theorem lt_sectors_iff (hsize : 0 < size) : j < sectors size l ↔ (j + 1) * size ≤ l.length :=
  le_div_iff_mul_le hsize

/-- A sector is told by its elements. -/
theorem sector_congr {l' : List α}
    (h : ∀ k, k < size → l'[j * size + k]? = l[j * size + k]?) :
    sector size l' j = sector size l j := by
  refine ext_getElem? fun k => ?_
  rw [sector, sector]
  by_cases hk : k < size
  · rw [getElem?_take_of_lt hk, getElem?_take_of_lt hk, getElem?_drop, getElem?_drop, h k hk]
  · rw [getElem?_take_eq_none (not_lt.mp hk), getElem?_take_eq_none (not_lt.mp hk)]

/-- Data within one sector leaves the others. -/
theorem sector_overwrite_of_ne (hsize : 0 < size) (hd : d.length ≤ size) (hne : j ≠ i)
    (hj : j < sectors size l) :
    sector size (overwrite fill l (i * size) d) j = sector size l j := by
  have hend := (lt_sectors_iff hsize).mp hj
  rw [Nat.add_mul, Nat.one_mul] at hend
  refine sector_congr fun k hk => ?_
  rcases lt_or_gt_of_ne hne with hlt | hgt
  · have hmul := mul_le_mul_right size (succ_le_of_lt hlt)
    rw [succ_mul] at hmul
    exact getElem?_overwrite_of_lt (by omega) (by omega)
  · have hmul := mul_le_mul_right size (succ_le_of_lt hgt)
    rw [succ_mul] at hmul
    exact getElem?_overwrite_of_le (by omega)

/-- A sector that is written holds the data. -/
theorem sector_overwrite_self (hd : d.length = size) :
    sector size (overwrite fill l (i * size) d) i = d := by
  refine ext_getElem? fun k => ?_
  rw [sector]
  by_cases hk : k < size
  · rw [getElem?_take_of_lt hk, getElem?_drop, getElem?_overwrite_add (hd ▸ hk)]
  · rw [getElem?_take_eq_none (not_lt.mp hk), getElem?_eq_none (hd ▸ not_lt.mp hk)]

/-- A sector that is written is there. -/
theorem lt_sectors_overwrite_self (hsize : 0 < size) (hd : d.length = size) :
    i < sectors size (overwrite fill l (i * size) d) := by
  have hne : d ≠ [] := by
    rintro rfl
    exact absurd hd (Nat.ne_of_lt hsize)
  rw [lt_sectors_iff hsize, length_overwrite hne, hd, Nat.add_mul, Nat.one_mul]
  exact le_max_right _ _

theorem sectors_le_overwrite : sectors size l ≤ sectors size (overwrite fill l p d) :=
  Nat.div_le_div_right length_le_overwrite

/-- Elements behind the end leave the sectors. -/
theorem sector_append (hsize : 0 < size) (hj : j < sectors size l) :
    sector size (l ++ d) j = sector size l j := by
  have hend := (lt_sectors_iff hsize).mp hj
  rw [Nat.add_mul, Nat.one_mul] at hend
  exact sector_congr fun k hk => getElem?_append_left (by omega)

theorem overwrite_length (hd : d ≠ []) : overwrite fill l l.length d = l ++ d := by
  rw [overwrite_of_ne_nil hd, Nat.sub_self, replicate_zero, append_nil, take_length,
    drop_of_length_le (le_add_right _ _), append_nil]

/-- A file cut at a sector has the sectors in front of it. -/
theorem sector_take {n : Nat} (hj : j < n) :
    sector size (l.take (n * size)) j = sector size l j := by
  have hmul := mul_le_mul_right size (succ_le_of_lt hj)
  rw [succ_mul] at hmul
  exact sector_congr fun k hk => getElem?_take_of_lt (by omega)

theorem sectors_take (hsize : 0 < size) {n : Nat} (hn : n ≤ sectors size l) :
    sectors size (l.take (n * size)) = n := by
  rw [sectors, length_take, Nat.min_eq_left ((Nat.le_div_iff_mul_le hsize).mp hn),
    Nat.mul_div_cancel n hsize]

/-- Whole sectors behind the end, the last one completed. -/
theorem sectors_append (hsize : 0 < size) {n : Nat} (hd : d.length = n * size) :
    sectors size (l ++ d) = sectors size l + n := by
  rw [sectors, length_append, hd, Nat.add_mul_div_right _ _ hsize, sectors]

/-- Too little behind the end for another sector. -/
theorem sectors_append_of_lt (h : l.length % size + d.length < size) :
    sectors size (l ++ d) = sectors size l := by
  have hsize : 0 < size := Nat.zero_lt_of_lt h
  have hd : d.length < size := by omega
  rw [sectors, sectors, length_append, Nat.add_div hsize, Nat.div_eq_of_lt hd,
    Nat.mod_eq_of_lt hd, if_neg (not_le.mpr h), Nat.add_zero]

end OmapHal.Core
