import Mathlib

/-!
# Arrays of edges

An array is a function of its index. `exchange` swaps two entries, and one array
`Rearranges` another when exchanges lead from the first to the second. The entries
of a strictly increasing array are edges: they cut the range between the first and
the last into half-open pieces, and every point of the range is in exactly one.
-/

namespace OmapHal.Core

open List Function

variable {α : Type*}

section Exchange

/-- An array with two entries exchanged. -/
def exchange (a : Nat → α) (i j : Nat) : Nat → α :=
  Function.update (Function.update a i (a j)) j (a i)

theorem exchange_apply (a : Nat → α) (i j k : Nat) :
    exchange a i j k = if k = j then a i else if k = i then a j else a k := by
  simp only [exchange, update_apply]

/-- An exchange is the array read through a transposition. -/
theorem exchange_eq_comp (a : Nat → α) (i j : Nat) : exchange a i j = a ∘ Equiv.swap i j := by
  funext k
  rw [exchange_apply, comp_apply, Equiv.swap_apply_def]
  by_cases hi : k = i
  · by_cases hj : k = j
    · rw [if_pos hj, if_pos hi, ← hi, hj]
    · rw [if_neg hj, if_pos hi, if_pos hi]
  · rw [if_neg hi, if_neg hi]
    split <;> rfl

/-- The second array holds the first `n` entries of the first in some order, and the
others where they were. -/
def Rearranges (a b : Nat → α) (n : Nat) : Prop :=
  ∃ σ : Equiv.Perm Nat, (∀ k, n ≤ k → σ k = k) ∧ b = a ∘ σ

variable {a b c : Nat → α} {n : Nat}

theorem Rearranges.refl (a : Nat → α) (n : Nat) : Rearranges a a n :=
  ⟨Equiv.refl Nat, fun _ _ => rfl, rfl⟩

theorem Rearranges.trans (h : Rearranges a b n) (h' : Rearranges b c n) : Rearranges a c n := by
  obtain ⟨σ, hσ, rfl⟩ := h
  obtain ⟨τ, hτ, rfl⟩ := h'
  refine ⟨τ.trans σ, fun k hk => ?_, rfl⟩
  rw [Equiv.trans_apply, hτ k hk, hσ k hk]

/-- Exchanging two of the first `n` entries rearranges them. -/
theorem rearranges_exchange {i j : Nat} (hi : i < n) (hj : j < n) :
    Rearranges a (exchange a i j) n := by
  refine ⟨Equiv.swap i j, fun k hk => ?_, exchange_eq_comp a i j⟩
  exact Equiv.swap_apply_of_ne_of_ne (by omega) (by omega)

/-- A permutation that keeps the indices from `n` on keeps those before `n`. -/
theorem perm_lt_iff {σ : Equiv.Perm Nat} (hσ : ∀ k, n ≤ k → σ k = k) {k : Nat} :
    σ k < n ↔ k < n := by
  constructor
  · intro h
    by_contra hk
    rw [hσ k (by omega)] at h
    exact hk h
  · intro h
    by_contra hk
    have hfix : σ (σ k) = σ k := hσ (σ k) (by omega)
    have hk' : σ k = k := σ.injective hfix
    omega

/-- The values among the first `n` entries are the same. -/
theorem Rearranges.image_eq (h : Rearranges a b n) :
    Set.image b (Set.Iio n) = Set.image a (Set.Iio n) := by
  obtain ⟨σ, hσ, rfl⟩ := h
  ext v
  constructor
  · rintro ⟨k, hk, rfl⟩
    exact ⟨σ k, (perm_lt_iff hσ).mpr hk, rfl⟩
  · rintro ⟨k, hk, rfl⟩
    refine ⟨σ.symm k, ?_, ?_⟩
    · apply (perm_lt_iff hσ).mp
      rw [Equiv.apply_symm_apply]
      exact hk
    · rw [comp_apply, Equiv.apply_symm_apply]

end Exchange

section Edges

variable [LinearOrder α] {e : Nat → α} {m i j k : Nat} {x : α}

/-- Of two indices below the end, the one with the smaller entry comes first. -/
theorem lt_of_edge_lt (h : StrictMonoOn e (Set.Iio m)) (hi : i < m) (hj : j < m)
    (hlt : e i < e j) : i < j := by
  by_contra hji
  have hle := h.monotoneOn (show j ∈ Set.Iio m from hj) (show i ∈ Set.Iio m from hi) (by omega)
  exact absurd hlt (not_lt.mpr hle)

/-- No edge lies strictly inside a piece: one before its end is not after its start. -/
theorem edge_le_of_lt (h : StrictMonoOn e (Set.Iio m)) (hi : i < m) (hk : k + 1 < m)
    (hlt : e i < e (k + 1)) : e i ≤ e k := by
  have hik : i < k + 1 := lt_of_edge_lt h hi hk hlt
  exact h.monotoneOn (show i ∈ Set.Iio m from hi) (show k ∈ Set.Iio m by exact Nat.lt_of_succ_lt hk)
    (by omega)

/-- A point between the first edge and edge `m` is in one of the pieces before it. -/
theorem exists_piece (h0 : e 0 ≤ x) (hm : x < e m) : ∃ k < m, e k ≤ x ∧ x < e (k + 1) := by
  induction m with
  | zero => exact absurd h0 (not_le.mpr hm)
  | succ m ih =>
    rcases lt_or_ge x (e m) with hx | hx
    · obtain ⟨k, hk, hkx⟩ := ih hx
      exact ⟨k, by omega, hkx⟩
    · exact ⟨m, by omega, hx, hm⟩

end Edges

section Subdivision

variable [LinearOrder α]

/-- The pieces between neighbouring entries, in a list. -/
structure Subdivides (entries : Set α) (pieces : List (α × α)) : Prop where
  lt : ∀ p ∈ pieces, p.1 < p.2
  left_mem : ∀ p ∈ pieces, p.1 ∈ entries
  right_mem : ∀ p ∈ pieces, p.2 ∈ entries
  /-- No entry lies strictly inside a piece. -/
  le_left : ∀ p ∈ pieces, ∀ v ∈ entries, v < p.2 → v ≤ p.1
  /-- Between two entries every point is in a piece. -/
  exists_piece : ∀ v ∈ entries, ∀ w ∈ entries, ∀ x, v ≤ x → x < w →
    ∃ (k : Nat) (p : α × α), pieces[k]? = some p ∧ p.1 ≤ x ∧ x < p.2
  /-- The pieces are in order and do not overlap. -/
  ordered : ∀ (i j : Nat) (p q : α × α), i < j → pieces[i]? = some p → pieces[j]? = some q →
    p.2 ≤ q.1

/-- The neighbouring entries of a strictly increasing array subdivide its values. -/
theorem subdivides_of_strictMonoOn {e : Nat → α} {m : Nat} (h : StrictMonoOn e (Set.Iio m)) :
    Subdivides (Set.image e (Set.Iio m)) ((List.range (m - 1)).map fun k => (e k, e (k + 1))) := by
  have hmem : ∀ p ∈ (range (m - 1)).map fun k => (e k, e (k + 1)),
      ∃ k, k + 1 < m ∧ p = (e k, e (k + 1)) := by
    intro p hp
    obtain ⟨k, hk, rfl⟩ := mem_map.mp hp
    exact ⟨k, by rw [mem_range] at hk; omega, rfl⟩
  have hget : ∀ i p, ((range (m - 1)).map fun k => (e k, e (k + 1)))[i]? = some p →
      i + 1 < m ∧ p = (e i, e (i + 1)) := by
    intro i p hp
    rw [getElem?_map, Option.map_eq_some_iff] at hp
    obtain ⟨k, hk, rfl⟩ := hp
    obtain ⟨hi, rfl⟩ := List.getElem?_eq_some_iff.mp hk
    rw [length_range] at hi
    rw [getElem_range]
    exact ⟨by omega, rfl⟩
  constructor
  · intro p hp
    obtain ⟨k, hk, rfl⟩ := hmem p hp
    exact h (Set.mem_Iio.mpr (by omega)) (Set.mem_Iio.mpr hk) (by omega)
  · intro p hp
    obtain ⟨k, hk, rfl⟩ := hmem p hp
    exact ⟨k, Set.mem_Iio.mpr (by omega), rfl⟩
  · intro p hp
    obtain ⟨k, hk, rfl⟩ := hmem p hp
    exact ⟨k + 1, Set.mem_Iio.mpr hk, rfl⟩
  · rintro p hp v ⟨i, hi, rfl⟩ hv
    obtain ⟨k, hk, rfl⟩ := hmem p hp
    exact edge_le_of_lt h hi hk hv
  · rintro v ⟨i, hi, rfl⟩ w ⟨j, hj, rfl⟩ x hx hxw
    rw [Set.mem_Iio] at hi hj
    have h0 : e 0 ≤ e i := h.monotoneOn (Set.mem_Iio.mpr (by omega)) (Set.mem_Iio.mpr hi) (by omega)
    obtain ⟨k, hk, hkx⟩ := exists_piece (h0.trans hx) hxw
    refine ⟨k, (e k, e (k + 1)), ?_, hkx⟩
    rw [getElem?_map, getElem?_range (by omega), Option.map_some]
  · intro i j p q hij hp hq
    obtain ⟨hi, rfl⟩ := hget i p hp
    obtain ⟨hj, rfl⟩ := hget j q hq
    exact h.monotoneOn (Set.mem_Iio.mpr hi) (Set.mem_Iio.mpr (by omega)) (by omega)

namespace Subdivides

variable {entries : Set α} {pieces : List (α × α)} {p : α × α} {lo hi s t v w x : α}

/-- An entry after the start of a piece is not before its end. -/
theorem right_le (h : Subdivides entries pieces) (hp : p ∈ pieces) (hv : v ∈ entries)
    (hlt : p.1 < v) : p.2 ≤ v := by
  by_contra hvp
  exact absurd hlt (not_lt.mpr (h.le_left p hp v hv (not_le.mp hvp)))

/-- A span whose ends, clipped to a window, are entries covers every piece inside the
window that it reaches. -/
theorem covers (h : Subdivides entries pieces) (hp : p ∈ pieces) (hlo : lo ≤ p.1) (hhi : p.2 ≤ hi)
    (hs : max lo s ∈ entries) (ht : min t hi ∈ entries) (hsp : s < p.2) (hpt : p.1 < t) :
    s ≤ p.1 ∧ p.2 ≤ t := by
  have hlt := h.lt p hp
  constructor
  · exact (le_max_right lo s).trans
      (h.le_left p hp _ hs (max_lt (hlo.trans_lt hlt) hsp))
  · exact (h.right_le hp ht (lt_min hpt (hlt.trans_le hhi))).trans (min_le_left t hi)

/-- No point is in two pieces. -/
theorem index_unique (h : Subdivides entries pieces) {i j : Nat} {q : α × α}
    (hp : pieces[i]? = some p) (hq : pieces[j]? = some q) (hxp : p.1 ≤ x ∧ x < p.2)
    (hxq : q.1 ≤ x ∧ x < q.2) : i = j := by
  rcases Nat.lt_trichotomy i j with hij | rfl | hij
  · exact absurd (hxp.2.trans_le (h.ordered i j p q hij hp hq)) (not_lt.mpr hxq.1)
  · rfl
  · exact absurd (hxq.2.trans_le (h.ordered j i q p hij hq hp)) (not_lt.mpr hxp.1)

/-- The piece around a point between two entries. -/
theorem exists_mem (h : Subdivides entries pieces) (hv : v ∈ entries) (hw : w ∈ entries)
    (hvx : v ≤ x) (hxw : x < w) : ∃ p ∈ pieces, p.1 ≤ x ∧ x < p.2 := by
  obtain ⟨k, p, hk, hx⟩ := h.exists_piece v hv w hw x hvx hxw
  exact ⟨p, mem_of_getElem? hk, hx⟩

/-- There are no pieces exactly when all entries are equal. -/
theorem eq_nil_iff (h : Subdivides entries pieces) :
    pieces = [] ↔ ∀ v ∈ entries, ∀ w ∈ entries, v = w := by
  constructor
  · rintro rfl v hv w hw
    have hno : ∀ v ∈ entries, ∀ w ∈ entries, ¬ v < w := by
      intro v hv w hw hlt
      obtain ⟨p, hp, -⟩ := h.exists_mem hv hw (le_refl v) hlt
      cases hp
    exact le_antisymm (not_lt.mp (hno w hw v hv)) (not_lt.mp (hno v hv w hw))
  · intro heq
    apply eq_nil_iff_forall_not_mem.mpr
    intro p hp
    exact absurd (heq p.1 (h.left_mem p hp) p.2 (h.right_mem p hp)) (h.lt p hp).ne

/-- No piece comes twice. -/
theorem nodup (h : Subdivides entries pieces) : pieces.Nodup := by
  rw [nodup_iff_getElem?_ne_getElem?]
  intro i j hij hj heq
  rw [getElem?_eq_getElem hj] at heq
  have hp := h.lt _ (getElem_mem hj)
  exact absurd (h.ordered i j _ _ hij heq (getElem?_eq_getElem hj)) (not_le.mpr hp)

end Subdivides

/-- The gaps between neighbouring entries, in no order. -/
def gaps (entries : List α) : Finset (α × α) :=
  (entries.toFinset ×ˢ entries.toFinset).filter fun p =>
    p.1 < p.2 ∧ ∀ v ∈ entries, v < p.2 → v ≤ p.1

theorem mem_gaps {entries : List α} {p : α × α} :
    p ∈ gaps entries ↔ (p.1 ∈ entries ∧ p.2 ∈ entries) ∧
      p.1 < p.2 ∧ ∀ v ∈ entries, v < p.2 → v ≤ p.1 := by
  rw [gaps, Finset.mem_filter, Finset.mem_product, mem_toFinset, mem_toFinset]

/-- The pieces of a subdivision are the gaps. -/
theorem Subdivides.mem_iff {entries : List α} {pieces : List (α × α)} {p : α × α}
    (h : Subdivides {v | v ∈ entries} pieces) : p ∈ pieces ↔ p ∈ gaps entries := by
  rw [mem_gaps]
  constructor
  · exact fun hp => ⟨⟨h.left_mem p hp, h.right_mem p hp⟩, h.lt p hp, h.le_left p hp⟩
  · rintro ⟨⟨hleft, hright⟩, hlt, hgap⟩
    obtain ⟨p', hp', hle, hlt'⟩ := h.exists_mem hleft hright (le_refl p.1) hlt
    -- both pieces begin at the last entry that is not behind the left end, and end at the next one
    have hfirst : p'.1 = p.1 := le_antisymm hle (h.le_left p' hp' _ hleft hlt')
    have hsecond : p'.2 = p.2 := by
      refine le_antisymm (h.right_le hp' hright (hfirst ▸ hlt)) (not_lt.mp fun hback => ?_)
      exact absurd (hgap _ (h.right_mem p' hp') hback) (not_le.mpr hlt')
    rwa [Prod.ext hfirst hsecond] at hp'

/-- A sum over the pieces of a subdivision. -/
theorem Subdivides.sum_map {entries : List α} {pieces : List (α × α)}
    (h : Subdivides {v | v ∈ entries} pieces) (f : α × α → Nat) :
    (pieces.map f).sum = ∑ p ∈ gaps entries, f p := by
  rw [← sum_toFinset f h.nodup]
  refine Finset.sum_congr (Finset.ext fun p => ?_) fun _ _ => rfl
  rw [mem_toFinset, h.mem_iff]

end Subdivision

end OmapHal.Core
