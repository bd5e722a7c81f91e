import Mathlib.Order.Lattice
import Mathlib.Order.MinMax
import Mathlib.Tactic.Cases

/-!
# Half-open boxes over a linear order

A box has four edges; a point is in it when it lies at or behind the left and top
edges and before the right and bottom ones. Edges in the wrong order are allowed
and give a box without points. `hull` is the smallest box around two, `inter` the
common part, and `meets` the comparison of edges by which overlap is tested.
-/

namespace OmapHal.Core

/-- Four edges, the right and bottom ones excluded. -/
structure Box (α : Type*) where
  left : α
  top : α
  right : α
  bottom : α
  deriving DecidableEq, Repr

namespace Box

variable {α : Type*} [LinearOrder α]

/-- The points of a box. -/
instance : Membership (α × α) (Box α) where
  mem b p := (b.left ≤ p.1 ∧ p.1 < b.right) ∧ (b.top ≤ p.2 ∧ p.2 < b.bottom)

theorem mem_def {b : Box α} {p : α × α} :
    p ∈ b ↔ (b.left ≤ p.1 ∧ p.1 < b.right) ∧ (b.top ≤ p.2 ∧ p.2 < b.bottom) := Iff.rfl

instance (b : Box α) (p : α × α) : Decidable (p ∈ b) :=
  inferInstanceAs (Decidable ((b.left ≤ p.1 ∧ p.1 < b.right) ∧ (b.top ≤ p.2 ∧ p.2 < b.bottom)))

/-- The common part of two boxes. -/
def inter (a b : Box α) : Box α :=
  ⟨max a.left b.left, max a.top b.top, min a.right b.right, min a.bottom b.bottom⟩

/-- The smallest box around two. -/
def hull (a b : Box α) : Box α :=
  ⟨min a.left b.left, min a.top b.top, max a.right b.right, max a.bottom b.bottom⟩

/-- The edge comparison that tests two boxes for an overlap. -/
def meets (a b : Box α) : Bool :=
  decide (b.top < a.bottom) && decide (a.top < b.bottom) &&
    decide (b.left < a.right) && decide (a.left < b.right)

/-- Every point of one box is a point of the other. -/
def Within (a b : Box α) : Prop := ∀ p ∈ a, p ∈ b

variable {a b : Box α} {p : α × α}

theorem mem_inter : p ∈ a.inter b ↔ p ∈ a ∧ p ∈ b := by
  simp only [mem_def, inter, max_le_iff, lt_min_iff]
  constructor
  · rintro ⟨⟨⟨h1, h2⟩, h3, h4⟩, ⟨h5, h6⟩, h7, h8⟩
    exact ⟨⟨⟨h1, h3⟩, h5, h7⟩, ⟨h2, h4⟩, h6, h8⟩
  · rintro ⟨⟨⟨h1, h3⟩, h5, h7⟩, ⟨h2, h4⟩, h6, h8⟩
    exact ⟨⟨⟨h1, h2⟩, h3, h4⟩, ⟨h5, h6⟩, h7, h8⟩

/-- The hull keeps the points of the first box. -/
theorem mem_hull_left (h : p ∈ a) : p ∈ a.hull b := by
  rw [mem_def] at h ⊢
  obtain ⟨⟨h1, h2⟩, h3, h4⟩ := h
  exact ⟨⟨min_le_of_left_le h1, lt_max_of_lt_left h2⟩, min_le_of_left_le h3, lt_max_of_lt_left h4⟩

/-- The hull keeps the points of the second box. -/
theorem mem_hull_right (h : p ∈ b) : p ∈ a.hull b := by
  rw [mem_def] at h ⊢
  obtain ⟨⟨h1, h2⟩, h3, h4⟩ := h
  exact ⟨⟨min_le_of_right_le h1, lt_max_of_lt_right h2⟩, min_le_of_right_le h3,
    lt_max_of_lt_right h4⟩

theorem meets_iff :
    a.meets b ↔
      (b.top < a.bottom ∧ a.top < b.bottom) ∧ (b.left < a.right ∧ a.left < b.right) := by
  simp only [meets, Bool.and_eq_true, decide_eq_true_eq, and_assoc]

/-- Boxes with a common point pass the overlap test. -/
theorem meets_of_mem (ha : p ∈ a) (hb : p ∈ b) : a.meets b = true := by
  rw [mem_def] at ha hb
  obtain ⟨⟨h1, h2⟩, h3, h4⟩ := ha
  obtain ⟨⟨g1, g2⟩, g3, g4⟩ := hb
  exact meets_iff.mpr ⟨⟨g3.trans_lt h4, h3.trans_lt g4⟩, g1.trans_lt h2, h1.trans_lt g2⟩

/-! ### Tilings -/

/-- Each point of a box is a point of one of the tiles, and no other point is. -/
structure Tiles (tiles : List (Box α)) (b : Box α) : Prop where
  apart : tiles.Pairwise fun t u => ∀ p, ¬(p ∈ t ∧ p ∈ u)
  cover : ∀ p, p ∈ b ↔ ∃ t ∈ tiles, p ∈ t

/-- Tiles that are taken back along a map of points tile the box that is taken back. -/
theorem Tiles.preimage {β : Type*} [LinearOrder β] {tiles : List (Box α)} {b' : Box β}
    {f : Box α → Box β} {g : β × β → α × α} (h : Tiles tiles b)
    (hf : ∀ t ∈ tiles, ∀ q, q ∈ f t ↔ g q ∈ t) (hb : ∀ q, q ∈ b' ↔ g q ∈ b) :
    Tiles (tiles.map f) b' where
  apart := by
    refine List.pairwise_map.mpr (h.apart.imp_of_mem fun ht hu hapart q hq => hapart (g q) ?_)
    exact ⟨(hf _ ht q).mp hq.1, (hf _ hu q).mp hq.2⟩
  cover := by
    intro q
    rw [hb, h.cover]
    constructor
    · rintro ⟨t, ht, hq⟩
      exact ⟨f t, List.mem_map_of_mem ht, (hf t ht q).mpr hq⟩
    · rintro ⟨u, hu, hq⟩
      obtain ⟨t, ht, rfl⟩ := List.mem_map.mp hu
      exact ⟨t, ht, (hf t ht q).mp hq⟩

end Box

end OmapHal.Core
