import Mathlib

/-!
# Search trees

Unbalanced binary trees over elements with keys in a linear order. A search follows any comparison
with the elements; it need not agree with the order of the keys.
-/

namespace OmapHal.Core.SearchTree

open List

variable {side : Ordering}

variable {α κ : Type*} [LinearOrder κ] {key : α → κ} {direct : α → Ordering} {t : BinaryTree α}
  {l : List α} {a b n p x : α} {k : κ}

def inorder : BinaryTree α → List α
  | .nil => []
  | .node a left right => inorder left ++ a :: inorder right

/-- The element at which a comparison ends on its way down. -/
def search (direct : α → Ordering) : BinaryTree α → Option α
  | .nil => none
  | .node a left right => match direct a with
    | .lt => search direct left
    | .gt => search direct right
    | .eq => some a

/-- The new element goes where the search for its key ends. -/
def insert (key : α → κ) (x : α) : BinaryTree α → BinaryTree α
  | .nil => .node x .nil .nil
  | .node a left right => match cmp (key x) (key a) with
    | .lt => .node a (insert key x left) right
    | .gt => .node a left (insert key x right)
    | .eq => .node a left right

/-- The tree of elements that come one after the other. -/
def build (key : α → κ) (l : List α) : BinaryTree α :=
  l.foldl (fun t x => insert key x t) .nil

/-- The keys rise from left to right. -/
def Sorted (key : α → κ) (t : BinaryTree α) : Prop :=
  (inorder t).Pairwise fun a b => key a < key b

@[simp] theorem inorder_nil : inorder (.nil : BinaryTree α) = [] := rfl

@[simp] theorem inorder_node {left right : BinaryTree α} :
    inorder (.node a left right) = inorder left ++ a :: inorder right := rfl

theorem sorted_node_iff {left right : BinaryTree α} : Sorted key (.node a left right) ↔
    (Sorted key left ∧ Sorted key right) ∧
      (∀ b ∈ inorder left, key b < key a) ∧ ∀ b ∈ inorder right, key a < key b := by
  rw [Sorted, inorder_node, pairwise_append, pairwise_cons]
  constructor
  · rintro ⟨hleft, ⟨hright, hrest⟩, hcross⟩
    exact ⟨⟨hleft, hrest⟩, fun b hb => hcross b hb a mem_cons_self, hright⟩
  · rintro ⟨⟨hleft, hrest⟩, hlow, hhigh⟩
    refine ⟨hleft, ⟨hhigh, hrest⟩, fun b hb c hc => ?_⟩
    rcases mem_cons.mp hc with rfl | hc
    · exact hlow b hb
    · exact (hlow b hb).trans (hhigh c hc)

/-! ### Insertion -/

/-- A new key goes between the lower ones and the higher ones. -/
theorem exists_inorder_insert (h : Sorted key t) (hnew : ∀ a ∈ inorder t, key a ≠ key x) :
    ∃ l₁ l₂, inorder t = l₁ ++ l₂ ∧ inorder (insert key x t) = l₁ ++ x :: l₂ ∧
      (∀ a ∈ l₁, key a < key x) ∧ ∀ a ∈ l₂, key x < key a := by
  induction t with
  | nil => exact ⟨[], [], rfl, rfl, nofun, nofun⟩
  | node b left right ihl ihr =>
    obtain ⟨⟨hleft, hright⟩, hlow, hhigh⟩ := sorted_node_iff.mp h
    have hb := hnew b (mem_append_right _ mem_cons_self)
    rw [insert]
    cases hcmp : cmp (key x) (key b) with
    | lt =>
      have hlt : key x < key b := (cmp_eq_lt_iff _ _).mp hcmp
      obtain ⟨l₁, l₂, hl, hl', hlow', hhigh'⟩ := ihl hleft fun a ha =>
        hnew a (mem_append_left _ ha)
      refine ⟨l₁, l₂ ++ b :: inorder right, ?_, ?_, hlow', fun a ha => ?_⟩
      · rw [inorder_node, hl, append_assoc]
      · rw [inorder_node, hl', append_assoc, cons_append]
      · rcases mem_append.mp ha with ha | ha
        · exact hhigh' a ha
        · rcases mem_cons.mp ha with rfl | ha
          · exact hlt
          · exact hlt.trans (hhigh a ha)
    | eq => exact absurd ((cmp_eq_eq_iff _ _).mp hcmp).symm hb
    | gt =>
      have hgt : key b < key x := (cmp_eq_gt_iff _ _).mp hcmp
      obtain ⟨l₁, l₂, hl, hl', hlow', hhigh'⟩ := ihr hright fun a ha =>
        hnew a (mem_append_right _ (mem_cons_of_mem b ha))
      refine ⟨inorder left ++ b :: l₁, l₂, ?_, ?_, fun a ha => ?_, hhigh'⟩
      · rw [inorder_node, hl, append_assoc, cons_append]
      · rw [inorder_node, hl', append_assoc, cons_append]
      · rcases mem_append.mp ha with ha | ha
        · exact (hlow a ha).trans hgt
        · rcases mem_cons.mp ha with rfl | ha
          · exact hgt
          · exact hlow' a ha

theorem Sorted.insert (h : Sorted key t) (hnew : ∀ a ∈ inorder t, key a ≠ key x) :
    Sorted key (insert key x t) := by
  obtain ⟨l₁, l₂, hl, hl', hlow, hhigh⟩ := exists_inorder_insert h hnew
  rw [Sorted, hl, pairwise_append] at h
  rw [Sorted, hl', pairwise_append, pairwise_cons]
  refine ⟨h.1, ⟨hhigh, h.2.1⟩, fun a ha b hb => ?_⟩
  rcases mem_cons.mp hb with rfl | hb
  · exact hlow a ha
  · exact h.2.2 a ha b hb

/-! ### Search by key -/

theorem search_eq_some_iff (h : Sorted key t) :
    search (fun a => cmp k (key a)) t = some a ↔ a ∈ inorder t ∧ key a = k := by
  induction t with
  | nil => simp [search]
  | node b left right ihl ihr =>
    obtain ⟨⟨hleft, hright⟩, hlow, hhigh⟩ := sorted_node_iff.mp h
    rw [search, inorder_node, mem_append, mem_cons]
    cases hcmp : cmp k (key b) with
    | lt =>
      have hlt : k < key b := (cmp_eq_lt_iff _ _).mp hcmp
      rw [ihl hleft]
      refine and_congr_left fun hk => ⟨.inl, ?_⟩
      rintro (hmem | rfl | hmem)
      · exact hmem
      · exact absurd hk hlt.ne'
      · exact absurd hk ((hlt.trans (hhigh a hmem)).ne')
    | eq =>
      have heq : k = key b := (cmp_eq_eq_iff _ _).mp hcmp
      constructor
      · rintro ⟨⟩
        exact ⟨.inr (.inl rfl), heq.symm⟩
      · rintro ⟨hmem | rfl | hmem, hk⟩
        · exact absurd (hk.trans heq) (hlow a hmem).ne
        · rfl
        · exact absurd (hk.trans heq) (hhigh a hmem).ne'
    | gt =>
      have hgt : key b < k := (cmp_eq_gt_iff _ _).mp hcmp
      rw [ihr hright]
      refine and_congr_left fun hk => ⟨fun hmem => .inr (.inr hmem), ?_⟩
      rintro (hmem | rfl | hmem)
      · exact absurd hk ((hlow a hmem).trans hgt).ne
      · exact absurd hk hgt.ne
      · exact hmem

/-- A search ends at an element of the tree that the comparison calls equal. -/
theorem of_search (h : search direct t = some a) : a ∈ inorder t ∧ direct a = .eq := by
  induction t with
  | nil => cases h
  | node b left right ihl ihr =>
    rw [search] at h
    rw [inorder_node, mem_append, mem_cons]
    cases hcmp : direct b with
    | lt =>
      rw [hcmp] at h
      exact (ihl h).imp_left .inl
    | eq =>
      rw [hcmp] at h
      obtain rfl := Option.some.inj h
      exact ⟨.inr (.inl rfl), hcmp⟩
    | gt =>
      rw [hcmp] at h
      exact (ihr h).imp_left fun hmem => .inr (.inr hmem)

/-! ### Search by another comparison -/

/-- The key of `b` lies between those of `a` and `p`. -/
def Between (key : α → κ) (b a p : α) : Prop :=
  key a < key b ∧ key b < key p ∨ key p < key b ∧ key b < key a

/-- The element `a` came before `p`, and nothing before it lies between them: `a` is above `p` in
the tree. -/
def Above (key : α → κ) (l : List α) (a p : α) : Prop :=
  ∃ l₁ l₂, l = l₁ ++ a :: l₂ ∧ p ∈ l₂ ∧ ∀ b ∈ l₁, ¬ Between key b a p

theorem above_cons_iff : Above key (n :: l) a p ↔
    (a = n ∧ p ∈ l) ∨ (¬ Between key n a p ∧ Above key l a p) := by
  constructor
  · rintro ⟨l₁, l₂, hl, hp, hnone⟩
    cases l₁ with
    | nil =>
      obtain ⟨rfl, rfl⟩ := cons.inj hl
      exact .inl ⟨rfl, hp⟩
    | cons b l₁ =>
      obtain ⟨rfl, rfl⟩ := cons.inj hl
      exact .inr ⟨hnone n mem_cons_self, l₁, l₂, rfl, hp, fun b hb =>
        hnone b (mem_cons_of_mem n hb)⟩
  · rintro (⟨rfl, hp⟩ | ⟨hn, l₁, l₂, rfl, hp, hnone⟩)
    · exact ⟨[], l, rfl, hp, nofun⟩
    · refine ⟨n :: l₁, l₂, rfl, hp, fun b hb => ?_⟩
      rcases mem_cons.mp hb with rfl | hb
      · exact hn
      · exact hnone b hb

theorem Above.mem (h : Above key l a p) : a ∈ l ∧ p ∈ l := by
  obtain ⟨l₁, l₂, rfl, hp, -⟩ := h
  exact ⟨mem_append_right l₁ mem_cons_self, mem_append_right l₁ (mem_cons_of_mem a hp)⟩

/-- Elements on one side of a key are above each other as in the whole. -/
theorem above_filter_iff {side : α → Bool}
    (hside : ∀ a b p, side a → side p → Between key b a p → side b) :
    Above key (l.filter side) a p ↔ (side a ∧ side p) ∧ Above key l a p := by
  constructor
  · intro h
    have hmem := h.mem
    simp only [mem_filter] at hmem
    refine ⟨⟨hmem.1.2, hmem.2.2⟩, ?_⟩
    obtain ⟨l₁, l₂, hl, hp, hnone⟩ := h
    obtain ⟨m₁, m₂, rfl, rfl, hm₂⟩ := filter_eq_append_iff.mp hl
    obtain ⟨s₁, s₂, rfl, hs₁, ha, rfl⟩ := filter_eq_cons_iff.mp hm₂
    refine ⟨m₁ ++ s₁, s₂, by rw [append_assoc], (mem_filter.mp hp).1, fun b hb hbet => ?_⟩
    have hb' : side b := hside a b p hmem.1.2 hmem.2.2 hbet
    rcases mem_append.mp hb with hb | hb
    · exact hnone b (mem_filter.mpr ⟨hb, hb'⟩) hbet
    · exact hs₁ b hb hb'
  · rintro ⟨⟨ha, hp'⟩, l₁, l₂, rfl, hp, hnone⟩
    refine ⟨l₁.filter side, l₂.filter side, ?_, mem_filter.mpr ⟨hp, hp'⟩, fun b hb => ?_⟩
    · rw [filter_append, filter_cons_of_pos ha]
    · exact hnone b (mem_filter.mp hb).1

/-- The side of an element on which a tree puts another one. -/
def onSide (key : α → κ) (n : α) (side : Ordering) (a : α) : Bool :=
  cmp (key a) (key n) == side

theorem onSide_between (ha : onSide key n side a) (hp : onSide key n side p)
    (hb : Between key b a p) : onSide key n side b := by
  simp only [onSide, beq_iff_eq] at ha hp ⊢
  cases side with
  | lt =>
    rw [cmp_eq_lt_iff] at ha hp ⊢
    exact hb.elim (fun h => h.2.trans hp) fun h => h.2.trans ha
  | eq =>
    rw [cmp_eq_eq_iff] at ha hp
    rcases hb with hb | hb
    · exact absurd (hb.1.trans hb.2) (by rw [ha, hp]; exact lt_irrefl _)
    · exact absurd (hb.1.trans hb.2) (by rw [ha, hp]; exact lt_irrefl _)
  | gt =>
    rw [cmp_eq_gt_iff] at ha hp ⊢
    exact hb.elim (fun h => ha.trans h.1) fun h => hp.trans h.1

/-- Between elements on different sides stands the one that divides them. -/
theorem between_of_sides (hside : side ≠ .eq) (hne : key a ≠ key n)
    (ha : ¬ onSide key n side a) (hp : onSide key n side p) : Between key n a p := by
  simp only [onSide, beq_iff_eq] at ha hp
  cases side with
  | lt =>
    rw [cmp_eq_lt_iff] at ha hp
    exact .inr ⟨hp, lt_of_le_of_ne (not_lt.mp ha) hne.symm⟩
  | eq => exact absurd rfl hside
  | gt =>
    rw [cmp_eq_gt_iff] at ha hp
    exact .inl ⟨lt_of_le_of_ne (not_lt.mp ha) hne, hp⟩

theorem not_between_of_side (ha : onSide key n side a)
    (hp : onSide key n side p) : ¬ Between key n a p := by
  simp only [onSide, beq_iff_eq] at ha hp
  intro hn
  cases side with
  | lt =>
    rw [cmp_eq_lt_iff] at ha hp
    exact hn.elim (fun h => lt_asymm h.2 hp) fun h => lt_asymm h.2 ha
  | eq =>
    rw [cmp_eq_eq_iff] at ha
    exact hn.elim (fun h => h.1.ne ha) fun h => h.2.ne' ha
  | gt =>
    rw [cmp_eq_gt_iff] at ha hp
    exact hn.elim (fun h => lt_asymm h.1 ha) fun h => lt_asymm h.1 hp

theorem build_concat : build key (l ++ [x]) = insert key x (build key l) := by
  rw [build, foldl_append, build, foldl_cons, foldl_nil]

/-- The tree of elements with different keys has them all, in order. -/
theorem build_spec (hdistinct : l.Pairwise fun a b => key a ≠ key b) :
    Sorted key (build key l) ∧ (inorder (build key l)).Perm l := by
  induction l using reverseRecOn with
  | nil => exact ⟨.nil, .nil⟩
  | append_singleton l x ih =>
    obtain ⟨hl, -, hcross⟩ := pairwise_append.mp hdistinct
    obtain ⟨hsorted, hperm⟩ := ih hl
    have hnew : ∀ a ∈ inorder (build key l), key a ≠ key x := fun a ha =>
      hcross a (hperm.mem_iff.mp ha) x (mem_singleton_self x)
    obtain ⟨l₁, l₂, hsplit, hsplit', -⟩ := exists_inorder_insert hsorted hnew
    rw [build_concat]
    refine ⟨hsorted.insert hnew, ?_⟩
    rw [hsplit']
    refine perm_middle.trans (Perm.trans ?_ (perm_append_singleton x l).symm)
    exact (hsplit ▸ hperm).cons x

theorem foldl_insert_node {left right : BinaryTree α} :
    l.foldl (fun t x => insert key x t) (.node n left right) = .node n
      ((l.filter (onSide key n .lt)).foldl (fun t x => insert key x t) left)
      ((l.filter (onSide key n .gt)).foldl (fun t x => insert key x t) right) := by
  induction l generalizing left right with
  | nil => rfl
  | cons x l ih =>
    rw [foldl_cons, insert]
    cases hcmp : cmp (key x) (key n) <;> simp [onSide, hcmp, ih]

theorem build_cons : build key (n :: l) =
    .node n (build key (l.filter (onSide key n .lt))) (build key (l.filter (onSide key n .gt))) :=
  foldl_insert_node

/-- The elements that a comparison finds on its way down one side. -/
theorem leads_iff (hside : side ≠ .eq) (hn : direct n = side) (hdistinct : ∀ a ∈ l, key a ≠ key n) :
    (∃ p ∈ n :: l, direct p = .eq ∧ ∀ a, Above key (n :: l) a p → direct a = cmp (key p) (key a)) ↔
      ∃ p ∈ l.filter (onSide key n side), direct p = .eq ∧
        ∀ a, Above key (l.filter (onSide key n side)) a p → direct a = cmp (key p) (key a) := by
  have hconvex : ∀ a b p, onSide key n side a → onSide key n side p → Between key b a p →
      onSide key n side b := fun _ _ _ => onSide_between
  constructor
  · rintro ⟨p, hp, heq, hall⟩
    rcases mem_cons.mp hp with rfl | hp
    · exact absurd (hn.symm.trans heq) hside
    · have hps : onSide key n side p := by
        rw [onSide, ← hall n (above_cons_iff.mpr (.inl ⟨rfl, hp⟩)), hn, beq_self_eq_true]
      refine ⟨p, mem_filter.mpr ⟨hp, hps⟩, heq, fun a ha => hall a ?_⟩
      obtain ⟨⟨has, -⟩, habove⟩ := (above_filter_iff hconvex).mp ha
      exact above_cons_iff.mpr (.inr ⟨not_between_of_side has hps, habove⟩)
  · rintro ⟨p, hp, heq, hall⟩
    obtain ⟨hp, hps⟩ := mem_filter.mp hp
    refine ⟨p, mem_cons_of_mem n hp, heq, fun a ha => ?_⟩
    rcases above_cons_iff.mp ha with ⟨rfl, -⟩ | ⟨hbet, habove⟩
    · exact hn.trans (beq_iff_eq.mp hps).symm
    · refine hall a ((above_filter_iff hconvex).mpr ⟨⟨?_, hps⟩, habove⟩)
      by_contra has
      exact hbet (between_of_sides hside (hdistinct a habove.mem.1) has hps)

/-- A comparison finds something exactly if it agrees with the keys on the elements above one of
those that it calls equal. -/
theorem search_build_ne_none_iff (hdistinct : l.Pairwise fun a b => key a ≠ key b) :
    search direct (build key l) ≠ none ↔
      ∃ p ∈ l, direct p = .eq ∧ ∀ a, Above key l a p → direct a = cmp (key p) (key a) := by
  induction hlen : l.length using Nat.strongRecOn generalizing l with
  | _ len ih =>
  cases l with
  | nil => simp [build, search]
  | cons n l =>
    obtain ⟨hfirst, hrest⟩ := pairwise_cons.mp hdistinct
    have hne : ∀ a ∈ l, key a ≠ key n := fun a ha => (hfirst a ha).symm
    have hshort : ∀ side, (l.filter (onSide key n side)).length < len := fun side => by
      rw [← hlen]
      exact Nat.lt_succ_of_le (length_filter_le _ _)
    rw [build_cons, search]
    cases hn : direct n with
    | lt => rw [leads_iff (by simp) hn hne, ← ih _ (hshort .lt) (hrest.filter _) rfl]
    | gt => rw [leads_iff (by simp) hn hne, ← ih _ (hshort .gt) (hrest.filter _) rfl]
    | eq =>
      refine iff_of_true (Option.some_ne_none n) ⟨n, mem_cons_self, hn, fun a ha => ?_⟩
      rcases above_cons_iff.mp ha with ⟨rfl, hmem⟩ | ⟨-, habove⟩
      · exact absurd rfl (hne a hmem)
      · exact absurd rfl (hne n habove.mem.2)

end OmapHal.Core.SearchTree
