import OmapHal.PropertyList.Model

/-!
# The tree and the thread of a list

The nodes of a list in memory stand for a search tree of their pointers and names. A search and an
insertion do in memory what the tree says, and the thread follows the order of the tree.
-/

namespace OmapHal.PropertyList

open OmapHal.Core Function List Option
open OmapHal.Core.SearchTree (inorder search inorder_nil inorder_node Sorted sorted_node_iff)

variable {pNode : Pointer} {t' : BinaryTree (Pointer × Name)} {nodes : List (Pointer × Name)}
  {res : S_RESULT}

theorem store_apply {field : Pointer → Option Pointer} {pNode : Option Pointer}
    {value p : Pointer} :
    store field pNode value p = if pNode = some p then some value else field p := by
  cases pNode with
  | none => rfl
  | some q => simp [store, update_apply, eq_comm]

namespace LIST

variable {m m' : LIST} {t : BinaryTree (Pointer × Name)} {o : Option Pointer} {p : Pointer}
  {x : Pointer × Name} {pre post : List (Pointer × Name)} {l₁ l₂ : List Pointer}

/-- The nodes under a pointer are those of a tree. -/
def IsTree (m : LIST) : Option Pointer → BinaryTree (Pointer × Name) → Prop
  | o, .nil => o = none
  | o, .node a left right => (o = some a.1 ∧ m.pName a.1 = some a.2) ∧
    m.IsTree (m.pLeft a.1) left ∧ m.IsTree (m.pRight a.1) right

theorem IsTree.congr (h : m.IsTree o t) (hsame : ∀ a ∈ inorder t,
    m'.pLeft a.1 = m.pLeft a.1 ∧ m'.pRight a.1 = m.pRight a.1 ∧ m'.pName a.1 = m.pName a.1) :
    m'.IsTree o t := by
  induction t generalizing o with
  | nil => exact h
  | node a left right ihl ihr =>
    obtain ⟨hleft, hright, hname⟩ := hsame a (mem_append_right _ mem_cons_self)
    refine ⟨⟨h.1.1, hname.trans h.1.2⟩, ?_, ?_⟩
    · rw [hleft]
      exact ihl h.2.1 fun b hb => hsame b (mem_append_left _ hb)
    · rw [hright]
      exact ihr h.2.2 fun b hb => hsame b (mem_append_right _ (mem_cons_of_mem a hb))

theorem IsTree.eq_none_iff (h : m.IsTree o t) : o = none ↔ t = .nil := by
  cases t with
  | nil => exact iff_of_true h rfl
  | node a left right =>
    exact iff_of_false (h.1.1 ▸ some_ne_none a.1) (by simp)

/-! ### Search -/

/-- The comparison of a search with a node. -/
def compared (pName : Name) (bIsCaseSensitive : Bool) (a : Pointer × Name) : Ordering :=
  if bIsCaseSensitive then strcmp pName a.2 else STRICMP pName a.2

theorem IsTree.find_eq (h : m.IsTree o t) {turns : Nat} (hturns : (inorder t).length ≤ turns)
    (pName : Name) (bIsCaseSensitive : Bool) :
    m.static_listFindNodeElement pName bIsCaseSensitive turns o =
      some ((search (compared pName bIsCaseSensitive) t).map Prod.fst) := by
  induction t generalizing o turns with
  | nil =>
    obtain rfl : o = none := h
    cases turns <;> rfl
  | node a left right ihl ihr =>
    obtain ⟨⟨rfl, hname⟩, hleft, hright⟩ := h
    rw [inorder_node, length_append, length_cons] at hturns
    obtain ⟨turns, rfl⟩ : ∃ n, turns = n + 1 := Nat.exists_eq_succ_of_ne_zero (by omega)
    have hlturns : (inorder left).length ≤ turns := by omega
    have hrturns : (inorder right).length ≤ turns := by omega
    have hl := ihl hleft hlturns
    have hr := ihr hright hrturns
    simp only [static_listFindNodeElement, hname, bind_eq_bind, bind_some, hl, hr,
      search]
    have hcmp : (if bIsCaseSensitive then strcmp pName a.2 else STRICMP pName a.2) =
        compared pName bIsCaseSensitive a := rfl
    rw [hcmp]
    cases compared pName bIsCaseSensitive a <;> rfl

/-! ### Insertion -/

theorem addRight_threaded (h : Threaded m.pNext m.pPrevious none (l₁ ++ p :: l₂))
    (hnodup : (l₁ ++ p :: l₂).Nodup) (hx : pNode ∉ l₁ ++ p :: l₂) :
    Threaded (m.addRight pNode p).pNext (m.addRight pNode p).pPrevious none
      (l₁ ++ p :: pNode :: l₂) := by
  have hne : ∀ b ∈ l₁ ++ p :: l₂, b ≠ pNode := fun b hb heq => hx (heq ▸ hb)
  have hp := hne p (mem_append_right l₁ mem_cons_self)
  have hnext := h.neighbours.2
  rw [append_cons] at h hnodup hne ⊢
  refine h.insert hnodup ?_ ?_ (fun b hb => ?_) fun b hb => ?_
  · have hhead : l₂.head? ≠ some pNode := fun heq =>
      hne pNode (mem_append_right _ (mem_of_mem_head? heq)) rfl
    simp [addRight, store_apply, hnext, hhead]
  · simp [addRight, hp.symm, hnext]
  · simp [addRight, update_apply, hne b hb, eq_comm]
  · simp [addRight, store_apply, hnext, hne b hb]

theorem addLeft_threaded (h : Threaded m.pNext m.pPrevious none (l₁ ++ p :: l₂))
    (hnodup : (l₁ ++ p :: l₂).Nodup) (hx : pNode ∉ l₁ ++ p :: l₂) :
    Threaded (m.addLeft pNode p).pNext (m.addLeft pNode p).pPrevious none
      (l₁ ++ pNode :: p :: l₂) := by
  have hne : ∀ b ∈ l₁ ++ p :: l₂, b ≠ pNode := fun b hb heq => hx (heq ▸ hb)
  have hp := hne p (mem_append_right l₁ mem_cons_self)
  have hprev : m.pPrevious p = l₁.getLast? := by simpa using h.neighbours.1
  refine h.insert hnodup ?_ ?_ (fun b hb => ?_) fun b hb => ?_
  · simp [addLeft, hp.symm, hprev]
  · have hlast : l₁.getLast? ≠ some pNode := fun heq =>
      hne pNode (mem_append_left _ (mem_of_getLast? heq)) rfl
    simp [addLeft, store_apply, hprev, hlast]
  · simp [addLeft, store_apply, hprev, hne b hb]
  · simp [addLeft, update_apply, hne b hb, eq_comm]

/-- The names and the ends are left alone, and so are the links of the nodes elsewhere. -/
structure Keeps (m m' : LIST) (t : BinaryTree (Pointer × Name)) : Prop where
  names : m'.pName = m.pName
  root : m'.pRoot = m.pRoot
  first : m'.pFirst = m.pFirst
  links : ∀ p ∉ (inorder t).map Prod.fst, m'.pLeft p = m.pLeft p ∧ m'.pRight p = m.pRight p

/-- What an insertion of a node into the tree under `p` makes of a list. -/
inductive Adds (m : LIST) (x : Pointer × Name) (t : BinaryTree (Pointer × Name)) (p : Pointer)
    (pre post : List (Pointer × Name)) : S_RESULT → LIST → Prop
  | added {m' : LIST} (hnew : ∀ a ∈ inorder t, a.2 ≠ x.2)
      (htree : m'.IsTree (some p) (SearchTree.insert Prod.snd x t))
      (hthread : Threaded m'.pNext m'.pPrevious none
        ((pre ++ (inorder (SearchTree.insert Prod.snd x t) ++ post)).map Prod.fst))
      (hkeeps : m.Keeps m' t) : Adds m x t p pre post .S_SUCCESS m'
  | present (hold : ∃ a ∈ inorder t, a.2 = x.2) : Adds m x t p pre post .S_ERROR_ITEM_EXISTS m

/-- The new node is cleared, and not in the list yet. -/
structure Fresh (m : LIST) (x : Pointer × Name) (l : List (Pointer × Name)) : Prop where
  name : m.pName x.1 = some x.2
  left : m.pLeft x.1 = none
  right : m.pRight x.1 = none
  apart : x.1 ∉ l.map Prod.fst

theorem Fresh.mono {l l' : List (Pointer × Name)} (h : m.Fresh x l) (hl : ∀ a ∈ l', a ∈ l) :
    m.Fresh x l' :=
  ⟨h.name, h.left, h.right, fun hmem => h.apart (map_subset Prod.fst hl hmem)⟩

section Node

variable {a : Pointer × Name} {l r sub : BinaryTree (Pointer × Name)}

/-- The pointer of a node is in neither of its subtrees, and these share none. -/
theorem apart_of_nodup (hnodup : ((inorder (.node a l r)).map Prod.fst).Nodup) :
    (∀ b ∈ inorder l, b.1 ≠ a.1) ∧ (∀ b ∈ inorder r, b.1 ≠ a.1) ∧
      ∀ b ∈ inorder l, ∀ c ∈ inorder r, b.1 ≠ c.1 := by
  rw [inorder_node, map_append, map_cons, nodup_append, nodup_cons] at hnodup
  obtain ⟨-, ⟨ha, -⟩, hcross⟩ := hnodup
  refine ⟨fun b hb => ?_, fun b hb heq => ?_, fun b hb c hc => ?_⟩
  · exact hcross b.1 (mem_map_of_mem hb) a.1 mem_cons_self
  · exact ha (heq ▸ mem_map_of_mem hb)
  · exact hcross b.1 (mem_map_of_mem hb) c.1
      (mem_cons_of_mem a.1 (mem_map_of_mem hc))

theorem Keeps.isTree {o' : Option Pointer} (hkeeps : m.Keeps m' t) (h : m.IsTree o' t')
    (hapart : ∀ b ∈ inorder t', ∀ c ∈ inorder t, c.1 ≠ b.1) : m'.IsTree o' t' := by
  refine h.congr fun b hb => ?_
  obtain ⟨hleft, hright⟩ := hkeeps.links b.1 fun hmem => by
    obtain ⟨c, hc, heq⟩ := mem_map.mp hmem
    exact hapart b hb c hc heq
  exact ⟨hleft, hright, congrFun hkeeps.names b.1⟩

theorem Keeps.node (hkeeps : m.Keeps m' t) (hsub : ∀ b ∈ inorder t, b ∈ inorder t') :
    m.Keeps m' t' :=
  ⟨hkeeps.names, hkeeps.root, hkeeps.first, fun q hq =>
    hkeeps.links q fun hmem => hq (map_subset Prod.fst hsub hmem)⟩

/-- A tree in which the left subtree has become another one. -/
theorem IsTree.left (h : m.IsTree (some a.1) (.node a l r))
    (hnodup : ((inorder (.node a l r)).map Prod.fst).Nodup) (hkeeps : m.Keeps m' l)
    (hsub : m'.IsTree (m.pLeft a.1) sub) : m'.IsTree (some a.1) (.node a sub r) := by
  obtain ⟨hl, -, hcross⟩ := apart_of_nodup hnodup
  have hlinks := hkeeps.links a.1 fun hmem => by
    obtain ⟨b, hb, heq⟩ := mem_map.mp hmem
    exact hl b hb heq
  refine ⟨⟨rfl, (congrFun hkeeps.names a.1).trans h.1.2⟩, ?_, ?_⟩
  · rwa [hlinks.1]
  · rw [hlinks.2]
    exact hkeeps.isTree h.2.2 fun b hb c hc => hcross c hc b hb

/-- A tree in which the right subtree has become another one. -/
theorem IsTree.right (h : m.IsTree (some a.1) (.node a l r))
    (hnodup : ((inorder (.node a l r)).map Prod.fst).Nodup) (hkeeps : m.Keeps m' r)
    (hsub : m'.IsTree (m.pRight a.1) sub) : m'.IsTree (some a.1) (.node a l sub) := by
  obtain ⟨-, hr, hcross⟩ := apart_of_nodup hnodup
  have hlinks := hkeeps.links a.1 fun hmem => by
    obtain ⟨b, hb, heq⟩ := mem_map.mp hmem
    exact hr b hb heq
  refine ⟨⟨rfl, (congrFun hkeeps.names a.1).trans h.1.2⟩, ?_, ?_⟩
  · rw [hlinks.1]
    exact hkeeps.isTree h.2.1 fun b hb c hc heq => hcross b hb c hc heq.symm
  · rwa [hlinks.2]

theorem addLeft_isTree (h : m.IsTree (some a.1) (.node a .nil r))
    (hnodup : ((inorder (.node a .nil r)).map Prod.fst).Nodup) (hax : x.1 ≠ a.1)
    (hfresh : m.Fresh x nodes) :
    (m.addLeft x.1 a.1).IsTree (some a.1) (.node a (.node x .nil .nil) r) := by
  obtain ⟨-, hr, -⟩ := apart_of_nodup hnodup
  refine ⟨h.1, ⟨⟨update_self .., hfresh.name⟩, ?_, hfresh.right⟩, ?_⟩
  · exact (update_of_ne hax _ _).trans hfresh.left
  · exact h.2.2.congr fun b hb => ⟨update_of_ne (hr b hb) _ _, rfl, rfl⟩

theorem addRight_isTree (h : m.IsTree (some a.1) (.node a l .nil))
    (hnodup : ((inorder (.node a l .nil)).map Prod.fst).Nodup) (hax : x.1 ≠ a.1)
    (hfresh : m.Fresh x nodes) :
    (m.addRight x.1 a.1).IsTree (some a.1) (.node a l (.node x .nil .nil)) := by
  obtain ⟨hl, -, -⟩ := apart_of_nodup hnodup
  refine ⟨h.1, ?_, ⟨⟨update_self .., hfresh.name⟩, hfresh.left, ?_⟩⟩
  · exact h.2.1.congr fun b hb => ⟨rfl, update_of_ne (hl b hb) _ _, rfl⟩
  · exact (update_of_ne hax _ _).trans hfresh.right

theorem keeps_addLeft (ha : a ∈ inorder t) (q : Pointer) : m.Keeps (m.addLeft q a.1) t := by
  refine ⟨rfl, rfl, rfl, fun p hp => ⟨update_of_ne ?_ _ _, rfl⟩⟩
  rintro rfl
  exact hp (mem_map_of_mem ha)

theorem keeps_addRight (ha : a ∈ inorder t) (q : Pointer) : m.Keeps (m.addRight q a.1) t := by
  refine ⟨rfl, rfl, rfl, fun p hp => ⟨rfl, update_of_ne ?_ _ _⟩⟩
  rintro rfl
  exact hp (mem_map_of_mem ha)

/-- A key that is not in one subtree, below the root, is not in the tree. -/
theorem not_mem_of_lt (hsorted : Sorted Prod.snd (.node a l r)) (hlt : x.2 < a.2)
    (hl : ∀ b ∈ inorder l, b.2 ≠ x.2) : ∀ b ∈ inorder (.node a l r), b.2 ≠ x.2 := by
  intro b hb
  obtain ⟨-, -, hhigh⟩ := sorted_node_iff.mp hsorted
  rcases mem_append.mp hb with hb | hb
  · exact hl b hb
  · rcases mem_cons.mp hb with rfl | hb
    · exact hlt.ne'
    · exact (hlt.trans (hhigh b hb)).ne'

theorem not_mem_of_gt (hsorted : Sorted Prod.snd (.node a l r)) (hgt : a.2 < x.2)
    (hr : ∀ b ∈ inorder r, b.2 ≠ x.2) : ∀ b ∈ inorder (.node a l r), b.2 ≠ x.2 := by
  intro b hb
  obtain ⟨-, hlow, -⟩ := sorted_node_iff.mp hsorted
  rcases mem_append.mp hb with hb | hb
  · exact ((hlow b hb).trans hgt).ne
  · rcases mem_cons.mp hb with rfl | hb
    · exact hgt.ne
    · exact hr b hb

/-- An insertion into the left subtree is one into the tree. -/
theorem Adds.left (h : Adds m x l p pre (a :: inorder r ++ post) res m')
    (htree : m.IsTree (some a.1) (.node a l r)) (hp : m.pLeft a.1 = some p)
    (hsorted : Sorted Prod.snd (.node a l r))
    (hnodup : ((inorder (.node a l r)).map Prod.fst).Nodup) (hlt : x.2 < a.2) :
    Adds m x (.node a l r) a.1 pre post res m' := by
  have hinsert : SearchTree.insert Prod.snd x (.node a l r) =
      .node a (SearchTree.insert Prod.snd x l) r := by
    rw [SearchTree.insert, (cmp_eq_lt_iff x.2 a.2).mpr hlt]
  cases h with
  | added hnew hsub hthread hkeeps =>
    refine .added (not_mem_of_lt hsorted hlt hnew) ?_ ?_
      (hkeeps.node fun b hb => mem_append_left _ hb)
    · rw [hinsert]
      exact htree.left hnodup hkeeps (hp ▸ hsub)
    · rwa [hinsert, inorder_node, append_assoc]
  | present hold =>
    obtain ⟨b, hb, hname⟩ := hold
    exact .present ⟨b, mem_append_left _ hb, hname⟩

/-- An insertion into the right subtree is one into the tree. -/
theorem Adds.right (h : Adds m x r p (pre ++ (inorder l ++ [a])) post res m')
    (htree : m.IsTree (some a.1) (.node a l r)) (hp : m.pRight a.1 = some p)
    (hsorted : Sorted Prod.snd (.node a l r))
    (hnodup : ((inorder (.node a l r)).map Prod.fst).Nodup) (hgt : a.2 < x.2) :
    Adds m x (.node a l r) a.1 pre post res m' := by
  have hinsert : SearchTree.insert Prod.snd x (.node a l r) =
      .node a l (SearchTree.insert Prod.snd x r) := by
    rw [SearchTree.insert, (cmp_eq_gt_iff x.2 a.2).mpr hgt]
  have hmem : ∀ b ∈ inorder r, b ∈ inorder (.node a l r) := fun b hb =>
    mem_append_right _ (mem_cons_of_mem a hb)
  cases h with
  | added hnew hsub hthread hkeeps =>
    refine .added (not_mem_of_gt hsorted hgt hnew) ?_ ?_ (hkeeps.node hmem)
    · rw [hinsert]
      exact htree.right hnodup hkeeps (hp ▸ hsub)
    · rw [hinsert, inorder_node]
      simpa using hthread
  | present hold =>
    obtain ⟨b, hb, hname⟩ := hold
    exact .present ⟨b, hmem b hb, hname⟩

end Node

/-- The new node goes where the tree says, in the memory and in the thread. -/
theorem addNode_spec (htree : m.IsTree (some p) t) (hsorted : Sorted Prod.snd t)
    (hfresh : m.Fresh x (pre ++ (inorder t ++ post)))
    (hnodup : ((pre ++ (inorder t ++ post)).map Prod.fst).Nodup)
    (hthread : Threaded m.pNext m.pPrevious none ((pre ++ (inorder t ++ post)).map Prod.fst))
    {turns : Nat} (hturns : (inorder t).length ≤ turns) :
    ∃ r m', m.static_listSortedAddNode x.1 turns p = some (r, m') ∧ Adds m x t p pre post r m' := by
  induction t generalizing p pre post turns with
  | nil => cases htree
  | node a left right ihl ihr =>
    obtain ⟨⟨hp, hname⟩, hleft, hright⟩ := id htree
    obtain rfl := some.inj hp
    obtain ⟨⟨hsl, hsr⟩, hlow, hhigh⟩ := sorted_node_iff.mp hsorted
    have hinner : ((inorder (.node a left right)).map Prod.fst).Nodup := by
      rw [map_append, map_append] at hnodup
      exact (nodup_append.mp (nodup_append.mp hnodup).2.1).1
    rw [inorder_node, length_append, length_cons] at hturns
    obtain ⟨turns, rfl⟩ : ∃ n, turns = n + 1 := Nat.exists_eq_succ_of_ne_zero (by omega)
    have hlturns : (inorder left).length ≤ turns := by omega
    have hrturns : (inorder right).length ≤ turns := by omega
    have hmem : a ∈ inorder (.node a left right) := by simp
    have hax : x.1 ≠ a.1 := fun heq => hfresh.apart (heq ▸ mem_map_of_mem (by simp))
    simp only [static_listSortedAddNode, hfresh.name, hname, bind_eq_bind, bind_some]
    cases hcmp : strcmp x.2 a.2 with
    | lt =>
      have hlt : x.2 < a.2 := (cmp_eq_lt_iff x.2 a.2).mp hcmp
      cases left with
      | nil =>
        have hl : m.pLeft a.1 = none := hleft
        have hinsert : SearchTree.insert Prod.snd x (.node a .nil right) =
            .node a (.node x .nil .nil) right := by
          rw [SearchTree.insert, (cmp_eq_lt_iff x.2 a.2).mpr hlt, SearchTree.insert]
        rw [hl]
        refine ⟨_, _, rfl,
          .added (not_mem_of_lt hsorted hlt (forall_mem_nil _)) ?_ ?_ (keeps_addLeft hmem x.1)⟩
        · rw [hinsert]
          exact addLeft_isTree htree hinner hax hfresh
        · rw [hinsert]
          have hput : Threaded (m.addLeft x.1 a.1).pNext (m.addLeft x.1 a.1).pPrevious none
              (pre.map Prod.fst ++ x.1 :: a.1 :: (inorder right ++ post).map Prod.fst) :=
            addLeft_threaded (by simpa using hthread) (by simpa using hnodup)
              (by simpa using hfresh.apart)
          simpa using hput
      | node b bl br =>
        have hl : m.pLeft a.1 = some b.1 := hleft.1.1
        rw [hl] at hleft ⊢
        have hnodes : pre ++ (inorder (.node a (.node b bl br) right) ++ post) =
            pre ++ (inorder (.node b bl br) ++ (a :: inorder right ++ post)) := by simp
        rw [hnodes] at hfresh hnodup hthread
        obtain ⟨r, m', heq, hadds⟩ := ihl hleft hsl hfresh hnodup hthread hlturns
        exact ⟨r, m', heq, hadds.left htree hl hsorted hinner hlt⟩
    | eq =>
      exact ⟨_, _, rfl, .present ⟨a, by simp, ((cmp_eq_eq_iff x.2 a.2).mp hcmp).symm⟩⟩
    | gt =>
      have hgt : a.2 < x.2 := (cmp_eq_gt_iff x.2 a.2).mp hcmp
      cases right with
      | nil =>
        have hr : m.pRight a.1 = none := hright
        have hinsert : SearchTree.insert Prod.snd x (.node a left .nil) =
            .node a left (.node x .nil .nil) := by
          rw [SearchTree.insert, (cmp_eq_gt_iff x.2 a.2).mpr hgt, SearchTree.insert]
        rw [hr]
        refine ⟨_, _, rfl,
          .added (not_mem_of_gt hsorted hgt (forall_mem_nil _)) ?_ ?_ (keeps_addRight hmem x.1)⟩
        · rw [hinsert]
          exact addRight_isTree htree hinner hax hfresh
        · rw [hinsert]
          have hput : Threaded (m.addRight x.1 a.1).pNext (m.addRight x.1 a.1).pPrevious none
              ((pre ++ inorder left).map Prod.fst ++ a.1 :: x.1 :: post.map Prod.fst) :=
            addRight_threaded (by simpa using hthread) (by simpa using hnodup)
              (by simpa using hfresh.apart)
          simpa using hput
      | node b bl br =>
        have hr : m.pRight a.1 = some b.1 := hright.1.1
        rw [hr] at hright ⊢
        have hnodes : pre ++ (inorder (.node a left (.node b bl br)) ++ post) =
            pre ++ (inorder left ++ [a]) ++ (inorder (.node b bl br) ++ post) := by simp
        rw [hnodes] at hfresh hnodup hthread
        obtain ⟨r, m', heq, hadds⟩ := ihr hright hsr hfresh hnodup hthread hrturns
        exact ⟨r, m', heq, hadds.right htree hr hsorted hinner hgt⟩

end LIST

end OmapHal.PropertyList
