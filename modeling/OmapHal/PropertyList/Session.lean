import OmapHal.Core.Run
import OmapHal.PropertyList.Insertion

/-!
# Runs on a list of properties

Nodes are added to an empty list, one after the other. What a list should hold is told by the names
that went in.
-/

namespace OmapHal.PropertyList

open OmapHal.Core Function List Option
open OmapHal.Core.SearchTree (inorder search Sorted Above build)

variable {m : LIST} {l : List (Pointer × Name)} {x : Pointer × Name}

/-- The list, with the nodes that went in. -/
structure PropSession where
  pList : LIST
  inserted : List (Pointer × Name)

/-- A new node for the list. -/
structure NewNode where
  pNode : Pointer
  pName : Option Name

namespace PropSession

/-- The addition of a new node to the list. -/
def add (σ : PropSession) (new : NewNode) : Option (S_RESULT × LIST) :=
  (σ.pList.newNode new.pNode new.pName).SMCPropListSortedAdd σ.inserted.length new.pNode

def find (σ : PropSession) (pName : Name) (bIsCaseSensitive : Bool) : Option (Option Pointer) :=
  σ.pList.SMCPropListFindElement σ.inserted.length pName bIsCaseSensitive

def step (σ : PropSession) (new : NewNode) : Option PropSession := do
  let (nResult, pList) ← σ.add new
  match new.pName, nResult with
  | some pName, .S_SUCCESS => some ⟨pList, σ.inserted ++ [(new.pNode, pName)]⟩
  | _, _ => some ⟨pList, σ.inserted⟩

/-- A new node is none of those in the list. -/
def Possible (σ : PropSession) (new : NewNode) : Prop := new.pNode ∉ σ.inserted.map Prod.fst

/-- A name equals another one ignoring case. -/
def Matches (pName : Name) (a : Pointer × Name) : Prop := lowered a.2 = lowered pName

/-- The tree in order and the thread are the same nodes, with rising names, and a search finds the
name or one that matches it. -/
structure Right (σ : PropSession) (pName : Name) : Prop where
  ordered : ∃ t, σ.pList.IsTree σ.pList.pRoot t ∧ Sorted Prod.snd t ∧
    (inorder t).Perm σ.inserted ∧ σ.pList.pFirst = ((inorder t).map Prod.fst).head? ∧
      Threaded σ.pList.pNext σ.pList.pPrevious none ((inorder t).map Prod.fst)
  sensitive : ∃ found, σ.find pName true = some found ∧
    ∀ p, found = some p ↔ (p, pName) ∈ σ.inserted
  insensitive : ∃ found, σ.find pName false = some found ∧
    (found ≠ none ↔ ∃ a ∈ σ.inserted, Matches pName a) ∧
      ∀ p, found = some p → ∃ a ∈ σ.inserted, a.1 = p ∧ Matches pName a

/-- A name that is there is reported, and then nothing changes. -/
def Serves (σ : PropSession) (new : NewNode) : Prop :=
  ∃ nResult pList, σ.add new = some (nResult, pList) ∧
    (nResult = .S_ERROR_ITEM_EXISTS ↔ ∃ a ∈ σ.inserted, new.pName = some a.2) ∧
      (nResult = .S_ERROR_BAD_PARAMETERS ↔ new.pName = none) ∧
        (nResult ≠ .S_SUCCESS → pList = σ.pList.newNode new.pNode new.pName)

/-- If a name of the list matches, one that does stands to the names above it in the tree as the
key does ignoring case. -/
def Alike (inserted : List (Pointer × Name)) (pName : Name) : Prop :=
  (∃ a ∈ inserted, Matches pName a) → ∃ a ∈ inserted, Matches pName a ∧
    ∀ b, Above Prod.snd inserted b a → STRICMP pName b.2 = strcmp a.2 b.2

/-! ### The invariant -/

variable {σ τ : PropSession} {new : NewNode} {pName : Name}

/-- The list in memory is the tree of the nodes that went in. -/
structure Inv (σ : PropSession) : Prop where
  tree : σ.pList.IsTree σ.pList.pRoot (build Prod.snd σ.inserted)
  names : σ.inserted.Pairwise fun a b => a.2 ≠ b.2
  nodup : (σ.inserted.map Prod.fst).Nodup
  first : σ.pList.pFirst = ((inorder (build Prod.snd σ.inserted)).map Prod.fst).head?
  thread : Threaded σ.pList.pNext σ.pList.pPrevious none
    ((inorder (build Prod.snd σ.inserted)).map Prod.fst)

theorem Inv.find_eq (h : σ.Inv) (pName : Name) (bIsCaseSensitive : Bool) :
    σ.find pName bIsCaseSensitive = some ((search (LIST.compared pName bIsCaseSensitive)
      (build Prod.snd σ.inserted)).map Prod.fst) := by
  have hfind := h.tree.find_eq (SearchTree.build_spec h.names).2.length_eq.le pName bIsCaseSensitive
  rw [find, LIST.SMCPropListFindElement, ← hfind]
  split
  · next hroot => rw [hroot]; cases σ.inserted.length <;> rfl
  · rfl

theorem matches_iff {a : Pointer × Name} : LIST.compared pName false a = .eq ↔ Matches pName a := by
  rw [LIST.compared, if_neg Bool.false_ne_true, STRICMP, cmp_eq_eq_iff, Matches, eq_comm]

theorem Inv.sensitive (h : σ.Inv) (pName : Name) : ∃ found, σ.find pName true = some found ∧
    ∀ p, found = some p ↔ (p, pName) ∈ σ.inserted := by
  obtain ⟨hsorted, hperm⟩ := SearchTree.build_spec h.names
  refine ⟨_, h.find_eq pName true, fun p => ?_⟩
  have hcompared : LIST.compared pName true = fun a => cmp pName a.2 := rfl
  rw [hcompared, map_eq_some_iff]
  constructor
  · rintro ⟨a, ha, rfl⟩
    obtain ⟨hmem, rfl⟩ := (SearchTree.search_eq_some_iff hsorted).mp ha
    exact hperm.mem_iff.mp hmem
  · intro hmem
    exact ⟨(p, pName), (SearchTree.search_eq_some_iff hsorted).mpr
      ⟨hperm.mem_iff.mpr hmem, rfl⟩, rfl⟩

theorem Inv.right_iff (h : σ.Inv) (pName : Name) : σ.Right pName ↔ Alike σ.inserted pName := by
  obtain ⟨hsorted, hperm⟩ := SearchTree.build_spec h.names
  have hfind := h.find_eq pName false
  have hfound : search (LIST.compared pName false) (build Prod.snd σ.inserted) ≠ none ↔ _ :=
    SearchTree.search_build_ne_none_iff h.names
  have hmatch : ∀ a, search (LIST.compared pName false) (build Prod.snd σ.inserted) = some a →
      a ∈ σ.inserted ∧ Matches pName a := fun a ha => by
    obtain ⟨hmem, heq⟩ := SearchTree.of_search ha
    exact ⟨hperm.mem_iff.mp hmem, matches_iff.mp heq⟩
  have halike : Alike σ.inserted pName ↔ ((∃ a ∈ σ.inserted, Matches pName a) →
      search (LIST.compared pName false) (build Prod.snd σ.inserted) ≠ none) := by
    rw [hfound, Alike]
    simp only [matches_iff]
    rfl
  rw [halike]
  constructor
  · rintro ⟨-, -, found, heq, hiff, -⟩ hexists
    obtain rfl := some.inj (heq.symm.trans hfind)
    exact fun hnone => hiff.mpr hexists (by rw [hnone]; rfl)
  · intro hsome
    refine ⟨⟨_, h.tree, hsorted, hperm, h.first, h.thread⟩, h.sensitive pName, _, hfind, ?_, ?_⟩
    · constructor
      · intro hne
        obtain ⟨a, ha⟩ := ne_none_iff_exists'.mp
          (mt (congrArg (Option.map Prod.fst)) hne)
        exact ⟨a, hmatch a ha⟩
      · intro hexists hnone
        exact hsome hexists (map_eq_none_iff.mp hnone)
    · intro p hp
      obtain ⟨a, ha, rfl⟩ := map_eq_some_iff.mp hp
      exact ⟨a, (hmatch a ha).1, rfl, (hmatch a ha).2⟩

/-- The new node is none of the list, which stands as before. -/
theorem Inv.newNode (h : σ.Inv) (hpossible : σ.Possible new) :
    Inv ⟨σ.pList.newNode new.pNode new.pName, σ.inserted⟩ := by
  have hperm := (SearchTree.build_spec h.names).2
  have hne : ∀ a ∈ inorder (build Prod.snd σ.inserted), a.1 ≠ new.pNode := fun a ha heq =>
    hpossible (heq ▸ mem_map_of_mem (hperm.mem_iff.mp ha))
  refine ⟨h.tree.congr fun a ha => ?_, h.names, h.nodup, h.first, h.thread.congr fun p hp => ?_⟩
  · exact ⟨update_of_ne (hne a ha) _ _, update_of_ne (hne a ha) _ _, update_of_ne (hne a ha) _ _⟩
  · obtain ⟨a, ha, rfl⟩ := mem_map.mp hp
    exact ⟨update_of_ne (hne a ha) _ _, update_of_ne (hne a ha) _ _⟩

theorem fresh_newNode {p : Pointer}
    (hp : p ∉ l.map Prod.fst) : (m.newNode p (some pName)).Fresh (p, pName) l :=
  ⟨update_self .., update_self .., update_self .., hp⟩

/-- The first node goes in. -/
theorem inv_first {p : Pointer} (hfresh : m.Fresh (p, pName) [])
    (hnext : m.pNext p = none) (hprev : m.pPrevious p = none) :
    Inv ⟨{ m with pRoot := some p, pFirst := some p }, [(p, pName)]⟩ :=
  ⟨⟨⟨rfl, hfresh.name⟩, hfresh.left, hfresh.right⟩, pairwise_singleton .., by simp, rfl,
    ⟨hprev, hnext⟩, trivial⟩

/-- The first node of the thread is the new one exactly if nothing is before it. -/
theorem first_of_insert {t : BinaryTree (Pointer × Name)}
    (hsorted : Sorted Prod.snd t) (hnew : ∀ a ∈ inorder t, a.2 ≠ x.2)
    (hthread : Threaded m.pNext m.pPrevious none
      ((inorder (SearchTree.insert Prod.snd x t)).map Prod.fst)) :
    ((inorder (SearchTree.insert Prod.snd x t)).map Prod.fst).head? =
      if m.pPrevious x.1 = none then some x.1 else ((inorder t).map Prod.fst).head? := by
  obtain ⟨l₁, l₂, hl, hl', -⟩ := SearchTree.exists_inorder_insert hsorted hnew
  rw [hl', map_append, map_cons] at hthread
  rw [hl', hl, hthread.neighbours.1]
  cases l₁ with
  | nil => rfl
  | cons a l₁ => simp [getLast?_cons]

/-- A node goes in behind the first one, or its name is there. -/
theorem add_spec {root : Pointer}
    (h : Inv ⟨m, l⟩) (hroot : m.pRoot = some root) (hfresh : m.Fresh x l) :
    ∃ nResult m', m.SMCPropListSortedAdd l.length x.1 = some (nResult, m') ∧
      ((nResult = .S_ERROR_ITEM_EXISTS ∧ m' = m ∧ ∃ a ∈ l, a.2 = x.2) ∨
        (nResult = .S_SUCCESS ∧ (∀ a ∈ l, a.2 ≠ x.2) ∧ Inv ⟨m', l ++ [x]⟩)) := by
  obtain ⟨hsorted, hperm⟩ := SearchTree.build_spec h.names
  have hnodes : [] ++ (inorder (build Prod.snd l) ++ []) = inorder (build Prod.snd l) := by simp
  have htree := h.tree
  have hnodup := (hperm.map Prod.fst).nodup_iff.mpr h.nodup
  have hthread := h.thread
  rw [hroot] at htree
  rw [← hnodes] at hthread hnodup
  obtain ⟨nResult, m', heq, hadds⟩ := LIST.addNode_spec htree hsorted
    (hfresh.mono fun a ha => hperm.mem_iff.mp (by rwa [hnodes] at ha)) hnodup hthread
    hperm.length_eq.le
  rw [LIST.SMCPropListSortedAdd, hfresh.name]
  simp only [hroot, heq, bind_eq_bind, bind_some]
  cases hadds with
  | present hold =>
    obtain ⟨a, ha, hname⟩ := hold
    exact ⟨_, _, rfl, .inl ⟨rfl, rfl, a, hperm.mem_iff.mp ha, hname⟩⟩
  | added hnew htree' hthread' hkeeps =>
    rw [nil_append, append_nil] at hthread'
    have hfirst := first_of_insert hsorted hnew hthread'
    rw [← hkeeps.root.trans hroot] at htree'
    have hnew' : ∀ a ∈ l, a.2 ≠ x.2 := fun a ha => hnew a (hperm.mem_iff.mpr ha)
    have hnames : (l ++ [x]).Pairwise fun a b => a.2 ≠ b.2 := by
      refine pairwise_append.mpr ⟨h.names, pairwise_singleton .., fun a ha b hb => ?_⟩
      rw [mem_singleton.mp hb]
      exact hnew' a ha
    have hdistinct : ((l ++ [x]).map Prod.fst).Nodup := by
      rw [map_append, nodup_append]
      refine ⟨h.nodup, pairwise_singleton .., fun p hp q hq heq => ?_⟩
      rw [map_singleton, mem_singleton] at hq
      exact hfresh.apart (hq ▸ heq ▸ hp)
    by_cases hprev : m'.pPrevious x.1 = none
    · rw [if_pos ⟨rfl, hprev⟩]
      rw [if_pos hprev] at hfirst
      refine ⟨_, _, rfl, .inr ⟨rfl, hnew', ?_, hnames, hdistinct, ?_, ?_⟩⟩
      · rw [SearchTree.build_concat]
        exact htree'.congr fun a ha => ⟨rfl, rfl, rfl⟩
      · rw [SearchTree.build_concat]
        exact hfirst.symm
      · rwa [SearchTree.build_concat]
    · rw [if_neg fun hboth => hprev hboth.2]
      rw [if_neg hprev] at hfirst
      refine ⟨_, _, rfl, .inr ⟨rfl, hnew', ?_, hnames, hdistinct, ?_, ?_⟩⟩
      · rwa [SearchTree.build_concat]
      · rw [SearchTree.build_concat]
        exact (hkeeps.first.trans h.first).trans hfirst.symm
      · rwa [SearchTree.build_concat]

theorem inv_step (h : σ.Inv) (hpossible : σ.Possible new) :
    σ.Serves new ∧ ∃ τ, σ.step new = some τ ∧ τ.Inv := by
  have hnew := h.newNode hpossible
  have hself : (σ.pList.newNode new.pNode new.pName).pName new.pNode = new.pName :=
    update_self ..
  cases hname : new.pName with
  | none =>
    have hadd : σ.add new =
        some (.S_ERROR_BAD_PARAMETERS, σ.pList.newNode new.pNode new.pName) := by
      rw [add, LIST.SMCPropListSortedAdd, hself, hname]
    refine ⟨⟨_, _, hadd, ?_, ?_, fun _ => rfl⟩, _, ?_, hnew⟩
    · simp [hname]
    · simp [hname]
    · simp only [step, hadd, bind_eq_bind, bind_some, hname]
  | some pName =>
    rw [hname] at hnew hself
    have hfresh : (σ.pList.newNode new.pNode (some pName)).Fresh (new.pNode, pName) σ.inserted :=
      fresh_newNode hpossible
    cases hroot : σ.pList.pRoot with
    | none =>
      have hempty : σ.inserted = [] := by
        have htree := h.tree.eq_none_iff.mp hroot
        have hperm := (SearchTree.build_spec h.names).2
        rw [htree] at hperm
        exact hperm.nil_eq.symm
      have hadd : σ.add new = some (.S_SUCCESS, { σ.pList.newNode new.pNode (some pName) with
          pRoot := some new.pNode, pFirst := some new.pNode }) := by
        rw [add, LIST.SMCPropListSortedAdd, hname, hself]
        dsimp only [LIST.newNode]
        rw [hroot]
      rw [hempty] at hfresh
      refine ⟨⟨_, _, hadd, ?_, ?_, fun hne => absurd rfl hne⟩, _, ?_, inv_first hfresh
        (update_self ..) (update_self ..)⟩
      · simp [hempty]
      · simp [hname]
      · simp only [step, hadd, bind_eq_bind, bind_some, hname, hempty,
          nil_append]
    | some root =>
      obtain ⟨nResult, m', heq, hresult⟩ := add_spec hnew hroot hfresh
      have hadd : σ.add new = some (nResult, m') := by rwa [add, hname]
      rcases hresult with ⟨rfl, rfl, a, ha, hold⟩ | ⟨rfl, hnone, hinv⟩
      · refine ⟨⟨_, _, hadd, ?_, ?_, fun _ => by rw [hname]⟩, _, ?_, hnew⟩
        · exact iff_of_true rfl ⟨a, ha, by rw [hname, hold]⟩
        · simp [hname]
        · simp only [step, hadd, bind_eq_bind, bind_some, hname]
      · refine ⟨⟨_, _, hadd, ?_, ?_, fun hne => absurd rfl hne⟩, _, ?_, hinv⟩
        · refine iff_of_false (by simp) ?_
          rintro ⟨a, ha, hsame⟩
          exact hnone a ha (some.inj (hname.symm.trans hsame)).symm
        · simp [hname]
        · simp only [step, hadd, bind_eq_bind, bind_some, hname]

end PropSession

/-- After every run of additions to an empty list, the list is right for a name exactly if a
matching name of it, if there is one, stands alike to those above it. -/
theorem right_iff_alike (pList : LIST) (events : List NewNode)
    (hroot : pList.pRoot = none) (hfirst : pList.pFirst = none)
    (hpossible : AlongSome PropSession.step PropSession.Possible ⟨pList, []⟩ events) :
    AlongSome PropSession.step PropSession.Serves ⟨pList, []⟩ events ∧
      ∃ σ, events.foldlM PropSession.step ⟨pList, []⟩ = some σ ∧
        ∀ pName, σ.Right pName ↔ PropSession.Alike σ.inserted pName := by
  have hinv : PropSession.Inv ⟨pList, []⟩ := ⟨hroot, .nil, .nil, hfirst, trivial⟩
  constructor
  · refine AlongSome.mono_invariant (I := PropSession.Inv) hpossible hpossible hinv ?_ ?_
    · intro σ new h hp _
      exact (PropSession.inv_step h hp).1
    · intro σ new τ h hp _ hτ
      obtain ⟨τ', hτ', hinv'⟩ := (PropSession.inv_step h hp).2
      obtain rfl := some.inj (hτ'.symm.trans hτ)
      exact hinv'
  · obtain ⟨σ, hσ, h⟩ := AlongSome.exists_foldlM hpossible hinv fun σ new h hp =>
      (PropSession.inv_step h hp).2
    exact ⟨σ, hσ, h.right_iff⟩

/-- A list without nodes. -/
def emptyList : LIST := ⟨none, none, fun _ => none, fun _ => none, fun _ => none, fun _ => none,
  fun _ => none⟩

attribute [local instance] neZeroByte

/-- A name in lower case, then one with an upper-case letter that goes to its left. -/
def mixedCase : List NewNode := [⟨10, some [98]⟩, ⟨20, some [67]⟩]

theorem mixedCase_possible :
    AlongSome PropSession.step PropSession.Possible ⟨emptyList, []⟩ mixedCase := by
  refine ⟨not_mem_nil, fun τ hτ => ?_⟩
  obtain rfl := some.inj hτ
  exact ⟨show 20 ∉ [10] by simp, fun τ _ => trivial⟩

theorem right_iff_alike_mixedCase :
    AlongSome PropSession.step PropSession.Serves ⟨emptyList, []⟩ mixedCase ∧
      ∃ σ, mixedCase.foldlM PropSession.step ⟨emptyList, []⟩ = some σ ∧
        ∀ pName, σ.Right pName ↔ PropSession.Alike σ.inserted pName :=
  right_iff_alike _ _ rfl rfl mixedCase_possible

/-- The search for the second name in lower case goes to the right of the first one. -/
theorem mixedCase_not_right : ∃ σ, mixedCase.foldlM PropSession.step ⟨emptyList, []⟩ = some σ ∧
    ¬ σ.Right [99] := by
  refine ⟨_, rfl, ?_⟩
  rintro ⟨-, -, found, heq, hiff, -⟩
  change some none = some found at heq
  have hmatch : PropSession.Matches [99] (20, [67]) := rfl
  exact hiff.mpr ⟨(20, [67]), mem_cons_of_mem _ (mem_singleton_self _), hmatch⟩
    (some.inj heq).symm

end OmapHal.PropertyList
