import OmapHal.Core.Run
import OmapHal.OmxCore.Model
import Mathlib.Data.List.Nodup
import Mathlib.Data.List.Perm.Basic

/-!
# The tables agree

Over any sequence of calls the two arrays and the component table of the core name exactly the
handles that its clients own. This is so as long as an instance is freed that is one of the last
two of its component, and `TIOMX_GetHandle` does not give back a handle that it was not asked to
make.
-/

namespace OmapHal.OmxCore

open Function List Option

open OmapHal.Core (AlongSome)

variable {s t : State} {i : Nat} {p : Ptr}

/-- The handles in the component table. -/
def State.handles (s : State) : List Ptr := s.componentTable.flatMap ComponentTable.handles

/-- The tables name exactly the live handles, each once. -/
structure State.Consistent (s : State) : Prop where
  slots : ∀ i < MAXCOMP, s.pModules i ≠ 0 ↔ s.pComponents i ∈ s.live
  once : ∀ h ∈ s.live, s.handles.count h = 1
  entries : ∀ h ∈ s.handles, h ∈ s.live
  bounded : ∀ entry ∈ s.componentTable, entry.refCount ≤ entry.maxinstances

/-- A call is defined and leaves the tables consistent. A live handle whose component can be
deinitialised is freed, and all others stay. -/
def State.Keeps (s : State) (call : Call) : Prop :=
  ∃ err t, s.call call = some (err, t) ∧ t.Consistent ∧
    ∀ h, call = .free h .OMX_ErrorNone → h ∈ s.live →
      err = .OMX_ErrorNone ∧ ∀ other, other ∈ t.live ↔ other ∈ s.live ∧ other ≠ h

/-- Memory that is handed out is not in use. -/
def State.Fresh (s : State) : Call → Prop
  | .get _ attempts => ∀ refIndex, (attempts refIndex).malloc ∉ s.live
  | .free _ _ => True

/-- The component table as `TIOMX_BuildComponentTable` leaves it. -/
structure Built (table : List ComponentTable) : Prop where
  names : (table.map (·.name)).Nodup
  empty : ∀ entry ∈ table, entry.refCount = 0 ∧
    entry.pHandle = List.replicate MAX_CONCURRENT_INSTANCES 0
  instances : ∀ entry ∈ table, entry.maxinstances ≤ MAX_CONCURRENT_INSTANCES

def State.start (table : List ComponentTable) : State where
  pModules _ := 0
  pComponents _ := 0
  componentTable := table
  live := []

/-- What the search of `TIOMX_GetHandle` needs, with the value behind `pHandle`: it does not come
to a place without a name, and nothing that the clients own is behind `pHandle` when the search
fails before it has put a new handle there. -/
def State.SearchSafe (s : State) (cComponentName : List UInt8) (attempts : Nat → Attempt)
    (pHandle : Ptr) : Prop :=
  match s.componentTable.findIdx? fun entry => entry.name = cComponentName with
  | none => MAX_TABLE_SIZE ≤ s.componentTable.length ∧ pHandle ∉ s.live
  | some refIndex =>
    ∀ entry, s.componentTable[refIndex]? = some entry → entry.refCount < entry.maxinstances →
      (attempts refIndex).dlopen ≠ 0 →
      ((attempts refIndex).dlsym = false → pHandle ∉ s.live) ∧
        ((attempts refIndex).dlsym = true → (attempts refIndex).malloc ≠ 0 →
          (attempts refIndex).OMX_ComponentInit = .OMX_ErrorNone ∨
            (attempts refIndex).OMX_ComponentInit = .OMX_ErrorInsufficientResources ∨
            MAX_TABLE_SIZE ≤ s.componentTable.length)

/-- The condition on each call. `NULL` is not freed while a slot is free, and a handle that is
freed is one of the last two of its component. -/
def State.Careful (s : State) : Call → Prop
  | .get args attempts =>
    ∀ cComponentName pHandle, args = ⟨some cComponentName, some pHandle, true⟩ →
      cComponentName.length < MAXNAMESIZE → s.freeSlot ≠ none →
        s.SearchSafe cComponentName attempts pHandle
  | .free hComponent ComponentDeInit =>
    (hComponent = 0 → s.slotOf 0 = none) ∧
      (ComponentDeInit = .OMX_ErrorNone → ∀ entry ∈ s.componentTable, ∀ handleIndex,
        entry.handles[handleIndex]? = some hComponent → entry.refCount ≤ handleIndex + 2)

/-- An entry of the table in good order: the places behind the instances are empty. -/
structure ComponentTable.Tidy (entry : ComponentTable) : Prop where
  length : entry.pHandle.length = MAX_CONCURRENT_INSTANCES
  bounded : entry.refCount ≤ entry.maxinstances
  instances : entry.maxinstances ≤ MAX_CONCURRENT_INSTANCES
  empty : entry.pHandle.drop entry.refCount =
    List.replicate (MAX_CONCURRENT_INSTANCES - entry.refCount) 0

/-- The state that careful calls keep: each live handle has one slot and one place in the table. -/
structure State.Tidy (s : State) : Prop where
  nodup : s.live.Nodup
  nonzero : 0 ∉ s.live
  slot : ∀ i < MAXCOMP, (s.pModules i = 0 ∧ s.pComponents i = 0) ∨
    (s.pModules i ≠ 0 ∧ s.pComponents i ∈ s.live)
  placed : ∀ h ∈ s.live, ∃ i < MAXCOMP, s.pComponents i = h
  alone : ∀ i < MAXCOMP, ∀ k < MAXCOMP, s.pComponents i = s.pComponents k →
    s.pComponents i ∈ s.live → i = k
  perm : s.handles.Perm s.live
  names : (s.componentTable.map (·.name)).Nodup
  entry : ∀ entry ∈ s.componentTable, entry.Tidy

theorem State.Tidy.consistent (h : s.Tidy) : s.Consistent where
  slots i hi := by
    rcases h.slot i hi with ⟨hmodule, hcomponent⟩ | ⟨hmodule, hcomponent⟩
    · rw [hmodule, hcomponent]
      exact iff_of_false (fun hne => hne rfl) h.nonzero
    · exact iff_of_true hmodule hcomponent
  once g hg := by
    rw [h.perm.count_eq]
    exact count_eq_one_of_mem h.nodup hg
  entries g hg := h.perm.subset hg
  bounded entry hentry := (h.entry entry hentry).bounded

theorem State.Tidy.start {table : List ComponentTable} (h : Built table) :
    (State.start table).Tidy where
  nodup := nodup_nil
  nonzero := not_mem_nil
  slot _ _ := .inl ⟨rfl, rfl⟩
  placed _ hg := nomatch hg
  alone _ _ _ _ _ hlive := nomatch hlive
  perm := by
    have hnil : (State.start table).handles = [] := by
      refine flatMap_eq_nil_iff.mpr fun entry hentry => ?_
      rw [ComponentTable.handles, (h.empty entry hentry).1, take_zero]
    rw [hnil]
    exact Perm.nil
  names := h.names
  entry entry hentry := by
    obtain ⟨hcount, hempty⟩ := h.empty entry hentry
    refine ⟨by rw [hempty, length_replicate], by omega, h.instances entry hentry, ?_⟩
    rw [hcount, hempty]
    rfl

section GetHandle

variable {cComponentName : List UInt8} {attempts : Nat → Attempt} {attempt : Attempt}
  {entry : ComponentTable} {front back : List ComponentTable} {refIndex : Nat}

/-- What is undone at `CLEAN_UP`, where the slot was free before. -/
theorem cleanUp_eq (hmodules : update t.pModules i 0 = s.pModules)
    (hcomponents : update t.pComponents i 0 = s.pComponents)
    (htable : t.componentTable = s.componentTable) (hlive : t.live = s.live) :
    t.cleanUp i p = if p ≠ 0 then s.free p else s := by
  unfold State.cleanUp
  split <;> simp only [State.setModule, State.setComponent, State.free, hmodules, hcomponents,
    htable, hlive]

theorem update_zero {f : Nat → Ptr} (h : f i = 0) : update f i 0 = f := by
  rw [← h, update_eq_self]

/-- A pointer that is no handle is freed without a trace. -/
theorem free_of_not_live (h : p ∉ s.live) : s.free p = s := by
  unfold State.free
  rw [erase_of_not_mem h]

theorem ite_free_of_not_live (h : p ∉ s.live) : (if p ≠ 0 then s.free p else s) = s := by
  split
  · exact free_of_not_live h
  · rfl

/-- A live handle that is freed behind the back of the tables. -/
theorem State.Tidy.not_consistent_free (h : s.Tidy) (hp : p ∈ s.live) :
    ¬(if p ≠ 0 then s.free p else s).Consistent := by
  have hne : p ≠ 0 := fun hzero => h.nonzero (hzero ▸ hp)
  rw [if_pos hne]
  intro hc
  obtain ⟨i, hi, rfl⟩ := h.placed p hp
  rcases h.slot i hi with ⟨-, hzero⟩ | ⟨hmodule, -⟩
  · exact hne hzero
  · have hmem := (hc.slots i hi).mp hmodule
    exact h.nodup.not_mem_erase hmem

/-- The search, past entries with other names. -/
theorem search_front (hfront : ∀ entry ∈ front, entry.name ≠ cComponentName) (refIndex : Nat) :
    s.search cComponentName attempts i refIndex (front ++ back) p =
      s.search cComponentName attempts i (refIndex + front.length) back p := by
  induction front generalizing refIndex with
  | nil => rfl
  | cons entry front ih =>
    rw [cons_append, State.search, if_neg (hfront entry mem_cons_self),
      ih (fun other hother => hfront other (mem_cons_of_mem entry hother)), length_cons]
    congr 1
    omega

/-- The search through entries that all have other names. -/
theorem search_none {table : List ComponentTable}
    (htable : ∀ entry ∈ table, entry.name ≠ cComponentName) (refIndex : Nat) :
    s.search cComponentName attempts i refIndex table p =
      if refIndex + table.length < MAX_TABLE_SIZE then none
      else some (.OMX_ErrorComponentNotFound, s.cleanUp i p) := by
  have hsearch : s.search cComponentName attempts i refIndex (table ++ []) p =
      s.search cComponentName attempts i (refIndex + table.length) [] p :=
    search_front htable refIndex
  rw [append_nil] at hsearch
  rw [hsearch, State.search]

/-- The entry with the name that is searched for, and its surroundings. -/
theorem split_of_findIdx {table : List ComponentTable} (hnames : (table.map (·.name)).Nodup)
    (hfind : table.findIdx? (fun entry => entry.name = cComponentName) = some refIndex) :
    ∃ front entry back, table = front ++ entry :: back ∧ front.length = refIndex ∧
      entry.name = cComponentName ∧ (∀ other ∈ front, other.name ≠ cComponentName) ∧
      ∀ other ∈ back, other.name ≠ cComponentName := by
  obtain ⟨hlt, hname, hbefore⟩ := findIdx?_eq_some_iff_getElem.mp hfind
  have hsplit : table = table.take refIndex ++ table[refIndex] :: table.drop (refIndex + 1) := by
    rw [← drop_eq_getElem_cons hlt, take_append_drop]
  have hname : table[refIndex].name = cComponentName := of_decide_eq_true hname
  refine ⟨table.take refIndex, table[refIndex], table.drop (refIndex + 1), hsplit, ?_,
    hname, ?_, ?_⟩
  · rw [length_take]
    omega
  · intro other hother
    obtain ⟨k, hk, rfl⟩ := mem_iff_getElem.mp hother
    rw [length_take] at hk
    rw [getElem_take]
    simpa using hbefore k (by omega)
  · intro other hother heq
    rw [hsplit, map_append, map_cons] at hnames
    have hcons := (nodup_append.mp hnames).2.1
    refine (nodup_cons.mp hcons).1 ?_
    rw [hname, ← heq]
    exact mem_map_of_mem hother

/-- One more instance of an entry. -/
theorem ComponentTable.Tidy.add (h : entry.Tidy) (hroom : entry.refCount < entry.maxinstances)
    (p : Ptr) :
    (entry.add p).Tidy ∧ (entry.add p).handles = entry.handles ++ [p] := by
  have hlt : entry.refCount < entry.pHandle.length := by
    rw [h.length]
    exact Nat.lt_of_lt_of_le hroom h.instances
  refine ⟨⟨?_, hroom, h.instances, ?_⟩, ?_⟩
  · rw [← h.length]
    exact length_set ..
  · show (entry.pHandle.set entry.refCount p).drop (entry.refCount + 1) =
      replicate (MAX_CONCURRENT_INSTANCES - (entry.refCount + 1)) 0
    rw [drop_set_of_lt (Nat.lt_succ_self _), Nat.succ_eq_add_one, ← drop_drop, h.empty,
      drop_replicate, Nat.sub_sub]
  · show (entry.pHandle.set entry.refCount p).take (entry.refCount + 1) = _
    rw [take_add_one, take_set_of_le (Nat.le_refl _), getElem?_set_self hlt]
    rfl

/-- A new handle in a free slot. -/
theorem State.Tidy.add (h : s.Tidy) (hi : i < MAXCOMP) (hmodule : s.pModules i = 0)
    (hcomponent : s.pComponents i = 0) (hsplit : s.componentTable = front ++ entry :: back)
    (hroom : entry.refCount < entry.maxinstances) {module : Ptr} (hloaded : module ≠ 0) (hp : p ≠ 0)
    (hnew : p ∉ s.live) :
    State.Tidy
      { ((s.setModule i module).setComponent i p) with
        componentTable := front ++ entry.add p :: back
        live := p :: s.live } := by
  have hentry : entry.Tidy := h.entry entry (hsplit ▸ mem_append_right _ mem_cons_self)
  obtain ⟨hadded, hhandles⟩ := hentry.add hroom p
  have hother : ∀ k, k ≠ i → update s.pComponents i p k = s.pComponents k := fun k hk =>
    update_of_ne hk ..
  refine ⟨nodup_cons.mpr ⟨hnew, h.nodup⟩, ?_, fun k hk => ?_, fun g hg => ?_,
    fun j hj k hk heq hlive => ?_, ?_, ?_, fun other hmem => ?_⟩
  · exact fun hmem => (mem_cons.mp hmem).elim (fun hzero => hp hzero.symm) h.nonzero
  · by_cases hki : k = i
    · subst hki
      refine .inr ⟨?_, ?_⟩
      · show update s.pModules k module k ≠ 0
        rw [update_self]
        exact hloaded
      · show update s.pComponents k p k ∈ _
        rw [update_self]
        exact mem_cons_self
    · show (update s.pModules i module k = 0 ∧ update s.pComponents i p k = 0) ∨
        (update s.pModules i module k ≠ 0 ∧ update s.pComponents i p k ∈ _)
      rw [update_of_ne hki, hother k hki]
      exact (h.slot k hk).imp_right fun hused => ⟨hused.1, mem_cons_of_mem p hused.2⟩
  · rcases mem_cons.mp hg with rfl | hg
    · exact ⟨i, hi, update_self ..⟩
    · obtain ⟨k, hk, hplace⟩ := h.placed g hg
      have hki : k ≠ i := fun heq => h.nonzero (hcomponent ▸ heq ▸ hplace ▸ hg)
      exact ⟨k, hk, (hother k hki).trans hplace⟩
  · have hone : ∀ k < MAXCOMP, k ≠ i → s.pComponents k ≠ p := by
      intro k hk hki heq
      rcases h.slot k hk with ⟨-, hzero⟩ | ⟨-, hmem⟩
      · exact hp (heq.symm.trans hzero)
      · exact hnew (heq ▸ hmem)
    have heq : update s.pComponents i p j = update s.pComponents i p k := heq
    have hlive : update s.pComponents i p j ∈ p :: s.live := hlive
    by_cases hji : j = i <;> by_cases hki : k = i
    · rw [hji, hki]
    · rw [hji, update_self, hother k hki] at heq
      exact absurd heq.symm (hone k hk hki)
    · rw [hki, update_self, hother j hji] at heq
      exact absurd heq (hone j hj hji)
    · rw [hother j hji] at heq hlive
      rw [hother k hki] at heq
      exact h.alone j hj k hk heq ((mem_cons.mp hlive).resolve_left (hone j hj hji))
  · have hperm := h.perm
    unfold State.handles at hperm ⊢
    rw [hsplit] at hperm
    rw [flatMap_append, flatMap_cons] at hperm ⊢
    rw [hhandles, append_assoc, singleton_append, ← append_assoc]
    refine perm_middle.trans (Perm.cons p ?_)
    rw [append_assoc]
    exact hperm
  · have hnames := h.names
    rw [hsplit] at hnames
    rw [map_append, map_cons] at hnames ⊢
    exact hnames
  · rcases mem_append.mp hmem with hmem | hmem
    · exact h.entry other (hsplit ▸ mem_append_left _ hmem)
    · rcases mem_cons.mp hmem with rfl | hmem
      · exact hadded
      · exact h.entry other (hsplit ▸ mem_append_right _ (mem_cons_of_mem _ hmem))

theorem modify_middle {α : Type} (f : α → α) (front back : List α) (a : α) :
    (front ++ a :: back).modify front.length f = front ++ f a :: back := by
  induction front with
  | nil => rfl
  | cons b front ih =>
    rw [cons_append, length_cons, modify_succ_cons, ih]
    rfl

/-- The state in a search is consistent afterwards or, where the search is not safe, is not. -/
def Settles (safe : Prop) (result : Option (OMX_ERRORTYPE × State)) : Prop :=
  (safe ∧ ∃ err t, result = some (err, t) ∧ t.Tidy) ∨
    (¬safe ∧ ∀ err t, result = some (err, t) → ¬t.Consistent)

/-- The caller's pointer is freed at `CLEAN_UP`. -/
theorem State.Tidy.settles_free (h : s.Tidy) {safe : Prop} (hsafe : safe ↔ p ∉ s.live)
    {err : OMX_ERRORTYPE} {t : State} (ht : t = if p ≠ 0 then s.free p else s) :
    Settles safe (some (err, t)) := by
  by_cases hp : p ∈ s.live
  · refine .inr ⟨fun hyes => hsafe.mp hyes hp, fun err' t' heq => ?_⟩
    obtain ⟨rfl, rfl⟩ := Prod.mk.inj (some.inj heq)
    rw [ht]
    exact h.not_consistent_free hp
  · refine .inl ⟨hsafe.mpr hp, err, t, rfl, ?_⟩
    rw [ht, ite_free_of_not_live hp]
    exact h

/-- The search settles the state of the tables according to whether it is safe. -/
theorem State.Tidy.search (h : s.Tidy) (hi : i < MAXCOMP) (hmodule : s.pModules i = 0)
    (hcomponent : s.pComponents i = 0) (hfresh : ∀ refIndex, (attempts refIndex).malloc ∉ s.live)
    (cComponentName : List UInt8) (p : Ptr) :
    Settles (s.SearchSafe cComponentName attempts p)
      (s.search cComponentName attempts i 0 s.componentTable p) := by
  unfold State.SearchSafe
  cases hfind : s.componentTable.findIdx? fun entry => entry.name = cComponentName with
  | none =>
    have hnone : ∀ entry ∈ s.componentTable, entry.name ≠ cComponentName := fun entry hentry => by
      simpa using findIdx?_eq_none_iff.mp hfind entry hentry
    rw [search_none hnone, Nat.zero_add]
    dsimp only
    split
    · rename_i hshort
      exact .inr ⟨fun hsafe => absurd hsafe.1 (Nat.not_le.mpr hshort), (by simp)⟩
    · rename_i hfull
      exact h.settles_free (and_iff_right (Nat.not_lt.mp hfull))
        (cleanUp_eq (update_zero hmodule) (update_zero hcomponent) rfl rfl)
  | some refIndex =>
    obtain ⟨front, entry, back, hsplit, hlen, hname, hfront, hback⟩ :=
      split_of_findIdx h.names hfind
    have hget : s.componentTable[refIndex]? = some entry := by
      rw [hsplit, ← hlen, getElem?_append_right (Nat.le_refl _), Nat.sub_self]
      rfl
    have hsearch : s.search cComponentName attempts i 0 s.componentTable p =
        s.search cComponentName attempts i refIndex (entry :: back) p := by
      conv_lhs => rw [hsplit]
      rw [search_front hfront, Nat.zero_add, hlen]
    rw [hsearch, State.search, if_pos hname]
    simp only [hget, some.injEq, forall_eq']
    have hnew := hfresh refIndex
    have hlength : s.componentTable.length = refIndex + 1 + back.length := by
      rw [hsplit, length_append, length_cons, hlen]
      omega
    have hundone : ∀ module, update (update s.pModules i module) i
      0 = s.pModules :=
      fun module => by rw [update_idem, update_zero hmodule]
    have hundone' : ∀ component,
        update (update s.pComponents i component) i 0 = s.pComponents :=
      fun component => by rw [update_idem, update_zero hcomponent]
    have hnothing : ∀ {safe : Prop} {err t}, safe → t = s → Settles safe (some (err, t)) :=
      fun hsafe ht => .inl ⟨hsafe, _, _, rfl, ht ▸ h⟩
    generalize attempts refIndex = attempt at hnew ⊢
    unfold State.instantiate
    by_cases hfull : entry.maxinstances ≤ entry.refCount
    · rw [if_pos hfull]
      exact hnothing (fun hroom => absurd hfull (Nat.not_le.mpr hroom)) rfl
    rw [if_neg hfull]
    have hroom : entry.refCount < entry.maxinstances := Nat.not_le.mp hfull
    by_cases hload : attempt.dlopen = 0
    · rw [if_pos hload]
      refine hnothing (fun _ hloaded => absurd hload hloaded) ?_
      simp only [State.setModule, update_zero hmodule]
    rw [if_neg hload]
    cases hsym : attempt.dlsym with
    | false =>
      rw [Bool.not_false, if_pos rfl]
      refine h.settles_free ?_ (cleanUp_eq (hundone _) (update_zero hcomponent) rfl rfl)
      exact ⟨fun hsafe => (hsafe hroom hload).1 rfl, fun hp _ _ => ⟨fun _ => hp, (by simp)⟩⟩
    | true =>
      rw [Bool.not_true, if_neg Bool.false_ne_true]
      by_cases hmalloc : attempt.malloc = 0
      · rw [if_pos hmalloc]
        refine hnothing (fun _ _ => ⟨(by simp), fun _ hgiven => absurd hmalloc hgiven⟩) ?_
        exact cleanUp_eq (hundone _) (update_zero hcomponent) rfl rfl
      rw [if_neg hmalloc]
      have hcleaned : ((s.setModule i attempt.dlopen).setComponent i attempt.malloc).cleanUp i
          attempt.malloc = s := by
        rw [cleanUp_eq (s := s) (t := (s.setModule i attempt.dlopen).setComponent i attempt.malloc)
          (hundone _) (hundone' _) rfl rfl]
        exact ite_free_of_not_live hnew
      cases hinit : attempt.OMX_ComponentInit with
      | OMX_ErrorNone =>
        dsimp only
        by_cases hset : attempt.SetCallbacks ≠ .OMX_ErrorNone
        · rw [if_pos hset]
          exact hnothing (fun _ _ => ⟨(by simp), fun _ _ => .inl rfl⟩) hcleaned
        · rw [if_neg hset]
          refine .inl ⟨fun _ _ => ⟨(by simp), fun _ _ => .inl rfl⟩, _, _, rfl, ?_⟩
          have hadd := h.add hi hmodule hcomponent hsplit hroom hload hmalloc hnew
          have hmodify : s.componentTable.modify refIndex (·.add attempt.malloc) =
              front ++ entry.add attempt.malloc :: back := by
            rw [hsplit, ← hlen, modify_middle]
          rw [← hmodify] at hadd
          exact hadd
      | OMX_ErrorInsufficientResources =>
        exact hnothing (fun _ _ => ⟨(by simp), fun _ _ => .inr (.inl rfl)⟩) hcleaned
      | _ =>
        dsimp only
        rw [search_none hback, ← hlength, hcleaned]
        split
        · rename_i hshort
          refine .inr ⟨fun hsafe => ?_, (by simp)⟩
          rcases (hsafe hroom hload).2 rfl hmalloc with hnone | hnone | hlong
          · cases hnone
          · cases hnone
          · exact absurd hlong (Nat.not_le.mpr hshort)
        · rename_i hlong
          exact hnothing (fun _ _ => ⟨(by simp), fun _ _ => .inr (.inr (Nat.not_lt.mp hlong))⟩) rfl

theorem careful_get_iff (s : State) (cComponentName : List UInt8) (pHandle : Ptr)
    (attempts : Nat → Attempt) :
    s.Careful (.get ⟨some cComponentName, some pHandle, true⟩ attempts) ↔
      (cComponentName.length < MAXNAMESIZE → s.freeSlot ≠ none →
        s.SearchSafe cComponentName attempts pHandle) := by
  constructor
  · exact fun h => h cComponentName pHandle rfl
  · rintro h name p heq
    obtain ⟨hname, hp, -⟩ := GetHandleArgs.mk.inj heq
    rw [← some.inj hname, ← some.inj hp]
    exact h

/-- `TIOMX_GetHandle` settles the state of the tables according to whether it is called with
care. -/
theorem State.Tidy.get (h : s.Tidy) (args : GetHandleArgs)
    (hfresh : ∀ refIndex, (attempts refIndex).malloc ∉ s.live) :
    Settles (s.Careful (.get args attempts)) (TIOMX_GetHandle s args attempts) := by
  have hnothing : ∀ {safe : Prop} {err}, safe → Settles safe (some (err, s)) :=
    fun hsafe => .inl ⟨hsafe, _, _, rfl, h⟩
  obtain ⟨cComponentName, pHandle, pCallBacks⟩ := args
  unfold TIOMX_GetHandle
  dsimp only
  split
  · rename_i cComponentName pHandle
    rw [careful_get_iff]
    split
    · rename_i hlong
      exact hnothing fun hshort => absurd hlong (Nat.not_le.mpr hshort)
    · rename_i hshort
      split
      · rename_i hnone
        exact hnothing fun _ hsome => absurd hnone hsome
      · rename_i i hslot
        have hi : i < MAXCOMP := mem_range.mp (mem_of_find?_eq_some hslot)
        have hmodule : s.pModules i = 0 := by
          have hfree := find?_some hslot
          exact of_decide_eq_true hfree
        have hcomponent : s.pComponents i = 0 :=
          ((h.slot i hi).resolve_right fun hused => hused.1 hmodule).2
        have hiff : (cComponentName.length < MAXNAMESIZE → s.freeSlot ≠ none →
            s.SearchSafe cComponentName attempts pHandle) ↔
            s.SearchSafe cComponentName attempts pHandle := by
          rw [hslot]
          exact ⟨fun hsafe => hsafe (Nat.not_le.mp hshort) (some_ne_none i),
            fun hsafe _ _ => hsafe⟩
        rw [hiff]
        exact h.search hi hmodule hcomponent hfresh cComponentName pHandle
  · rename_i hnot
    refine hnothing fun name p heq => ?_
    obtain ⟨rfl, rfl, rfl⟩ := GetHandleArgs.mk.inj heq
    exact absurd rfl (hnot name p rfl rfl)

end GetHandle

section FreeHandle

variable {entry : ComponentTable} {front back : List ComponentTable} {j : Nat}

/-- The place of an instance among those of its entry, and the empty places behind. -/
theorem ComponentTable.Tidy.split (h : entry.Tidy) (hj : j < entry.refCount) :
    ∃ front hComponent back, entry.handles = front ++ hComponent :: back ∧ front.length = j ∧
      entry.refCount = j + 1 + back.length ∧ entry.pHandle = front ++ hComponent :: back ++
        List.replicate (MAX_CONCURRENT_INSTANCES - entry.refCount) 0 := by
  have hlength : entry.handles.length = entry.refCount := by
    unfold ComponentTable.handles
    rw [length_take, h.length]
    exact Nat.min_eq_left (Nat.le_trans h.bounded h.instances)
  have hlt : j < entry.handles.length := by rw [hlength]; exact hj
  have hsplit : entry.handles = entry.handles.take j ++ entry.handles[j] :: entry.handles.drop
    (j + 1) := by
    rw [← drop_eq_getElem_cons hlt, take_append_drop]
  refine ⟨_, _, _, hsplit, ?_, ?_, ?_⟩
  · rw [length_take]
    omega
  · rw [length_drop]
    omega
  · rw [← hsplit, ← h.empty]
    exact (take_append_drop entry.refCount entry.pHandle).symm

/-- The shift for the last instance but one. -/
theorem shiftHandles_two (front back : List Ptr) {x : Ptr} (y : Ptr) (hx : x ≠ 0) :
    shiftHandles 2 front.length (front ++ x :: y :: back) = some (front ++ y :: 0 :: back) := by
  have hfirst : (front ++ x :: y :: back).getD front.length 0 = x := by
    simp [getD_eq_getElem?_getD]
  have hsecond : (front ++ x :: y :: back).getD (front.length + 1) 0 = y := by
    simp [getD_eq_getElem?_getD]
  have hset : ((front ++ x :: y :: back).set front.length y).set (front.length + 1) 0 =
      front ++ y :: 0 :: back := by
    simp
  have hthird : (front ++ y :: 0 :: back).getD (front.length + 1) 0 = 0 := by
    simp [getD_eq_getElem?_getD]
  have hlt : front.length + 1 < (front ++ x :: y :: back).length := by
    simp
  rw [shiftHandles, hfirst, if_pos hx, if_pos hlt, hsecond, hset, shiftHandles, hthird,
    if_neg (fun hne => hne rfl), shiftHandles]

/-- One of the last two instances is taken out, and no other. -/
theorem ComponentTable.Tidy.remove (h : entry.Tidy) (hnonzero : 0 ∉ entry.handles)
    (hj : j < entry.refCount) (hlast : entry.refCount ≤ j + 2) :
    ∃ entry' : ComponentTable, entry.remove j = some entry' ∧ entry'.Tidy ∧
    entry'.name = entry.name ∧
      entry'.handles = entry.handles.eraseIdx j := by
  obtain ⟨front, x, back, hhandles, hfront, hcount, hplaces⟩ := h.split hj
  have hx : x ≠ 0 := fun hzero =>
    hnonzero (hhandles ▸ hzero ▸ mem_append_right _ mem_cons_self)
  set zeros := replicate (MAX_CONCURRENT_INSTANCES - entry.refCount) 0 with hzeros
  have hremove : entry.remove j = some { entry with
      pHandle := front ++ back ++ 0 :: zeros
      refCount := entry.refCount - 1 } := by
    unfold ComponentTable.remove
    match back, hcount, hplaces with
    | [], hcount, hplaces =>
      rw [if_neg (by rw [length_nil] at hcount; omega), hplaces, ← hfront]
      simp
    | [y], hcount, hplaces =>
      have hturns : entry.refCount - j = 2 := by
        rw [hcount, length_singleton]
        omega
      rw [if_pos (by rw [length_singleton] at hcount; omega), hturns, hplaces, ← hfront,
        append_assoc, cons_append, cons_append, nil_append,
        shiftHandles_two front zeros y hx]
      simp
    | _ :: _ :: _, hcount, _ =>
      simp only [length_cons] at hcount
      omega
  have hlength : (front ++ back).length = entry.refCount - 1 := by
    rw [length_append, hfront]
    omega
  have hlimit := Nat.le_trans h.bounded h.instances
  refine ⟨_, hremove, ⟨?_, Nat.le_trans (Nat.sub_le ..) h.bounded, h.instances, ?_⟩, rfl, ?_⟩
  · have hlen := h.length
    rw [hplaces] at hlen
    simp only [length_append, length_cons] at hlen ⊢
    omega
  · show (front ++ back ++ 0 :: zeros).drop (entry.refCount - 1) =
      replicate (MAX_CONCURRENT_INSTANCES - (entry.refCount - 1)) 0
    rw [← hlength, drop_left, hlength, hzeros, ← replicate_succ]
    congr 1
    omega
  · show (front ++ back ++ 0 :: zeros).take (entry.refCount - 1) = _
    rw [← hlength, take_left, hhandles, ← hfront,
      eraseIdx_append_of_length_le (Nat.le_refl _),
      Nat.sub_self]
    rfl

/-- The shift leaves the places before its index alone. -/
theorem shiftHandles_before {turns : Nat} {pHandle pHandle' : List Ptr}
    (h : shiftHandles turns j pHandle = some pHandle') :
    pHandle'.length = pHandle.length ∧ ∀ k < j, pHandle'[k]? = pHandle[k]? := by
  induction turns generalizing j pHandle with
  | zero =>
    cases h
    exact ⟨rfl, fun _ _ => rfl⟩
  | succ turns ih =>
    rw [shiftHandles] at h
    split at h
    · split at h
      · obtain ⟨hlength, hbefore⟩ := ih h
        refine ⟨by rw [hlength, length_set, length_set], fun k hk => ?_⟩
        rw [hbefore k (by omega), getElem?_set_ne (by omega), getElem?_set_ne (by omega)]
      · cases h
    · obtain ⟨hlength, hbefore⟩ := ih h
      exact ⟨hlength, fun k hk => hbefore k (by omega)⟩

/-- An instance with two or more behind it is taken out: a store outside the array, or a hole. -/
theorem ComponentTable.Tidy.remove_early (h : entry.Tidy) (hnonzero : 0 ∉ entry.handles)
    (hearly : j + 2 < entry.refCount) {entry' : ComponentTable}
    (hremove : entry.remove j = some entry') :
    0 ∈ entry'.handles := by
  obtain ⟨front, x, back, hhandles, hfront, hcount, hplaces⟩ := h.split (j := j) (by omega)
  have hx : x ≠ 0 := fun hzero =>
    hnonzero (hhandles ▸ hzero ▸ mem_append_right _ mem_cons_self)
  have hlimit : entry.refCount ≤ entry.pHandle.length := by
    rw [h.length]
    exact Nat.le_trans h.bounded h.instances
  have hfirst : entry.pHandle.getD j 0 = x := by
    rw [hplaces, ← hfront]
    simp [getD_eq_getElem?_getD]
  unfold ComponentTable.remove at hremove
  rw [if_pos (by omega)] at hremove
  obtain ⟨pHandle, hshift, rfl⟩ := map_eq_some_iff.mp hremove
  obtain ⟨turns, hturns⟩ : ∃ turns, entry.refCount - j = turns + 2 :=
    ⟨entry.refCount - j - 2, by omega⟩
  rw [hturns, shiftHandles, hfirst, if_pos hx, if_pos (by omega), shiftHandles] at hshift
  -- the place behind the first shift stays empty
  set shifted := (entry.pHandle.set j (entry.pHandle.getD (j + 1) 0)).set (j + 1) 0 with hshifted
  have hhole : shifted[j + 1]? = some 0 := by
    rw [hshifted, getElem?_set_self]
    rw [length_set]
    omega
  rw [if_neg (by simp [getD_eq_getElem?_getD, hhole])] at hshift
  have hkept := (shiftHandles_before hshift).2 (j + 1) (by omega)
  show 0 ∈ pHandle.take (entry.refCount - 1)
  refine mem_of_getElem? (i := j + 1) ?_
  rw [getElem?_take_of_lt (by omega), hkept]
  exact hhole

theorem removeHandle_split (p : Ptr) (back : List ComponentTable)
    (hfront : ∀ entry ∈ front, p ∉ entry.handles)
    (hfind : entry.handles.findIdx? (· == p) = some j) :
    removeHandle p (front ++ entry :: back) =
      some ((entry.remove j).map fun entry' => front ++ entry' :: back) := by
  induction front with
  | nil =>
    rw [nil_append, removeHandle, hfind]
    rfl
  | cons other front ih =>
    have hother : other.handles.findIdx? (· == p) = none := by
      refine findIdx?_eq_none_iff.mpr fun g hg => ?_
      exact beq_eq_false_iff_ne.mpr fun heq => hfront other mem_cons_self (heq ▸ hg)
    rw [cons_append, removeHandle, hother,
      ih fun entry hentry => hfront entry (mem_cons_of_mem other hentry)]
    simp only [Option.map_some, Option.map_map]
    rfl

/-- A live handle has one place in the component table. -/
theorem State.Tidy.place (h : s.Tidy) (hp : p ∈ s.live) :
    ∃ front entry back j, s.componentTable = front ++ entry :: back ∧ j < entry.refCount ∧
      (∀ other ∈ front, p ∉ other.handles) ∧ entry.handles.findIdx? (· == p) = some j ∧
      entry.handles[j]? = some p ∧
      ∀ other ∈ s.componentTable, ∀ k, other.handles[k]? = some p → other = entry ∧ k = j := by
  obtain ⟨entry, hentry, hmem⟩ := mem_flatMap.mp (h.perm.symm.subset hp)
  obtain ⟨front, back, hsplit⟩ := append_of_mem hentry
  have hnodup : s.handles.Nodup := h.perm.nodup_iff.mpr h.nodup
  unfold State.handles at hnodup
  rw [hsplit, flatMap_append, flatMap_cons] at hnodup
  obtain ⟨-, hrest, hdisjoint⟩ := nodup_append.mp hnodup
  obtain ⟨hown, -, hback⟩ := nodup_append.mp hrest
  have hfront : ∀ other ∈ front, p ∉ other.handles := fun other hother hin =>
    hdisjoint p (mem_flatMap.mpr ⟨other, hother, hin⟩) p (mem_append_left _ hmem) rfl
  obtain ⟨j, hfind⟩ : ∃ j, entry.handles.findIdx? (· == p) = some j := by
    refine isSome_iff_exists.mp (findIdx?_isSome ▸ ?_)
    exact any_eq_true.mpr ⟨p, hmem, beq_self_eq_true p⟩
  obtain ⟨hlt, heq, -⟩ := findIdx?_eq_some_iff_getElem.mp hfind
  have hget : entry.handles[j]? = some p := by
    rw [getElem?_eq_getElem hlt, eq_of_beq heq]
  refine ⟨front, entry, back, j, hsplit, ?_, hfront, hfind, hget, fun other hother k hk => ?_⟩
  · unfold ComponentTable.handles at hlt
    rw [length_take] at hlt
    omega
  · have hin : p ∈ other.handles := mem_of_getElem? hk
    rw [hsplit] at hother
    rcases mem_append.mp hother with hother | hother
    · exact absurd hin (hfront other hother)
    · rcases mem_cons.mp hother with rfl | hother
      · refine ⟨rfl, ?_⟩
        have hlt' := (List.getElem?_eq_some_iff.mp hk).1
        exact (getElem?_inj hlt' hown).mp (hk.trans hget.symm)
      · exact absurd rfl (hback p hmem p (mem_flatMap.mpr ⟨other, hother, hin⟩))

/-- A live handle that is one of the last two of its component leaves the tables. -/
theorem State.Tidy.drop (h : s.Tidy) (hi : i < MAXCOMP) (hcomponent : s.pComponents i = p)
    (hp : p ∈ s.live) (hsplit : s.componentTable = front ++ entry :: back)
    {entry' : ComponentTable} (htidy : entry'.Tidy) (hname : entry'.name = entry.name)
    (hget : entry.handles[j]? = some p) (hhandles : entry'.handles = entry.handles.eraseIdx j) :
    ((({ s with componentTable := front ++ entry' :: back } : State).setModule i 0).free p
      |>.setComponent i 0).Tidy := by
  have hother : ∀ k, k ≠ i → update s.pComponents i 0 k = s.pComponents k := fun k hk =>
    update_of_ne hk ..
  have hmem : ∀ g, g ∈ s.live.erase p ↔ g ≠ p ∧ g ∈ s.live := fun g => h.nodup.mem_erase_iff
  refine ⟨h.nodup.erase p, fun hzero => h.nonzero (mem_of_mem_erase hzero), fun k hk => ?_,
    fun g hg => ?_, fun a ha k hk heq hlive => ?_, ?_, ?_, fun other hin => ?_⟩
  · show (update s.pModules i 0 k = 0 ∧ update s.pComponents i 0 k = 0) ∨
      (update s.pModules i 0 k ≠ 0 ∧ update s.pComponents i 0 k ∈ s.live.erase p)
    by_cases hki : k = i
    · subst hki
      rw [update_self, update_self]
      exact .inl ⟨rfl, rfl⟩
    · rw [update_of_ne hki, hother k hki]
      refine (h.slot k hk).imp_right fun hused => ⟨hused.1, (hmem _).mpr ⟨fun heq => ?_, hused.2⟩⟩
      exact hki (h.alone k hk i hi (heq.trans hcomponent.symm) hused.2)
  · obtain ⟨hne, hg⟩ := (hmem g).mp hg
    obtain ⟨k, hk, hplace⟩ := h.placed g hg
    have hki : k ≠ i := fun heq => hne (hplace.symm.trans (heq ▸ hcomponent))
    exact ⟨k, hk, (hother k hki).trans hplace⟩
  · have heq : update s.pComponents i 0 a = update s.pComponents i 0 k := heq
    have hlive : update s.pComponents i 0 a ∈ s.live.erase p := hlive
    have hzero : 0 ∉ s.live.erase p := fun hin => h.nonzero (mem_of_mem_erase hin)
    by_cases hai : a = i
    · rw [hai, update_self] at hlive
      exact absurd hlive hzero
    · by_cases hki : k = i
      · rw [heq, hki, update_self] at hlive
        exact absurd hlive hzero
      · rw [hother a hai] at heq hlive
        rw [hother k hki] at heq
        exact h.alone a ha k hk heq (mem_of_mem_erase hlive)
  · have hperm := h.perm
    unfold State.handles at hperm
    show ((front ++ entry' :: back).flatMap ComponentTable.handles).Perm (s.live.erase p)
    rw [hsplit] at hperm
    rw [flatMap_append, flatMap_cons] at hperm ⊢
    have hlt := (List.getElem?_eq_some_iff.mp hget).1
    have herase : entry.handles.Perm (p :: entry.handles.eraseIdx j) := by
      have heq := (List.getElem?_eq_some_iff.mp hget).2
      rw [← heq]
      exact (getElem_cons_eraseIdx_perm hlt).symm
    have hcons : (p :: (front.flatMap ComponentTable.handles ++
        (entry'.handles ++ back.flatMap ComponentTable.handles))).Perm (p :: s.live.erase p) := by
      refine (perm_middle.symm.trans ?_).trans (hperm.trans (perm_cons_erase hp))
      rw [hhandles]
      exact (herase.symm.append_right _).append_left _
    exact hcons.cons_inv
  · have hnames := h.names
    rw [hsplit, map_append, map_cons] at hnames
    show ((front ++ entry' :: back).map (·.name)).Nodup
    rw [map_append, map_cons, hname]
    exact hnames
  · rcases mem_append.mp hin with hin | hin
    · exact h.entry other (hsplit ▸ mem_append_left _ hin)
    · rcases mem_cons.mp hin with rfl | hin
      · exact htidy
      · exact h.entry other (hsplit ▸ mem_append_right _ (mem_cons_of_mem _ hin))

/-- `TIOMX_FreeHandle` settles the state of the tables according to whether it is called with
care, and then frees the handles that it should. -/
theorem State.Tidy.freeHandle (h : s.Tidy) (p : Ptr) (ComponentDeInit : OMX_ERRORTYPE) :
    (s.Careful (.free p ComponentDeInit) ∧
        ∃ err t, TIOMX_FreeHandle s p ComponentDeInit = some (err, t) ∧ t.Tidy ∧
          (ComponentDeInit = .OMX_ErrorNone → p ∈ s.live →
            err = .OMX_ErrorNone ∧ t.live = s.live.erase p)) ∨
      (¬s.Careful (.free p ComponentDeInit) ∧
        ∀ err t, TIOMX_FreeHandle s p ComponentDeInit = some (err, t) → ¬t.Consistent) := by
  unfold TIOMX_FreeHandle State.Careful
  cases hslot : s.slotOf p with
  | none =>
    have hnone : ∀ k < MAXCOMP, s.pComponents k ≠ p := fun k hk heq => by
      have hnot := find?_eq_none.mp hslot k (mem_range.mpr hk)
      exact hnot (decide_eq_true heq)
    have hout : p ∉ s.live := fun hp => by
      obtain ⟨k, hk, heq⟩ := h.placed p hp
      exact hnone k hk heq
    refine .inl ⟨⟨fun hzero => hzero ▸ hslot, fun _ entry hentry j hget => ?_⟩, _, s, rfl, h,
      fun _ hp => absurd hp hout⟩
    have hin : p ∈ s.handles := mem_flatMap.mpr ⟨entry, hentry, mem_of_getElem? hget⟩
    exact absurd (h.perm.subset hin) hout
  | some i =>
    have hi : i < MAXCOMP := mem_range.mp (mem_of_find?_eq_some hslot)
    have hcomponent : s.pComponents i = p := by
      have hfound := find?_some hslot
      exact of_decide_eq_true hfound
    dsimp only
    by_cases hzero : p = 0
    · subst hzero
      refine .inr ⟨fun hsafe => ?_, fun err t heq => ?_⟩
      · exact some_ne_none i (hslot.symm.trans (hsafe.1 rfl))
      · rw [if_pos rfl] at heq
        cases heq
    rw [if_neg hzero]
    have hp : p ∈ s.live := by
      rcases h.slot i hi with ⟨-, hempty⟩ | ⟨-, hused⟩
      · exact absurd (hcomponent.symm.trans hempty) hzero
      · exact hcomponent ▸ hused
    by_cases hdeinit : ComponentDeInit = .OMX_ErrorNone
    · rw [if_neg (fun hne => hne hdeinit)]
      obtain ⟨front, entry, back, j, hsplit, hj, hfront, hfind, hget, hunique⟩ := h.place hp
      have hmem : entry ∈ s.componentTable := hsplit ▸ mem_append_right _ mem_cons_self
      have hnonzero : 0 ∉ entry.handles := fun hin =>
        h.nonzero (h.perm.subset (mem_flatMap.mpr ⟨entry, hmem, hin⟩))
      have hremove := removeHandle_split p back hfront hfind
      rw [← hsplit] at hremove
      rw [hremove]
      by_cases hlast : entry.refCount ≤ j + 2
      · obtain ⟨entry', hentry', htidy, hname, hhandles⟩ :=
          (h.entry entry hmem).remove hnonzero hj hlast
        rw [hentry']
        refine .inl ⟨⟨fun heq => absurd heq hzero, fun _ other hother k hk => ?_⟩, _, _, rfl,
          h.drop hi hcomponent hp hsplit htidy hname hget hhandles, fun _ _ => ⟨rfl, rfl⟩⟩
        obtain ⟨rfl, rfl⟩ := hunique other hother k hk
        exact hlast
      · refine .inr ⟨fun hsafe => hlast (hsafe.2 hdeinit entry hmem j hget),
          fun err t heq hc => ?_⟩
        cases hentry' : entry.remove j with
        | none =>
          rw [hentry'] at heq
          cases heq
        | some entry' =>
          rw [hentry'] at heq
          obtain ⟨-, rfl⟩ := Prod.mk.inj (some.inj heq)
          -- the hole is an entry of the table and no handle
          have hhole := (h.entry entry hmem).remove_early hnonzero (Nat.not_le.mp hlast) hentry'
          have hin : 0 ∈ s.live.erase p := hc.entries 0
            (mem_flatMap.mpr ⟨entry', mem_append_right _ mem_cons_self, hhole⟩)
          exact h.nonzero (mem_of_mem_erase hin)
    · rw [if_pos hdeinit]
      exact .inl ⟨⟨fun heq => absurd heq hzero, fun heq => absurd heq hdeinit⟩, _, s, rfl, h,
        fun heq => absurd heq hdeinit⟩

end FreeHandle

/-- A call settles the state of the tables: with care it keeps them and does what it should,
otherwise it has no result or leaves them inconsistent. -/
theorem State.Tidy.careful_iff_keeps (h : s.Tidy) {call : Call} (hfresh : s.Fresh call) :
    s.Careful call ↔ s.Keeps call := by
  cases call with
  | get args attempts =>
    rcases h.get args hfresh with ⟨hsafe, err, t, hcall, ht⟩ | ⟨hcareless, hno⟩
    · exact iff_of_true hsafe ⟨err, t, hcall, ht.consistent, nofun⟩
    · refine iff_of_false hcareless ?_
      rintro ⟨err, t, hcall, hc, -⟩
      exact hno err t hcall hc
  | free p ComponentDeInit =>
    rcases h.freeHandle p ComponentDeInit with ⟨hsafe, err, t, hcall, ht, hfrees⟩ | ⟨hcareless, hno⟩
    · refine iff_of_true hsafe ⟨err, t, hcall, ht.consistent, fun g heq hg => ?_⟩
      injection heq with heq hdeinit
      subst heq
      obtain ⟨herr, hlive⟩ := hfrees hdeinit hg
      refine ⟨herr, fun other => ?_⟩
      rw [hlive, h.nodup.mem_erase_iff, and_comm]
    · refine iff_of_false hcareless ?_
      rintro ⟨err, t, hcall, hc, -⟩
      exact hno err t hcall hc

/-- A careful call keeps the tables tidy. -/
theorem State.Tidy.after (h : s.Tidy) {call : Call} (hfresh : s.Fresh call) (hkeeps : s.Keeps call)
    (hafter : s.after call = some t) : t.Tidy := by
  have hsafe := (h.careful_iff_keeps hfresh).mpr hkeeps
  obtain ⟨⟨err, u⟩, hcall, rfl⟩ := map_eq_some_iff.mp hafter
  cases call with
  | get args attempts =>
    rcases h.get args hfresh with ⟨-, err', t', hcall', ht⟩ | ⟨hcareless, -⟩
    · obtain ⟨-, rfl⟩ := Prod.mk.inj (some.inj (hcall.symm.trans hcall'))
      exact ht
    · exact absurd hsafe hcareless
  | free p ComponentDeInit =>
    rcases h.freeHandle p ComponentDeInit with ⟨-, err', t', hcall', ht, -⟩ | ⟨hcareless, -⟩
    · obtain ⟨-, rfl⟩ := Prod.mk.inj (some.inj (hcall.symm.trans hcall'))
      exact ht
    · exact absurd hsafe hcareless

/-- Every call of a run keeps the tables, if and only if every call is made with care. -/
theorem handle_tables_agree_iff (table : List ComponentTable) (hbuilt : Built table)
    (calls : List Call) (hfresh : AlongSome State.after State.Fresh (.start table) calls) :
    AlongSome State.after State.Careful (.start table) calls ↔
      AlongSome State.after State.Keeps (.start table) calls :=
  AlongSome.congr_invariant hfresh (State.Tidy.start hbuilt)
    (fun _ _ htidy hnew => htidy.careful_iff_keeps hnew)
    (fun _ _ _ htidy hnew hkeeps hafter => htidy.after hnew hkeeps hafter)

/-- A table with one component. -/
def smallTable : List ComponentTable := [⟨[100], [0, 0, 0, 0], 0, MAX_CONCURRENT_INSTANCES⟩]

/-- The component is loaded, and its handle is `hComponent`. -/
def getHandle (hComponent : Ptr) : Call :=
  .get ⟨some [100], some 0, true⟩ fun _ => ⟨7, true, hComponent, .OMX_ErrorNone, .OMX_ErrorNone⟩

theorem smallTable_built : Built smallTable :=
  ⟨by decide, by decide, by decide⟩

theorem fresh_getHandle (h : p ∉ s.live) : s.Fresh (getHandle p) := fun _ => h

theorem careful_getHandle (h : s.componentTable.length = 1)
    (hname : s.componentTable.map (·.name) = [[100]]) (hComponent : Ptr) :
    s.Careful (getHandle hComponent) := by
  obtain ⟨entry, hentry⟩ := length_eq_one_iff.mp h
  rw [hentry] at hname
  have hfind : s.componentTable.findIdx? (fun entry => entry.name = [100]) = some 0 := by
    rw [hentry, findIdx?_cons, if_pos (decide_eq_true (singleton_inj.mp hname))]
  rw [getHandle, careful_get_iff]
  intro _ _
  unfold State.SearchSafe
  rw [hfind]
  exact fun _ _ _ _ => ⟨nofun, fun _ _ => .inl rfl⟩

/-- Two instances are made, and the first is freed. -/
theorem two_instances_agree : AlongSome State.after State.Keeps (.start smallTable)
    [getHandle 1, getHandle 2, .free 1 .OMX_ErrorNone] := by
  refine (handle_tables_agree_iff smallTable smallTable_built
    [getHandle 1, getHandle 2, .free 1 .OMX_ErrorNone] ?_).mp ?_
  · refine ⟨fresh_getHandle (by decide), fun s hs => ?_⟩
    cases hs
    refine ⟨fresh_getHandle (by decide), fun s hs => ?_⟩
    cases hs
    exact ⟨trivial, fun _ _ => trivial⟩
  · refine ⟨careful_getHandle rfl rfl 1, fun s hs => ?_⟩
    cases hs
    refine ⟨careful_getHandle rfl rfl 2, fun s hs => ?_⟩
    cases hs
    refine ⟨⟨nofun, fun _ entry hentry j hj => ?_⟩, fun _ _ => trivial⟩
    rw [mem_singleton.mp hentry]
    show 2 ≤ j + 2
    omega

/-- With three instances, the second and third are not both left when the first is freed. -/
theorem third_instance_lost :
    ¬∀ table calls, Built table → AlongSome State.after State.Fresh (.start table) calls →
      AlongSome State.after State.Keeps (.start table) calls := by
  intro hall
  have hkeeps := hall smallTable [getHandle 1, getHandle 2, getHandle 3, .free 1 .OMX_ErrorNone]
    smallTable_built ?_
  · obtain ⟨err, t, hcall, hc, -⟩ := (((hkeeps.2 _ rfl).2 _ rfl).2 _ rfl).1
    cases hcall
    exact absurd (hc.once 3 (by decide)) (by decide)
  · refine ⟨fresh_getHandle (by decide), fun s hs => ?_⟩
    cases hs
    refine ⟨fresh_getHandle (by decide), fun s hs => ?_⟩
    cases hs
    refine ⟨fresh_getHandle (by decide), fun s hs => ?_⟩
    cases hs
    exact ⟨trivial, fun _ _ => trivial⟩

end OmapHal.OmxCore
