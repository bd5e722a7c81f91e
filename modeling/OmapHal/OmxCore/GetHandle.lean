import Mathlib
import OmapHal.OmxCore.HandleTable

/-!
# A handle, or nothing

`TIOMX_BuildComponentTable`, and what `TIOMX_GetHandle` does outside the tables: the libraries that
it opens and closes, and the memory that it takes and gives back. When a call that fails leaves
nothing behind.
-/

namespace OmapHal.OmxCore

open Function List Nat Option

/-! ## The component table -/

/-- A row of `tComponentName`; the role is left out. -/
structure ComponentName where
  name : List UInt8
  maxinstances : Nat
  deriving DecidableEq, Repr

/-- One turn of the loop. A name that is there already only gets another role. -/
def addComponent (table : List ComponentTable) (row : ComponentName) : List ComponentTable :=
  if table.length < MAX_TABLE_SIZE then
    if table.any fun entry => entry.name = row.name then table
    else table ++ [⟨row.name, .replicate MAX_CONCURRENT_INSTANCES 0, 0, row.maxinstances⟩]
  else table

/-- The table from the rows that stand before the first one without a name. -/
def TIOMX_BuildComponentTable (tComponentName : List ComponentName) : List ComponentTable :=
  tComponentName.foldl addComponent []

variable {table : List ComponentTable} {row : ComponentName} {tComponentName : List ComponentName}

theorem nodup_addComponent (h : (table.map (·.name)).Nodup) :
    ((addComponent table row).map (·.name)).Nodup := by
  unfold addComponent
  split_ifs with hroom hthere
  · exact h
  · rw [map_append, nodup_append]
    refine ⟨h, nodup_singleton _, fun a ha b hb hab => hthere ?_⟩
    obtain ⟨entry, hentry, rfl⟩ := mem_map.mp ha
    have hname : entry.name = row.name := hab.trans (mem_singleton.mp hb)
    exact any_eq_true.mpr ⟨entry, hentry, decide_eq_true hname⟩
  · exact h

theorem names_nodup (tComponentName : List ComponentName) :
    ((TIOMX_BuildComponentTable tComponentName).map (·.name)).Nodup := by
  refine Core.foldl_invariant (P := fun table : List ComponentTable => (table.map (·.name)).Nodup)
    ?_ fun _ _ => nodup_addComponent
  exact nodup_nil

/-! ## Outside the tables -/

/-- What a call asks of the linker and the allocator. -/
inductive Effect where
  | dlopen (p : Ptr)
  | dlclose (p : Ptr)
  | malloc (p : Ptr)
  | free (p : Ptr)
  deriving DecidableEq, Repr

/-- At the label `CLEAN_UP`. -/
def State.cleanUpEffects (s : State) (i : Nat) (pHandle : Ptr) : List Effect :=
  (if pHandle ≠ 0 then [.free pHandle] else []) ++ [.dlclose (s.pModules i)]

/-- In the attempt to make an instance. -/
def State.instantiateEffects (s : State) (i : Nat) (entry : ComponentTable) (attempt : Attempt)
    (pHandle : Ptr) : List Effect :=
  if entry.maxinstances ≤ entry.refCount then []
  else .dlopen attempt.dlopen ::
    if attempt.dlopen = 0 then []
    else
      let s := s.setModule i attempt.dlopen
      if !attempt.dlsym then s.cleanUpEffects i pHandle
      else .malloc attempt.malloc ::
        if attempt.malloc = 0 then s.cleanUpEffects i 0
        else
          match attempt.OMX_ComponentInit with
          | .OMX_ErrorNone =>
            if attempt.SetCallbacks ≠ .OMX_ErrorNone then s.cleanUpEffects i attempt.malloc else []
          | .OMX_ErrorInsufficientResources => s.cleanUpEffects i attempt.malloc
          | _ => []

/-- In the search through the component table. -/
def State.searchEffects (cComponentName : List UInt8) (attempts : Nat → Attempt) (i : Nat) :
    Nat → List ComponentTable → Ptr → State → List Effect
  | refIndex, [], pHandle, s =>
    if refIndex < MAX_TABLE_SIZE then [] else s.cleanUpEffects i pHandle
  | refIndex, entry :: rest, pHandle, s =>
    if entry.name = cComponentName then
      s.instantiateEffects i entry (attempts refIndex) pHandle ++
        match s.instantiate i refIndex entry (attempts refIndex) pHandle with
        | .done _ _ => []
        | .goOn pHandle s =>
          State.searchEffects cComponentName attempts i (refIndex + 1) rest pHandle s
    else State.searchEffects cComponentName attempts i (refIndex + 1) rest pHandle s

/-- In `TIOMX_GetHandle`. -/
def State.getHandleEffects (s : State) (args : GetHandleArgs) (attempts : Nat → Attempt) :
    List Effect :=
  match args.cComponentName, args.pHandle, args.pCallBacks with
  | some cComponentName, some pHandle, true =>
    if MAXNAMESIZE ≤ cComponentName.length then []
    else
      match s.freeSlot with
      | none => []
      | some i => s.searchEffects cComponentName attempts i 0 s.componentTable pHandle
  | _, _, _ => []

/-! ## Nothing is left behind -/

/-- The tables are as they were, what was opened is closed, and only what was taken is given
back. -/
structure Undone (s t : State) (effects : List Effect) : Prop where
  modules : t.pModules = s.pModules
  components : t.pComponents = s.pComponents
  table : t.componentTable = s.componentTable
  closed : ∀ p ≠ 0, effects.count (.dlopen p) = effects.count (.dlclose p)
  freed : ∀ p, effects.count (.free p) ≤ effects.count (.malloc p)

/-- No step of the attempt fails. -/
structure Attempt.Succeeds (attempt : Attempt) : Prop where
  opened : attempt.dlopen ≠ 0
  symbol : attempt.dlsym = true
  memory : attempt.malloc ≠ 0
  init : attempt.OMX_ComponentInit = .OMX_ErrorNone
  callbacks : attempt.SetCallbacks = .OMX_ErrorNone

/-- No step of the call fails: the component is in the table, with an instance and a slot to
spare. -/
def State.Succeeds (s : State) (args : GetHandleArgs) (attempts : Nat → Attempt) : Prop :=
  ∃ cComponentName pHandle refIndex entry, args = ⟨some cComponentName, some pHandle, true⟩ ∧
    cComponentName.length < MAXNAMESIZE ∧ s.freeSlot ≠ none ∧
      s.componentTable[refIndex]? = some entry ∧ entry.name = cComponentName ∧
        entry.refCount < entry.maxinstances ∧ (attempts refIndex).Succeeds

/-- There is a result; it is a handle exactly where that is `good`, and otherwise nothing is left
behind. -/
def State.EndsWell (s : State) (result : Option (OMX_ERRORTYPE × State)) (effects : List Effect)
    (good : Prop) : Prop :=
  ∃ err t, result = some (err, t) ∧ (err = .OMX_ErrorNone ↔ good) ∧
    (err ≠ .OMX_ErrorNone → Undone s t effects)

/-- A handle is made exactly where no step fails, and otherwise nothing is left behind. -/
def State.AllOrNothing (s : State) (args : GetHandleArgs) (attempts : Nat → Attempt) : Prop :=
  s.EndsWell (TIOMX_GetHandle s args attempts) (s.getHandleEffects args attempts)
    (s.Succeeds args attempts)

/-- The condition on an attempt, with the slot `i` and the value behind `pHandle`: `CLEAN_UP` finds
`NULL` where nothing was put yet, and the search does not go on to a place without a name. -/
def State.AttemptHarmless (s : State) (attempt : Attempt) (pHandle : Ptr) (i : Nat) : Prop :=
  attempt.dlopen ≠ 0 → ¬attempt.Succeeds →
    s.pComponents i = 0 ∧ (attempt.dlsym = false → pHandle = 0) ∧
      (attempt.dlsym = true → attempt.malloc ≠ 0 →
        attempt.OMX_ComponentInit = .OMX_ErrorNone ∨
          attempt.OMX_ComponentInit = .OMX_ErrorInsufficientResources ∨
          MAX_TABLE_SIZE ≤ s.componentTable.length)

/-- The condition on a search. -/
def State.SearchHarmless (s : State) (cComponentName : List UInt8) (attempts : Nat → Attempt)
    (pHandle : Ptr) (i : Nat) : Prop :=
  match s.componentTable.findIdx? fun entry => entry.name = cComponentName with
  | none => MAX_TABLE_SIZE ≤ s.componentTable.length ∧ s.pComponents i = 0 ∧ pHandle = 0
  | some refIndex =>
    ∀ entry, s.componentTable[refIndex]? = some entry → entry.refCount < entry.maxinstances →
      s.AttemptHarmless (attempts refIndex) pHandle i

/-- The condition on a call that comes to the search. -/
def State.Harmless (s : State) (args : GetHandleArgs) (attempts : Nat → Attempt) : Prop :=
  ∀ cComponentName pHandle i, args = ⟨some cComponentName, some pHandle, true⟩ →
    cComponentName.length < MAXNAMESIZE → s.freeSlot = some i →
      s.SearchHarmless cComponentName attempts pHandle i

variable {s t : State} {args : GetHandleArgs} {attempts : Nat → Attempt} {attempt : Attempt}
  {cComponentName : List UInt8} {p q : Ptr} {i refIndex : Nat} {entry : ComponentTable}
  {front back : List ComponentTable} {err : OMX_ERRORTYPE} {effects : List Effect} {good : Prop}

/-! ## The clean-up -/

theorem count_dlopen_cleanUp : (t.cleanUpEffects i p).count (.dlopen q) = 0 := by
  unfold State.cleanUpEffects
  split_ifs <;> simp

theorem count_malloc_cleanUp : (t.cleanUpEffects i p).count (.malloc q) = 0 := by
  unfold State.cleanUpEffects
  split_ifs <;> simp

theorem count_dlclose_cleanUp :
    (t.cleanUpEffects i p).count (.dlclose q) = if t.pModules i = q then 1 else 0 := by
  unfold State.cleanUpEffects
  split_ifs <;> simp_all

theorem count_free_cleanUp :
    (t.cleanUpEffects i p).count (.free q) = if p ≠ 0 ∧ p = q then 1 else 0 := by
  unfold State.cleanUpEffects
  split_ifs <;> simp_all

/-- What the label leaves behind, where a library `l` is open and the memory that was taken is in
`effects`. -/
theorem undone_cleanUp_iff {l : Ptr} (effects : List Effect) (hfree : s.pModules i = 0)
    (hmodules : t.pModules = update s.pModules i l)
    (hcomponents : update t.pComponents i 0 = update s.pComponents i 0)
    (htable : t.componentTable = s.componentTable)
    (hopened : ∀ q ≠ 0, effects.count (.dlopen q) = if l = q then 1 else 0)
    (hclosed : ∀ q, effects.count (.dlclose q) = 0) (hfreed : ∀ q, effects.count (.free q) = 0) :
    Undone s (t.cleanUp i p) (effects ++ t.cleanUpEffects i p) ↔
      s.pComponents i = 0 ∧ (p ≠ 0 → 0 < effects.count (.malloc p)) := by
  have hmodule : t.pModules i = l := by rw [hmodules, update_self]
  have hclean : (t.cleanUp i p).pModules = update t.pModules i 0 ∧
      (t.cleanUp i p).pComponents = update t.pComponents i 0 ∧
        (t.cleanUp i p).componentTable = t.componentTable := by
    unfold State.cleanUp
    split <;> exact ⟨rfl, rfl, rfl⟩
  obtain ⟨hmodules', hcomponents', htable'⟩ := hclean
  constructor
  · intro hundone
    constructor
    · have hsame := congrFun hundone.components i
      rw [hcomponents', hcomponents, update_self] at hsame
      exact hsame.symm
    · intro hp
      have hcount := hundone.freed p
      rw [count_append, count_append, hfreed, count_free_cleanUp, count_malloc_cleanUp,
        if_pos ⟨hp, rfl⟩] at hcount
      omega
  · rintro ⟨hcomponent, hp⟩
    refine ⟨?_, ?_, ?_, fun q hq => ?_, fun q => ?_⟩
    · rw [hmodules', hmodules, update_idem, update_zero hfree]
    · rw [hcomponents', hcomponents, update_zero hcomponent]
    · rw [htable', htable]
    · rw [count_append, count_append, hopened q hq, hclosed, count_dlopen_cleanUp,
        count_dlclose_cleanUp, hmodule]
      omega
    · rw [count_append, count_append, hfreed, count_free_cleanUp, count_malloc_cleanUp]
      split_ifs with hq
      · have htaken := hp hq.1
        rw [hq.2] at htaken
        omega
      · omega

/-! ## The search -/

theorem searchEffects_front (hfront : ∀ entry ∈ front, entry.name ≠ cComponentName)
    (refIndex : Nat) :
    s.searchEffects cComponentName attempts i refIndex (front ++ back) p =
      s.searchEffects cComponentName attempts i (refIndex + front.length) back p := by
  induction front generalizing refIndex with
  | nil => rfl
  | cons entry front ih =>
    rw [cons_append, State.searchEffects, if_neg (hfront entry mem_cons_self),
      ih (fun other hother => hfront other (mem_cons_of_mem entry hother)), length_cons]
    congr 1
    omega

theorem searchEffects_none (hback : ∀ entry ∈ back, entry.name ≠ cComponentName) (refIndex : Nat) :
    s.searchEffects cComponentName attempts i refIndex back p =
      if refIndex + back.length < MAX_TABLE_SIZE then [] else s.cleanUpEffects i p := by
  have hsearch : s.searchEffects cComponentName attempts i refIndex (back ++ []) p =
      s.searchEffects cComponentName attempts i (refIndex + back.length) [] p :=
    searchEffects_front hback refIndex
  rw [append_nil] at hsearch
  rw [hsearch, State.searchEffects]

/-- The attempt is the end of the search. -/
theorem search_done (back : List ComponentTable) (hname : entry.name = cComponentName)
    (hfront : ∀ other ∈ front, other.name ≠ cComponentName)
    (hdone : s.instantiate i front.length entry (attempts front.length) p = .done err t) :
    s.search cComponentName attempts i 0 (front ++ entry :: back) p = some (err, t) ∧
      s.searchEffects cComponentName attempts i 0 (front ++ entry :: back) p =
        s.instantiateEffects i entry (attempts front.length) p := by
  rw [search_front hfront, searchEffects_front hfront, State.search, State.searchEffects,
    if_pos hname, if_pos hname, zero_add, hdone]
  exact ⟨rfl, append_nil _⟩

/-- The search goes on behind the attempt, and finds nothing there. -/
theorem search_goOn (hname : entry.name = cComponentName)
    (hfront : ∀ other ∈ front, other.name ≠ cComponentName)
    (hback : ∀ other ∈ back, other.name ≠ cComponentName)
    (hgoOn : s.instantiate i front.length entry (attempts front.length) p = .goOn q t) :
    s.search cComponentName attempts i 0 (front ++ entry :: back) p =
        (if (front ++ entry :: back).length < MAX_TABLE_SIZE then none
          else some (.OMX_ErrorComponentNotFound, t.cleanUp i q)) ∧
      s.searchEffects cComponentName attempts i 0 (front ++ entry :: back) p =
        s.instantiateEffects i entry (attempts front.length) p ++
          if (front ++ entry :: back).length < MAX_TABLE_SIZE then []
          else t.cleanUpEffects i q := by
  have hlength : front.length + 1 + back.length = (front ++ entry :: back).length := by
    rw [length_append, length_cons]
    omega
  rw [search_front hfront, searchEffects_front hfront, State.search, State.searchEffects,
    if_pos hname, if_pos hname, zero_add, hgoOn, ← hlength]
  exact ⟨search_none hback _, congrArg _ (searchEffects_none hback _)⟩

theorem not_endsWell_none : ¬s.EndsWell none effects good := by
  rintro ⟨err, t, heq, -⟩
  cases heq

theorem endsWell_of_fails (hbad : ¬good) (herr : err ≠ .OMX_ErrorNone) :
    s.EndsWell (some (err, t)) effects good ↔ Undone s t effects := by
  constructor
  · rintro ⟨err', t', heq, -, hundone⟩
    cases heq
    exact hundone herr
  · intro hundone
    exact ⟨err, t, rfl, iff_of_false herr hbad, fun _ => hundone⟩

theorem endsWell_of_succeeds (hgood : good) : s.EndsWell (some (.OMX_ErrorNone, t)) effects good :=
  ⟨.OMX_ErrorNone, t, rfl, iff_of_true rfl hgood, fun herr => absurd rfl herr⟩

/-- Where nothing was done. -/
theorem undone_refl (s : State) : Undone s s [] :=
  ⟨rfl, rfl, rfl, fun _ _ => rfl, fun _ => le_refl _⟩

theorem endsWell_refl (hbad : ¬good) (herr : err ≠ .OMX_ErrorNone) :
    s.EndsWell (some (err, s)) [] good :=
  (endsWell_of_fails hbad herr).mpr (undone_refl s)

/-- The clean-up while the library is open and nothing was allocated. -/
theorem undone_opened_iff (hfree : s.pModules i = 0) (l : Ptr) :
    Undone s ((s.setModule i l).cleanUp i p) (.dlopen l :: (s.setModule i l).cleanUpEffects i p) ↔
      s.pComponents i = 0 ∧ p = 0 := by
  refine (undone_cleanUp_iff (t := s.setModule i l) [.dlopen l] hfree rfl rfl rfl
    (fun q _ => ?_) (fun q => ?_) fun q => ?_).trans ?_
  · simp [count_singleton]
  · simp
  · simp
  · simp

/-- The clean-up after memory was asked for. -/
theorem undone_allocated_iff (hfree : s.pModules i = 0) (l m : Ptr)
    (hmodules : t.pModules = update s.pModules i l)
    (hcomponents : update t.pComponents i 0 = update s.pComponents i 0)
    (htable : t.componentTable = s.componentTable) :
    Undone s (t.cleanUp i m) (.dlopen l :: .malloc m :: t.cleanUpEffects i m) ↔
      s.pComponents i = 0 := by
  refine (undone_cleanUp_iff [.dlopen l, .malloc m] hfree hmodules hcomponents htable
    (fun q _ => ?_) (fun q => ?_) fun q => ?_).trans ?_
  · simp [count_cons]
  · simp
  · simp
  · simp

section Attempt

variable (hfree : s.pModules i = 0) (htable : s.componentTable = front ++ entry :: back)
  (hname : entry.name = cComponentName) (hfront : ∀ other ∈ front, other.name ≠ cComponentName)
  (hback : ∀ other ∈ back, other.name ≠ cComponentName)

include htable hname hfront in
theorem endsWell_done (hbad : ¬good) (herr : err ≠ .OMX_ErrorNone)
    (hdone : s.instantiate i front.length entry (attempts front.length) p = .done err t) :
    s.EndsWell (s.search cComponentName attempts i 0 s.componentTable p)
        (s.searchEffects cComponentName attempts i 0 s.componentTable p) good ↔
      Undone s t (s.instantiateEffects i entry (attempts front.length) p) := by
  obtain ⟨hsearch, heffects⟩ := search_done back hname hfront hdone
  rw [htable, hsearch, heffects]
  exact endsWell_of_fails hbad herr

include hfree htable hname hfront hback in
/-- The attempt in which a library was opened and memory was allocated. -/
theorem endsWell_allocated_iff (hroom : entry.refCount < entry.maxinstances)
    (hopen : (attempts front.length).dlopen ≠ 0) (hsymbol : (attempts front.length).dlsym)
    (hmemory : (attempts front.length).malloc ≠ 0) :
    s.EndsWell (s.search cComponentName attempts i 0 s.componentTable p)
        (s.searchEffects cComponentName attempts i 0 s.componentTable p)
        (attempts front.length).Succeeds ↔
      s.AttemptHarmless (attempts front.length) p i := by
  have hlimit : ¬entry.maxinstances ≤ entry.refCount := not_le.mpr hroom
  let t := (s.setModule i (attempts front.length).dlopen).setComponent i
    (attempts front.length).malloc
  have hundone := undone_allocated_iff (t := t) hfree (attempts front.length).dlopen
    (attempts front.length).malloc rfl (update_idem ..) rfl
  unfold State.AttemptHarmless
  by_cases hinit : (attempts front.length).OMX_ComponentInit = .OMX_ErrorNone
  · by_cases hcallbacks : (attempts front.length).SetCallbacks = .OMX_ErrorNone
    · have hgood : (attempts front.length).Succeeds :=
        ⟨hopen, hsymbol, hmemory, hinit, hcallbacks⟩
      have hdone : s.instantiate i front.length entry (attempts front.length) p =
          .done .OMX_ErrorNone { t with
            componentTable :=
              t.componentTable.modify front.length (·.add (attempts front.length).malloc)
            live := (attempts front.length).malloc :: t.live } := by
        simp [State.instantiate, hlimit, hopen, hsymbol, hmemory, hinit, hcallbacks, t]
      have hsearch := (search_done back hname hfront hdone).1
      rw [htable, hsearch]
      exact iff_of_true (endsWell_of_succeeds hgood) fun _ hbad => absurd hgood hbad
    · have hdone : s.instantiate i front.length entry (attempts front.length) p =
          .done (attempts front.length).SetCallbacks
            (t.cleanUp i (attempts front.length).malloc) := by
        simp [State.instantiate, hlimit, hopen, hsymbol, hmemory, hinit, hcallbacks, t]
      have hbad : ¬(attempts front.length).Succeeds := fun h => hcallbacks h.callbacks
      have heffects : s.instantiateEffects i entry (attempts front.length) p =
          .dlopen (attempts front.length).dlopen :: .malloc (attempts front.length).malloc ::
            t.cleanUpEffects i (attempts front.length).malloc := by
        simp [State.instantiateEffects, hlimit, hopen, hsymbol, hmemory, hinit, hcallbacks]
        rfl
      rw [endsWell_done htable hname hfront hbad hcallbacks hdone, heffects, hundone]
      simp [hopen, hbad, hsymbol, hinit]
  have hbad : ¬(attempts front.length).Succeeds := fun h => hinit h.init
  by_cases hresources : (attempts front.length).OMX_ComponentInit = .OMX_ErrorInsufficientResources
  · have hdone : s.instantiate i front.length entry (attempts front.length) p =
        .done .OMX_ErrorInsufficientResources (t.cleanUp i (attempts front.length).malloc) := by
      simp [State.instantiate, hlimit, hopen, hsymbol, hmemory, hresources, t]
    have heffects : s.instantiateEffects i entry (attempts front.length) p =
        .dlopen (attempts front.length).dlopen :: .malloc (attempts front.length).malloc ::
          t.cleanUpEffects i (attempts front.length).malloc := by
      simp [State.instantiateEffects, hlimit, hopen, hsymbol, hmemory, hresources]
      rfl
    rw [endsWell_done htable hname hfront hbad (by decide) hdone, heffects, hundone]
    simp [hopen, hbad, hsymbol, hresources]
  -- the search goes on behind an attempt that failed in the component
  · have hgoOn : s.instantiate i front.length entry (attempts front.length) p =
        .goOn (attempts front.length).malloc t := by
      simp only [State.instantiate, hlimit, hopen, hsymbol, hmemory, if_false, Bool.not_true,
        Bool.false_eq_true]
      rfl
    have hattempt : s.instantiateEffects i entry (attempts front.length) p =
        [.dlopen (attempts front.length).dlopen, .malloc (attempts front.length).malloc] := by
      simp only [State.instantiateEffects, hlimit, hopen, hsymbol, hmemory, if_false, Bool.not_true,
        Bool.false_eq_true]
    obtain ⟨hsearch, heffects⟩ := search_goOn hname hfront hback hgoOn
    rw [htable, hsearch, heffects]
    by_cases hshort : (front ++ entry :: back).length < MAX_TABLE_SIZE
    · rw [if_pos hshort]
      refine iff_of_false not_endsWell_none fun h => ?_
      rcases (h hopen hbad).2.2 hsymbol hmemory with h | h | h
      · exact hinit h
      · exact hresources h
      · exact absurd h (not_le.mpr hshort)
    · have hlong := not_lt.mp hshort
      rw [if_neg hshort, if_neg hshort, endsWell_of_fails hbad (by decide), hattempt]
      refine hundone.trans ⟨fun h _ _ => ⟨h, fun hno => ?_, fun _ _ => Or.inr (Or.inr hlong)⟩,
        fun h => (h hopen hbad).1⟩
      rw [hsymbol] at hno
      cases hno

include hfree htable hname hfront hback in
/-- What the attempt at an entry of the table ends with. -/
theorem endsWell_search_iff (p : Ptr) :
    s.EndsWell (s.search cComponentName attempts i 0 s.componentTable p)
        (s.searchEffects cComponentName attempts i 0 s.componentTable p)
        (entry.refCount < entry.maxinstances ∧ (attempts front.length).Succeeds) ↔
      (entry.refCount < entry.maxinstances → s.AttemptHarmless (attempts front.length) p i) := by
  by_cases hroom : entry.refCount < entry.maxinstances
  swap
  · have hlimit := not_lt.mp hroom
    have hdone : s.instantiate i front.length entry (attempts front.length) p =
        .done .OMX_ErrorInsufficientResources s := by
      unfold State.instantiate
      rw [if_pos hlimit]
    rw [endsWell_done htable hname hfront (fun h => hroom h.1) (by decide) hdone,
      State.instantiateEffects, if_pos hlimit]
    exact iff_of_true (undone_refl s) fun h => absurd h hroom
  have hlimit : ¬entry.maxinstances ≤ entry.refCount := not_le.mpr hroom
  rw [and_iff_right hroom, forall_prop_of_true hroom]
  by_cases hopen : (attempts front.length).dlopen = 0
  · have hdone : s.instantiate i front.length entry (attempts front.length) p =
        .done .OMX_ErrorComponentNotFound (s.setModule i 0) := by
      unfold State.instantiate
      rw [if_neg hlimit, if_pos hopen]
    rw [endsWell_done htable hname hfront (fun h => h.opened hopen) (by decide) hdone,
      State.instantiateEffects, if_neg hlimit, if_pos hopen]
    refine iff_of_true ⟨update_zero hfree, rfl, rfl, fun q hq => ?_, fun q => ?_⟩
      fun h => absurd hopen h
    · simp [hopen, hq.symm]
    · simp
  by_cases hsymbol : (attempts front.length).dlsym
  swap
  · have hdone : s.instantiate i front.length entry (attempts front.length) p =
        .done .OMX_ErrorInvalidComponent
          ((s.setModule i (attempts front.length).dlopen).cleanUp i p) := by
      unfold State.instantiate
      rw [if_neg hlimit, if_neg hopen]
      simp [hsymbol]
    have hbad : ¬(attempts front.length).Succeeds := fun h => hsymbol h.symbol
    rw [endsWell_done htable hname hfront hbad (by decide) hdone, State.instantiateEffects,
      if_neg hlimit, if_neg hopen, State.AttemptHarmless]
    simpa [hsymbol, hopen, hbad] using undone_opened_iff hfree (attempts front.length).dlopen
  by_cases hmemory : (attempts front.length).malloc = 0
  · have hdone : s.instantiate i front.length entry (attempts front.length) p =
        .done .OMX_ErrorInsufficientResources
          ((s.setModule i (attempts front.length).dlopen).cleanUp i 0) := by
      unfold State.instantiate
      rw [if_neg hlimit, if_neg hopen]
      simp [hsymbol, hmemory]
    have hbad : ¬(attempts front.length).Succeeds := fun h => h.memory hmemory
    rw [endsWell_done htable hname hfront hbad (by decide) hdone, State.instantiateEffects,
      if_neg hlimit, if_neg hopen, State.AttemptHarmless]
    simpa [hsymbol, hopen, hbad, hmemory] using
      undone_allocated_iff (t := s.setModule i (attempts front.length).dlopen) hfree _ 0 rfl rfl rfl
  exact endsWell_allocated_iff hfree htable hname hfront hback hroom hopen hsymbol hmemory

end Attempt

/-! ## The call -/

/-- The component that is found is the only one of its name. -/
theorem succeeds_iff_of_found (hnames : (s.componentTable.map (·.name)).Nodup)
    (htable : s.componentTable = front ++ entry :: back) (hname : entry.name = cComponentName)
    (hlength : cComponentName.length < MAXNAMESIZE) (hslot : s.freeSlot = some i) :
    s.Succeeds ⟨some cComponentName, some p, true⟩ attempts ↔
      entry.refCount < entry.maxinstances ∧ (attempts front.length).Succeeds := by
  have hentry : s.componentTable[front.length]? = some entry := by
    rw [htable, getElem?_append_right (Nat.le_refl _), Nat.sub_self, getElem?_cons_zero]
  have hfree : s.freeSlot ≠ none := by
    rw [hslot]
    exact some_ne_none i
  constructor
  · rintro ⟨name, q, k, other, heq, -, -, hk, hother, hroom, hsucceeds⟩
    obtain ⟨rfl, rfl⟩ : cComponentName = name ∧ p = q := by simpa using heq
    obtain rfl : k = front.length := by
      have hlt : k < (s.componentTable.map (·.name)).length := by
        rw [length_map]
        exact (List.getElem?_eq_some_iff.mp hk).1
      refine (getElem?_inj hlt hnames).mp ?_
      rw [getElem?_map, getElem?_map, hk, hentry, map_some, map_some, hother, hname]
    obtain rfl : entry = other := some.inj (hentry.symm.trans hk)
    exact ⟨hroom, hsucceeds⟩
  · rintro ⟨hroom, hsucceeds⟩
    exact ⟨cComponentName, p, front.length, entry, rfl, hlength, hfree, hentry, hname, hroom,
      hsucceeds⟩

/-- What the search ends with. -/
theorem endsWell_iff_searchHarmless (hnames : (s.componentTable.map (·.name)).Nodup)
    (hfree : s.pModules i = 0) (hlength : cComponentName.length < MAXNAMESIZE)
    (hslot : s.freeSlot = some i) (p : Ptr) :
    s.EndsWell (s.search cComponentName attempts i 0 s.componentTable p)
        (s.searchEffects cComponentName attempts i 0 s.componentTable p)
        (s.Succeeds ⟨some cComponentName, some p, true⟩ attempts) ↔
      s.SearchHarmless cComponentName attempts p i := by
  unfold State.SearchHarmless
  cases hfind : s.componentTable.findIdx? fun entry => entry.name = cComponentName with
  | none =>
    have hother : ∀ entry ∈ s.componentTable, entry.name ≠ cComponentName := fun entry hentry =>
      of_decide_eq_false (findIdx?_eq_none_iff.mp hfind entry hentry)
    have hbad : ¬s.Succeeds ⟨some cComponentName, some p, true⟩ attempts := by
      rintro ⟨name, q, k, entry, heq, -, -, hk, hname, -⟩
      obtain ⟨rfl, rfl⟩ : cComponentName = name ∧ p = q := by simpa using heq
      exact hother entry (mem_of_getElem? hk) hname
    rw [search_none hother, searchEffects_none hother, zero_add]
    by_cases hshort : s.componentTable.length < MAX_TABLE_SIZE
    · rw [if_pos hshort]
      exact iff_of_false not_endsWell_none fun h => absurd h.1 (not_le.mpr hshort)
    · have hundone := undone_cleanUp_iff (t := s) (p := p) (l := 0) [] hfree
        (update_eq_self_iff.mpr hfree.symm).symm rfl rfl (fun q hq => (if_neg hq.symm).symm)
        (fun _ => rfl) fun _ => rfl
      rw [if_neg hshort, if_neg hshort, endsWell_of_fails hbad (by decide)]
      refine hundone.trans ?_
      simp [not_lt.mp hshort]
  | some refIndex =>
    obtain ⟨front, entry, back, htable, rfl, hname, hfront, hback⟩ :=
      split_of_findIdx hnames hfind
    have hentry : s.componentTable[front.length]? = some entry := by
      rw [htable, getElem?_append_right (Nat.le_refl _), Nat.sub_self, getElem?_cons_zero]
    rw [succeeds_iff_of_found hnames htable hname hlength hslot,
      endsWell_search_iff hfree htable hname hfront hback]
    constructor
    · intro h other hother
      rw [← some.inj (hentry.symm.trans hother)]
      exact h
    · exact fun h => h entry hentry

/-- Where the call does not come to the search. -/
theorem all_or_nothing_of_early (hcall : TIOMX_GetHandle s args attempts = some (err, s))
    (heffects : s.getHandleEffects args attempts = []) (herr : err ≠ .OMX_ErrorNone)
    (hearly : ∀ cComponentName pHandle i, args = ⟨some cComponentName, some pHandle, true⟩ →
      cComponentName.length < MAXNAMESIZE → s.freeSlot ≠ some i) :
    s.AllOrNothing args attempts ↔ s.Harmless args attempts := by
  unfold State.AllOrNothing
  rw [hcall, heffects]
  refine iff_of_true (endsWell_refl ?_ herr) fun name p i heq hlength hslot =>
    absurd hslot (hearly name p i heq hlength)
  rintro ⟨name, p, k, entry, heq, hlength, hslot, -⟩
  obtain ⟨i, hi⟩ := ne_none_iff_exists'.mp hslot
  exact hearly name p i heq hlength hi

/-- A call makes a handle or leaves nothing behind exactly where its clean-up is harmless. -/
theorem getHandle_all_or_nothing_iff (tComponentName : List ComponentName) (s : State)
    (hnames : s.componentTable.map (·.name) =
      (TIOMX_BuildComponentTable tComponentName).map (·.name))
    (args : GetHandleArgs) (attempts : Nat → Attempt) :
    s.AllOrNothing args attempts ↔ s.Harmless args attempts := by
  have hnodup : (s.componentTable.map (·.name)).Nodup := hnames ▸ names_nodup tComponentName
  obtain ⟨cComponentName, pHandle, pCallBacks⟩ := args
  have hbad (h : ¬∃ name p, (⟨cComponentName, pHandle, pCallBacks⟩ : GetHandleArgs) =
      ⟨some name, some p, true⟩) (hcall : TIOMX_GetHandle s ⟨cComponentName, pHandle, pCallBacks⟩
        attempts = some (.OMX_ErrorBadParameter, s))
      (heffects : s.getHandleEffects ⟨cComponentName, pHandle, pCallBacks⟩ attempts = []) :=
    all_or_nothing_of_early hcall heffects (by decide) fun name p _ heq => absurd ⟨name, p, heq⟩ h
  rcases cComponentName with _ | cComponentName
  · exact hbad (by simp) rfl rfl
  rcases pHandle with _ | p
  · exact hbad (by simp) rfl rfl
  rcases pCallBacks with _ | _
  · exact hbad (by simp) rfl rfl
  by_cases hlong : MAXNAMESIZE ≤ cComponentName.length
  · have hcall : TIOMX_GetHandle s ⟨some cComponentName, some p, true⟩ attempts =
        some (.OMX_ErrorInvalidComponentName, s) := if_pos hlong
    refine all_or_nothing_of_early hcall (if_pos hlong) (by decide) fun name q i heq hlength => ?_
    obtain ⟨rfl, -⟩ : cComponentName = name ∧ p = q := by simpa using heq
    exact absurd hlength (not_lt.mpr hlong)
  have hlength := not_le.mp hlong
  cases hslot : s.freeSlot with
  | none =>
    have hcall : TIOMX_GetHandle s ⟨some cComponentName, some p, true⟩ attempts =
        some (.OMX_ErrorInsufficientResources, s) := by
      simp [TIOMX_GetHandle, hlong, hslot]
    have heffects : s.getHandleEffects ⟨some cComponentName, some p, true⟩ attempts = [] := by
      simp [State.getHandleEffects, hslot]
    refine all_or_nothing_of_early hcall heffects (by decide) fun _ _ i _ _ hi => ?_
    rw [hslot] at hi
    cases hi
  | some i =>
    have hfree : s.pModules i = 0 := of_decide_eq_true (find?_some hslot :)
    have hcall : TIOMX_GetHandle s ⟨some cComponentName, some p, true⟩ attempts =
        s.search cComponentName attempts i 0 s.componentTable p := by
      simp [TIOMX_GetHandle, hlong, hslot]
    have heffects : s.getHandleEffects ⟨some cComponentName, some p, true⟩ attempts =
        s.searchEffects cComponentName attempts i 0 s.componentTable p := by
      simp [State.getHandleEffects, hlong, hslot]
    unfold State.AllOrNothing
    rw [hcall, heffects, endsWell_iff_searchHarmless hnodup hfree hlength hslot]
    constructor
    · rintro h name q k heq - hk
      obtain ⟨rfl, rfl⟩ : cComponentName = name ∧ p = q := by simpa using heq
      rw [← some.inj (hslot.symm.trans hk)]
      exact h
    · exact fun h => h cComponentName p i rfl hlength hslot

/-! ## Two calls -/

namespace GetHandleCalls

/-- One component, of which no instance is there. -/
def rows : List ComponentName := [⟨[100], MAX_CONCURRENT_INSTANCES⟩]

def core : State := .start (TIOMX_BuildComponentTable rows)

/-- The library has no entry point. -/
def noSymbol : Attempt := ⟨7, false, 8, .OMX_ErrorNone, .OMX_ErrorNone⟩

end GetHandleCalls

open GetHandleCalls in
/-- Where the caller's variable is `NULL`, the library is closed and nothing is freed. -/
theorem missing_symbol_undone :
    core.AllOrNothing ⟨some [100], some 0, true⟩ fun _ => noSymbol := by
  refine (getHandle_all_or_nothing_iff rows core rfl ⟨some [100], some 0, true⟩ _).mpr ?_
  rintro name p i heq - hslot
  obtain ⟨rfl, rfl⟩ : [100] = name ∧ 0 = p := by simpa using heq
  exact fun _ _ _ _ _ => ⟨rfl, fun _ => rfl, nofun⟩

open GetHandleCalls in
/-- What the caller's variable held is freed. -/
theorem missing_symbol_frees : ¬∀ (tComponentName : List ComponentName) (s : State),
    s.componentTable.map (·.name) = (TIOMX_BuildComponentTable tComponentName).map (·.name) →
      ∀ args attempts, s.AllOrNothing args attempts := by
  intro hclaim
  obtain ⟨err, t, hcall, -, hundone⟩ :=
    hclaim rows core rfl ⟨some [100], some 9, true⟩ fun _ => noSymbol
  have herr : err = .OMX_ErrorInvalidComponent := by
    cases hcall
    rfl
  have hfreed := (hundone (by rw [herr]; decide)).freed 9
  exact absurd hfreed (by decide)

end OmapHal.OmxCore
