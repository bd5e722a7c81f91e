import Mathlib.Data.List.Nodup
import OmapHal.Core.Links

/-!
# The QoS registry

`QOSRegistry.c`. The entries are intrusive lists: each object has one `Next`, and a registry and a
component have two list heads each. An address is a number, 0 is `NULL`. The walks along a list have
fuel, and give nothing when it runs out.
-/

namespace OmapHal.Qos

open Function List

variable {p q : LinkField} {l : List Nat}

/-! ### `QOSDATATYPE` -/

def QOSDataType_Component : Nat := 7
def QOSDataType_Registry : Nat := 8
def QOSDataType_DynDependentLibrary : Nat := 9

def EINVAL : Int := 22

def ENOENT : Int := 2

def DSPData_IsResource (Id : Nat) : Bool :=
  Id ≠ QOSDataType_Component ∧ Id ≠ QOSDataType_DynDependentLibrary ∧ Id ≠ QOSDataType_Registry

/-- A field that links an entry: a list head of a registry or a component, or `Next`. -/
inductive LinkField where
  | ResourceRegistry (registry : Nat)
  | ComponentRegistry (registry : Nat)
  | resourceList (comp : Nat)
  | dynDepLibList (comp : Nat)
  | Next (data : Nat)
  deriving DecidableEq

/-- The links of all objects. -/
abbrev LinkStore := LinkField → Nat

/-- `FindTargetList`, where `type` has the `Id` of each object. -/
def FindTargetList (type : Nat → Nat) (listhead Id : Nat) : Option LinkField :=
  if listhead = 0 then none
  else if type listhead = QOSDataType_Component then
    if DSPData_IsResource Id then some (.resourceList listhead)
    else if Id = QOSDataType_DynDependentLibrary then some (.dynDepLibList listhead)
    else none
  else if type listhead = QOSDataType_Registry then
    if DSPData_IsResource Id then some (.ResourceRegistry listhead)
    else if Id = QOSDataType_Component then some (.ComponentRegistry listhead)
    else none
  else none

/-- What a search leaves: its status, the caller's array and the caller's size. -/
structure FindResult where
  status : Int
  ResultList : Nat → Nat
  Size : Nat

section

variable (type : Nat → Nat) (link : LinkStore)

/-- The search loop. `updateInfo` is what a resource's handler returns for
`QOS_FN_ResourceUpdateInfo`; it changes the data of the resource and no list. -/
def findLoop (updateInfo : Nat → Int) (Id Size : Nat) :
    Nat → Nat → Int → Nat → (Nat → Nat) → Option (Int × Nat × (Nat → Nat))
  | 0, _, _, _, _ => none
  | fuel + 1, target, status, EntriesFound, ResultList =>
    if target = 0 ∨ status < 0 then some (status, EntriesFound, ResultList)
    else if type target ≠ Id then
      findLoop updateInfo Id Size fuel (link (.Next target)) status EntriesFound ResultList
    else if Size > EntriesFound then
      findLoop updateInfo Id Size fuel (link (.Next target))
        (if DSPData_IsResource Id then updateInfo target else status) (EntriesFound + 1)
        (Function.update ResultList EntriesFound target)
    else
      findLoop updateInfo Id Size fuel (link (.Next target)) status (EntriesFound + 1) ResultList

/-- `DSPRegistry_Find`. -/
def DSPRegistry_Find (updateInfo : Nat → Int) (fuel Id registry : Nat) (ResultList : Nat → Nat)
    (Size : Nat) : Option FindResult :=
  let ended (status : Int) (EntriesFound : Nat) (ResultList : Nat → Nat) : FindResult :=
    if EntriesFound > Size then ⟨-EINVAL, ResultList, EntriesFound⟩
    else if EntriesFound = 0 then ⟨-ENOENT, ResultList, Size⟩
    else ⟨status, ResultList, Size⟩
  match FindTargetList type registry Id with
  | none => some (ended (-EINVAL) 0 ResultList)
  | some list_ptr =>
    (findLoop type link updateInfo Id Size fuel (link list_ptr) 0 0 ResultList).map
      fun (status, EntriesFound, ResultList) => ended status EntriesFound ResultList

/-- `DSPRegistry_Add`. -/
def DSPRegistry_Add (listhead entry : Nat) : LinkStore × Int :=
  match FindTargetList type listhead (type entry) with
  | some target =>
    (Function.update (Function.update link (.Next entry) (link target)) target entry, 0)
  | none => (link, -EINVAL)

/-- The loop of `DSPRegistry_Remove`: it ends at the entry, before it, or behind the list. -/
def removeLoop (entry : Nat) : Nat → Nat → Option Nat
  | 0, _ => none
  | fuel + 1, target =>
    if target ≠ 0 ∧ target ≠ entry ∧ link (.Next target) ≠ entry then
      removeLoop entry fuel (link (.Next target))
    else some target

/-- `DSPRegistry_Remove`. -/
def DSPRegistry_Remove (fuel listhead entry : Nat) : Option (LinkStore × Int) :=
  match FindTargetList type listhead (type entry) with
  | none => some (link, -EINVAL)
  | some list_ptr =>
    (removeLoop link entry fuel (link list_ptr)).map fun target =>
      if target = 0 then (link, -ENOENT)
      else
        let link :=
          if target = entry then Function.update link list_ptr (link (.Next entry)) else link
        let link := Function.update link (.Next target) (link (.Next entry))
        (Function.update link (.Next entry) 0, 0)

end

/-- What clients do to the lists. -/
inductive RegistryCall where
  | add (listhead entry : Nat)
  | remove (listhead entry : Nat)
  deriving DecidableEq

def RegistryCall.apply (type : Nat → Nat) (fuel : Nat) (link : LinkStore) :
    RegistryCall → Option LinkStore
  | .add listhead entry => some (DSPRegistry_Add type link listhead entry).1
  | .remove listhead entry => (DSPRegistry_Remove type link fuel listhead entry).map Prod.fst

def runCalls (type : Nat → Nat) (fuel : Nat) : List RegistryCall → LinkStore → Option LinkStore
  | [], link => some link
  | call :: calls, link => do runCalls type fuel calls (← call.apply type fuel link)

/-!
## The lists of the QoS registry

What `DSPRegistry_Add` and `DSPRegistry_Remove` make of the lists. An entry is added before the
others, so that a list has its entries in the reverse order of their registration.
-/

section Lists

open OmapHal.Core

/-! ### What is registered -/

/-- The entries behind each list head, in the order of their registration. -/
abbrev Content := LinkField → List Nat

/-- What a call makes of the content: one entry more at the end, or one less. -/
def RegistryCall.change (type : Nat → Nat) (c : Content) : RegistryCall → Content
  | .add listhead entry =>
    match FindTargetList type listhead (type entry) with
    | some p => Function.update c p (c p ++ [entry])
    | none => c
  | .remove listhead entry =>
    match FindTargetList type listhead (type entry) with
    | some p => Function.update c p ((c p).erase entry)
    | none => c

/-- The content after these calls. -/
def registered (type : Nat → Nat) (calls : List RegistryCall) : Content :=
  calls.foldl (RegistryCall.change type) fun _ => []

/-- An entry that is added is an object in no list. -/
def RegistryCall.Proper (c : Content) : RegistryCall → Prop
  | .add _ entry => entry ≠ 0 ∧ ∀ p, entry ∉ c p
  | .remove _ entry => entry ≠ 0

/-- Each call is proper when it is made. -/
def ProperCalls (type : Nat → Nat) : List RegistryCall → Content → Prop
  | [], _ => True
  | call :: calls, c => call.Proper c ∧ ProperCalls type calls (call.change type c)

/-! ### Lists in the store -/

/-- What a link to an entry holds. Nothing links to a list head. -/
def LinkField.ref : LinkField → Nat
  | .Next data => data
  | _ => 0

/-- A field that is a list head. -/
def LinkField.IsHead : LinkField → Prop
  | .Next _ => False
  | _ => True

/-- The fields that link a list, from its head on. -/
def spine (p : LinkField) (c : Content) : List LinkField := p :: (c p).reverse.map .Next

/-- The store holds these lists: each entry is in one of them and once. -/
structure Holds (link : LinkStore) (c : Content) : Prop where
  links : ∀ p, p.IsHead → Links link LinkField.ref 0 (spine p c)
  nodup : ∀ p, (c p).Nodup
  apart : ∀ p q, p ≠ q → ∀ e ∈ c p, e ∉ c q
  ne_null : ∀ p, ∀ e ∈ c p, e ≠ 0

variable {type : Nat → Nat} {link : LinkStore} {c : Content}

theorem isHead_of_FindTargetList {listhead Id : Nat}
    (h : FindTargetList type listhead Id = some p) : p.IsHead := by
  unfold FindTargetList at h
  split at h
  · cases h
  · split at h
    · split at h
      · cases h; trivial
      · split at h
        · cases h; trivial
        · cases h
    · split at h
      · split at h
        · cases h; trivial
        · split at h
          · cases h; trivial
          · cases h
      · cases h

theorem mem_spine : q ∈ spine p c ↔ q = p ∨ ∃ e ∈ c p, .Next e = q := by
  simp only [spine, mem_cons, mem_map, mem_reverse]

theorem LinkField.IsHead.ne_next (h : p.IsHead) (e : Nat) : p ≠ .Next e := by
  rintro rfl
  exact h

/-- Different lists have no field in common. -/
theorem Holds.notMem_spine (h : Holds link c) (hp : p.IsHead) (hq : q.IsHead)
    (hpq : p ≠ q) {r : LinkField} (hr : r ∈ spine p c) : r ∉ spine q c := by
  intro hrq
  rcases mem_spine.1 hr with rfl | ⟨e, he, rfl⟩
  · rcases mem_spine.1 hrq with rfl | ⟨e, -, heq⟩
    · exact hpq rfl
    · exact hp.ne_next e heq.symm
  · rcases mem_spine.1 hrq with heq | ⟨e', he', heq⟩
    · exact hq.ne_next e heq.symm
    · obtain rfl := LinkField.Next.inj heq
      exact h.apart p q hpq e' he he'

theorem Holds.nodup_spine (h : Holds link c) (hp : p.IsHead) : (spine p c).Nodup := by
  rw [spine, nodup_cons]
  refine ⟨fun hmem => ?_, ?_⟩
  · obtain ⟨e, -, heq⟩ := mem_map.1 hmem
    exact hp.ne_next e heq.symm
  · exact (nodup_reverse.2 (h.nodup p)).map fun a b heq => LinkField.Next.inj heq

theorem Holds.empty : Holds (fun _ => 0) fun _ => [] :=
  ⟨fun _ _ => ⟨rfl, trivial⟩, fun _ => nodup_nil, fun _ _ _ _ he => (nomatch he),
    fun _ _ he => (nomatch he)⟩

/-! ### Adding and removing -/

theorem Holds.add (h : Holds link c) (hp : p.IsHead) {entry : Nat}
    (hentry : entry ≠ 0) (hfree : ∀ q, entry ∉ c q) :
    Holds (update (update link (.Next entry) (link p)) p entry)
      (update c p (c p ++ [entry])) := by
  have hnew : ∀ q, q.IsHead → (.Next entry) ∉ spine q c := fun q hq hmem => by
    rcases mem_spine.1 hmem with heq | ⟨e, he, heq⟩
    · exact hq.ne_next entry heq.symm
    · obtain rfl := LinkField.Next.inj heq
      exact hfree q he
  refine ⟨fun q hq => ?_, fun q => ?_, fun q r hqr e he => ?_, fun q e he => ?_⟩
  · by_cases hqp : q = p
    · subst hqp
      rw [spine, update_self, reverse_append, reverse_singleton, singleton_append, map_cons]
      exact (h.links q hq).pushed (nodup_cons.1 (h.nodup_spine hq)).1 (hnew q hq)
    · have hspine : spine q (update c p (c p ++ [entry])) = spine q c := by
        rw [spine, update_of_ne hqp, spine]
      rw [hspine]
      exact (h.links q hq).pushed_apart (h.notMem_spine hp hq (Ne.symm hqp) mem_cons_self)
        (hnew q hq)
  · by_cases hqp : q = p
    · subst hqp
      rw [update_self, nodup_append]
      refine ⟨h.nodup q, nodup_singleton entry, fun a ha b hb heq => ?_⟩
      obtain rfl := mem_singleton.1 hb
      exact hfree q (heq ▸ ha)
    · rw [update_of_ne hqp]
      exact h.nodup q
  · have hmem : ∀ q, e ∈ update c p (c p ++ [entry]) q → e ∈ c q ∨ q = p ∧ e = entry := by
      intro q hq
      by_cases hqp : q = p
      · subst hqp
        rw [update_self, mem_append, mem_singleton] at hq
        exact hq.imp_right fun heq => ⟨rfl, heq⟩
      · rw [update_of_ne hqp] at hq
        exact .inl hq
    intro her
    rcases hmem q he with hq | ⟨rfl, rfl⟩
    · rcases hmem r her with hr | ⟨rfl, rfl⟩
      · exact h.apart q r hqr e hq hr
      · exact hfree q hq
    · rcases hmem r her with hr | ⟨rfl, -⟩
      · exact hfree r hr
      · exact hqr rfl
  · by_cases hqp : q = p
    · subst hqp
      rw [update_self, mem_append, mem_singleton] at he
      rcases he with he | rfl
      · exact h.ne_null q e he
      · exact hentry
    · rw [update_of_ne hqp] at he
      exact h.ne_null q e he

/-- Where the loop of `DSPRegistry_Remove` ends in a list. -/
def beforeOrAt (entry : Nat) : List Nat → Nat
  | [] => 0
  | a :: l => if a = entry ∨ l.head? = some entry then a else beforeOrAt entry l

theorem entry_map_next (l : List Nat) :
    entry LinkField.ref 0 (l.map LinkField.Next) = l.head?.getD 0 := by
  cases l <;> rfl

theorem removeLoop_eq {entry : Nat} (hentry : entry ≠ 0)
    (hlinks : Links link LinkField.ref 0 (l.map LinkField.Next)) (hnull : ∀ e ∈ l, e ≠ 0)
    {fuel : Nat} (hfuel : l.length < fuel) :
    removeLoop link entry fuel (Core.entry LinkField.ref 0 (l.map .Next)) =
      some (beforeOrAt entry l) := by
  induction l generalizing fuel with
  | nil =>
    obtain ⟨fuel, rfl⟩ : ∃ n, fuel = n + 1 := ⟨fuel - 1, by simp at hfuel; omega⟩
    rfl
  | cons a l ih =>
    obtain ⟨fuel, rfl⟩ : ∃ n, fuel = n + 1 := ⟨fuel - 1, by simp at hfuel; omega⟩
    have hnext : link (.Next a) = Core.entry LinkField.ref 0 (l.map .Next) := hlinks.1
    have hrest := ih hlinks.2 (fun e he => hnull e (mem_cons_of_mem a he))
      (Nat.lt_of_succ_lt_succ hfuel)
    have hhead : link (.Next a) = entry ↔ l.head? = some entry := by
      rw [hnext, entry_map_next]
      cases l with
      | nil => exact ⟨fun heq => absurd heq.symm hentry, fun heq => nomatch heq⟩
      | cons b l => exact ⟨fun heq => congrArg some heq, fun heq => Option.some.inj heq⟩
    rw [map_cons, entry_cons, LinkField.ref, removeLoop, beforeOrAt]
    by_cases hend : a = entry ∨ l.head? = some entry
    · rw [if_pos hend, if_neg]
      rintro ⟨-, hne, hnext'⟩
      rcases hend with heq | heq
      · exact hne heq
      · exact hnext' (hhead.2 heq)
    · rw [not_or] at hend
      rw [if_neg (not_or.2 hend), if_pos ⟨hnull a mem_cons_self, hend.1, mt hhead.1 hend.2⟩, hnext]
      exact hrest

theorem beforeOrAt_of_notMem {entry : Nat} (h : entry ∉ l) : beforeOrAt entry l = 0 := by
  induction l with
  | nil => rfl
  | cons a l ih =>
    rw [mem_cons, not_or] at h
    rw [beforeOrAt, if_neg, ih h.2]
    rintro (heq | heq)
    · exact h.1 heq.symm
    · exact h.2 (mem_of_mem_head? heq)

/-- For an entry of the list it is the entry, if that is the first, or the one before it. -/
theorem beforeOrAt_of_mem {entry : Nat} (h : entry ∈ l) :
    (∃ l₂, l = entry :: l₂ ∧ beforeOrAt entry l = entry) ∨
      ∃ l₁ a l₂, l = l₁ ++ a :: entry :: l₂ ∧ beforeOrAt entry l = a ∧ a ≠ entry := by
  induction l with
  | nil => cases h
  | cons a l ih =>
    by_cases ha : a = entry
    · subst ha
      exact .inl ⟨l, rfl, by rw [beforeOrAt, if_pos (.inl rfl)]⟩
    refine .inr ?_
    have hl := (mem_cons.1 h).resolve_left fun heq => ha heq.symm
    by_cases hhead : l.head? = some entry
    · obtain ⟨l₂, rfl⟩ := head?_eq_some_iff.1 hhead
      exact ⟨[], a, l₂, rfl, by rw [beforeOrAt, if_pos (.inr hhead)], ha⟩
    · have hskip : beforeOrAt entry (a :: l) = beforeOrAt entry l := by
        rw [beforeOrAt, if_neg (not_or.2 ⟨ha, hhead⟩)]
      rcases ih hl with ⟨l₂, rfl, -⟩ | ⟨l₁, b, l₂, rfl, hb, hne⟩
      · exact absurd rfl hhead
      · exact ⟨a :: l₁, b, l₂, rfl, hskip.trans hb, hne⟩

/-- The store after an entry was unlinked from the field before it. -/
def unlinked (link : LinkStore) (q : LinkField) (entry : Nat) : LinkStore :=
  Function.update (Function.update link q (link (.Next entry))) (.Next entry) 0

theorem filter_ne_of_nodup {α : Type*} [DecidableEq α] {x : α} {l₁ l₂ : List α}
    (h : (l₁ ++ x :: l₂).Nodup) : (l₁ ++ x :: l₂).filter (fun y => y ≠ x) = l₁ ++ l₂ := by
  obtain ⟨-, htail, happart⟩ := nodup_append.1 h
  rw [filter_append, filter_cons_of_neg (by simp), filter_eq_self.2, filter_eq_self.2]
  · exact fun y hy => decide_eq_true fun heq => (nodup_cons.1 htail).1 (heq ▸ hy)
  · exact fun y hy => decide_eq_true (happart y hy x mem_cons_self)

/-- The list without an entry. -/
theorem Holds.spine_erase (h : Holds link c) (hp : p.IsHead) (entry : Nat) :
    spine p (update c p ((c p).erase entry)) =
      (spine p c).filter fun q => q ≠ .Next entry := by
  rw [spine, spine, update_self, (h.nodup p).erase_eq_filter, ← filter_reverse,
    filter_cons_of_pos (p := fun q => decide (q ≠ LinkField.Next entry))
      (decide_eq_true (hp.ne_next entry)), filter_map]
  congr 2
  refine filter_congr fun e _ => ?_
  by_cases he : e = entry
  · simp [he]
  · simp [he]

/-- Taking an entry out of its list. -/
theorem Holds.unlinked (h : Holds link c) (hp : p.IsHead) {entry : Nat}
    {l₁ l₂ : List LinkField} (hspine : spine p c = l₁ ++ q :: .Next entry :: l₂) :
    Holds (unlinked link q entry) (update c p ((c p).erase entry)) := by
  have hnodup := h.nodup_spine hp
  rw [hspine] at hnodup
  obtain ⟨-, htail, happart⟩ := nodup_append.1 hnodup
  have hq := nodup_cons.1 htail
  have hentry := nodup_cons.1 hq.2
  have hqe : q ≠ .Next entry := fun heq => hq.1 (heq ▸ mem_cons_self)
  have hother : ∀ r, r ≠ q → r ≠ .Next entry → Qos.unlinked link q entry r = link r :=
    fun r hrq hre => (update_of_ne hre ..).trans (update_of_ne hrq ..)
  have hmem : ∀ r e, e ∈ update c p ((c p).erase entry) r → e ∈ c r := by
    intro r e he
    by_cases hrp : r = p
    · subst hrp
      rw [update_self] at he
      exact mem_of_mem_erase he
    · rw [update_of_ne hrp] at he
      exact he
  refine ⟨fun r hr => ?_, fun r => ?_, fun r r' hrr e he her => h.apart r r' hrr e (hmem r e he)
    (hmem r' e her), fun r e he => h.ne_null r e (hmem r e he)⟩
  · by_cases hrp : r = p
    · subst hrp
      have hlinks := h.links r hr
      have hsplit : l₁ ++ q :: .Next entry :: l₂ = (l₁ ++ [q]) ++ .Next entry :: l₂ := by simp
      rw [hspine] at hlinks
      rw [h.spine_erase hr, hspine, hsplit, filter_ne_of_nodup (by rw [← hsplit]; exact hnodup),
        append_assoc, singleton_append]
      refine hlinks.unlink ?_ (fun a ha => hother a ?_ ?_) fun a ha => hother a ?_ ?_
      · rw [Qos.unlinked, update_of_ne hqe, update_self]
      · exact happart a ha q mem_cons_self
      · exact happart a ha _ (mem_cons_of_mem q mem_cons_self)
      · exact fun heq => hq.1 (heq ▸ mem_cons_of_mem _ ha)
      · exact fun heq => hentry.1 (heq ▸ ha)
    · have hsame : spine r (update c p ((c p).erase entry)) = spine r c := by
        rw [spine, update_of_ne hrp, spine]
      have hout : ∀ x ∈ spine r c, x ∉ spine p c := fun x hx => h.notMem_spine hr hp hrp hx
      rw [hspine] at hout
      rw [hsame]
      refine (h.links r hr).congr (fun x hx => hother x ?_ ?_) fun _ _ => rfl
      · rintro rfl
        exact hout x hx (mem_append_right l₁ mem_cons_self)
      · rintro rfl
        exact hout _ hx (mem_append_right l₁ (mem_cons_of_mem q mem_cons_self))
  · by_cases hrp : r = p
    · subst hrp
      rw [update_self]
      exact (h.nodup r).erase entry
    · rw [update_of_ne hrp]
      exact h.nodup r

theorem Holds.remove (h : Holds link c) {listhead entry : Nat}
    (hp : FindTargetList type listhead (type entry) = some p) (hentry : entry ≠ 0) {fuel : Nat}
    (hfuel : (c p).length < fuel) :
    ∃ link', DSPRegistry_Remove type link fuel listhead entry =
        some (link', if entry ∈ c p then 0 else -ENOENT) ∧
      Holds link' (update c p ((c p).erase entry)) := by
  have hhead := isHead_of_FindTargetList hp
  have hlinks := h.links p hhead
  have hloop := removeLoop_eq hentry (l := (c p).reverse) hlinks.2
    (fun e he => h.ne_null p e (mem_reverse.1 he)) (by rw [length_reverse]; exact hfuel)
  rw [← hlinks.1] at hloop
  rw [DSPRegistry_Remove, hp]
  dsimp only
  rw [hloop, Option.map_some]
  by_cases hmem : entry ∈ c p
  · rw [if_pos hmem]
    rcases beforeOrAt_of_mem (mem_reverse.2 hmem) with ⟨l₂, hl, hat⟩ | ⟨l₁, a, l₂, hl, hat, hne⟩
    · rw [hat, if_neg hentry]
      have hspine : spine p c = [] ++ p :: .Next entry :: l₂.map .Next := by
        rw [spine, hl]
        rfl
      refine ⟨_, rfl, ?_⟩
      rw [if_pos rfl, update_idem]
      exact h.unlinked hhead hspine
    · have ha : a ≠ 0 := h.ne_null p a (mem_reverse.1 (by rw [hl]; simp))
      have hspine : spine p c = (p :: l₁.map .Next) ++ .Next a :: .Next entry :: l₂.map .Next := by
        rw [spine, hl]
        simp
      rw [hat, if_neg ha]
      refine ⟨_, rfl, ?_⟩
      rw [if_neg hne]
      exact h.unlinked hhead hspine
  · rw [beforeOrAt_of_notMem fun hrev => hmem (mem_reverse.1 hrev), if_pos rfl, if_neg hmem,
      erase_of_not_mem hmem, update_eq_self]
    exact ⟨link, rfl, h⟩

end Lists

end OmapHal.Qos
