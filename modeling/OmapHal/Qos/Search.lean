import OmapHal.Qos.Registry

/-!
# Searching the QoS registry

`DSPRegistry_Find` after any additions and removals.
-/

namespace OmapHal.Qos

open OmapHal.Core Function List Nat

variable {fuel Id : Nat} {status : Int} {ms : List Nat} {ResultList' : Nat → Nat}

variable {type : Nat → Nat} {link : LinkStore} {c : Content}

/-! ### Runs of additions and removals -/

theorem Holds.apply (h : Holds link c) {call : RegistryCall} (hcall : call.Proper c)
    (hfuel : ∀ p, (c p).length < fuel) :
    ∃ link', call.apply type fuel link = some link' ∧ Holds link' (call.change type c) := by
  cases call with
  | add listhead entry =>
    rw [RegistryCall.apply, DSPRegistry_Add, RegistryCall.change]
    cases hp : FindTargetList type listhead (type entry) with
    | none => exact ⟨link, rfl, h⟩
    | some p => exact ⟨_, rfl, h.add (isHead_of_FindTargetList hp) hcall.1 hcall.2⟩
  | remove listhead entry =>
    rw [RegistryCall.apply, RegistryCall.change]
    cases hp : FindTargetList type listhead (type entry) with
    | none =>
      rw [DSPRegistry_Remove, hp]
      exact ⟨link, rfl, h⟩
    | some p =>
      obtain ⟨link', hremove, h'⟩ := h.remove hp hcall (hfuel p)
      rw [hremove]
      exact ⟨link', rfl, h'⟩

theorem length_change_le (call : RegistryCall) (p : LinkField) :
    (call.change type c p).length ≤ (c p).length + 1 := by
  cases call with
  | add listhead entry =>
    rw [RegistryCall.change]
    cases FindTargetList type listhead (type entry) with
    | none => exact le_succ _
    | some q =>
      dsimp only
      by_cases hpq : p = q
      · subst hpq
        rw [update_self, length_append]
        exact Nat.le_refl _
      · rw [update_of_ne hpq]
        exact le_succ _
  | remove listhead entry =>
    rw [RegistryCall.change]
    cases FindTargetList type listhead (type entry) with
    | none => exact le_succ _
    | some q =>
      dsimp only
      by_cases hpq : p = q
      · subst hpq
        rw [update_self]
        exact le_succ_of_le (length_erase_le)
      · rw [update_of_ne hpq]
        exact le_succ _

/-- A run of proper calls leaves the lists of what is registered. -/
theorem Holds.run {calls : List RegistryCall} (h : Holds link c) (hcalls : ProperCalls type calls c)
    (hfuel : ∀ p, (c p).length + calls.length < fuel) :
    ∃ link', runCalls type fuel calls link = some link' ∧
      Holds link' (calls.foldl (RegistryCall.change type) c) ∧
      ∀ p, (calls.foldl (RegistryCall.change type) c p).length < fuel := by
  induction calls generalizing link c with
  | nil => exact ⟨link, rfl, h, hfuel⟩
  | cons call calls ih =>
    have hhere : ∀ p, (c p).length < fuel := fun p => by
      have hp := hfuel p
      omega
    obtain ⟨link', happly, h'⟩ : ∃ link', call.apply type fuel link = some link' ∧
        Holds link' (call.change type c) := h.apply hcalls.1 hhere
    obtain ⟨link'', hrun, h''⟩ := ih h' hcalls.2 fun p => by
      have hp := hfuel p
      have hchange : (call.change type c p).length ≤ (c p).length + 1 := length_change_le call p
      rw [length_cons] at hp
      omega
    refine ⟨link'', ?_, h''⟩
    rw [runCalls, happly]
    exact hrun

/-! ### The search -/

section

variable (updateInfo : Nat → Int) (resource : Bool) (Size : Nat)

/-- The search over the matching entries of a list. -/
def scan : List Nat → Int → Nat → (Nat → Nat) → Int × Nat × (Nat → Nat)
  | [], status, EntriesFound, ResultList => (status, EntriesFound, ResultList)
  | m :: ms, status, EntriesFound, ResultList =>
    if Size > EntriesFound then
      let status := if resource then updateInfo m else status
      let ResultList := Function.update ResultList EntriesFound m
      if status < 0 then (status, EntriesFound + 1, ResultList)
      else scan ms status (EntriesFound + 1) ResultList
    else scan ms status (EntriesFound + 1) ResultList

variable {updateInfo resource Size}

/-- After a failure the loop ends. -/
theorem findLoop_of_neg {target : Nat} (h : status < 0) (EntriesFound : Nat)
    (ResultList : Nat → Nat) :
    findLoop type link updateInfo Id Size (fuel + 1) target status EntriesFound ResultList =
      some (status, EntriesFound, ResultList) := by
  rw [findLoop, if_pos (.inr h)]

theorem findLoop_eq {l : List Nat} (hlinks : Links link LinkField.ref 0 (l.map LinkField.Next))
    (hnull : ∀ e ∈ l, e ≠ 0) (fuel : Nat) (hfuel : l.length < fuel) (status : Int)
    (hstatus : 0 ≤ status) (EntriesFound : Nat) (ResultList : Nat → Nat) :
    findLoop type link updateInfo Id Size fuel (entry LinkField.ref 0 (l.map .Next)) status
        EntriesFound ResultList =
      some (scan updateInfo (DSPData_IsResource Id) Size (l.filter fun e => type e = Id) status
        EntriesFound ResultList) := by
  induction l generalizing fuel status EntriesFound ResultList with
  | nil =>
    obtain ⟨fuel, rfl⟩ : ∃ n, fuel = n + 1 := ⟨fuel - 1, by simp at hfuel; omega⟩
    rfl
  | cons a l ih =>
    obtain ⟨fuel, rfl⟩ : ∃ n, fuel = n + 2 := ⟨fuel - 2, by simp at hfuel; omega⟩
    have hnext : link (.Next a) = entry LinkField.ref 0 (l.map .Next) := hlinks.1
    have hrest := ih hlinks.2 (fun e he => hnull e (mem_cons_of_mem a he)) (fuel + 1)
      (lt_of_succ_lt_succ hfuel)
    have hgo : ¬ (a = 0 ∨ status < 0) := by
      rintro (heq | hneg)
      · exact hnull a mem_cons_self heq
      · omega
    rw [map_cons, entry_cons, LinkField.ref, findLoop, if_neg hgo, hnext]
    by_cases ha : type a = Id
    · rw [if_neg (not_not.2 ha), filter_cons_of_pos (p := fun e => decide (type e = Id))
        (decide_eq_true ha), scan]
      by_cases hroom : Size > EntriesFound
      · rw [if_pos hroom, if_pos hroom]
        generalize (if DSPData_IsResource Id = true then updateInfo a else status) = status'
        by_cases hneg : status' < 0
        · rw [findLoop_of_neg hneg, if_pos hneg]
        · rw [if_neg hneg]
          exact hrest status' (by omega) _ _
      · rw [if_neg hroom, if_neg hroom]
        exact hrest status hstatus _ _
    · rw [if_pos ha, filter_cons_of_neg (p := fun e => decide (type e = Id))
        (by rw [decide_eq_false ha]; exact Bool.false_ne_true)]
      exact hrest status hstatus _ _

/-- An update of a matching resource that fails. -/
def Fails (updateInfo : Nat → Int) (resource : Bool) (m : Nat) : Prop :=
  resource = true ∧ updateInfo m < 0

/-- Where no update fails, all matching entries are counted, and those that have room are listed. -/
theorem scan_of_updates {EntriesFound : Nat} (ResultList : Nat → Nat) (hstatus : 0 ≤ status)
    (hupdates : ∀ m ∈ ms.take (Size - EntriesFound), ¬ Fails updateInfo resource m) :
    let r := scan updateInfo resource Size ms status EntriesFound ResultList
    0 ≤ r.1 ∧ r.2.1 = EntriesFound + ms.length ∧
      ∀ i, r.2.2 i =
        if EntriesFound ≤ i ∧ i < Size then ms.getD (i - EntriesFound) (ResultList i)
        else ResultList i := by
  induction ms generalizing status EntriesFound ResultList with
  | nil =>
    refine ⟨hstatus, rfl, fun i => ?_⟩
    split
    · rfl
    · rfl
  | cons m ms ih =>
    rw [scan]
    by_cases hroom : Size > EntriesFound
    · have htake : Size - EntriesFound = Size - (EntriesFound + 1) + 1 := by omega
      rw [htake, take_succ_cons] at hupdates
      have hm := hupdates m mem_cons_self
      have hstatus' : 0 ≤ if resource then updateInfo m else status := by
        split
        · rename_i hresource
          by_contra hneg
          exact hm ⟨hresource, by omega⟩
        · exact hstatus
      obtain ⟨hok, hcount, hlist⟩ := ih (update ResultList EntriesFound m) hstatus' fun m' hm' =>
        hupdates m' (mem_cons_of_mem m hm')
      rw [if_pos hroom]
      rw [if_neg (by omega)]
      refine ⟨hok, by rw [hcount, length_cons]; omega, fun i => ?_⟩
      rw [hlist i]
      by_cases hi : i = EntriesFound
      · subst hi
        rw [if_neg (by omega), if_pos ⟨Nat.le_refl i, hroom⟩, update_self, Nat.sub_self]
        rfl
      · rw [update_of_ne hi]
        by_cases hin : EntriesFound ≤ i ∧ i < Size
        · have hsucc : i - EntriesFound = i - (EntriesFound + 1) + 1 := by omega
          rw [if_pos hin, if_pos ⟨by omega, hin.2⟩, hsucc, getD_cons_succ]
        · rw [if_neg hin, if_neg (by omega)]
    · obtain ⟨hok, hcount, hlist⟩ := ih ResultList hstatus fun m' hm' => by
        have hnone : Size - (EntriesFound + 1) = 0 := by omega
        rw [hnone, take_zero] at hm'
        cases hm'
      rw [if_neg hroom]
      refine ⟨hok, by rw [hcount, length_cons]; omega, fun i => ?_⟩
      rw [hlist i, if_neg (by omega), if_neg (by omega)]

/-- Where an update fails, the search ends there. -/
theorem scan_of_failure (status : Int) (EntriesFound : Nat) (ResultList : Nat → Nat)
    (hfailure : ∃ m ∈ ms.take (Size - EntriesFound), Fails updateInfo resource m) :
    let r := scan updateInfo resource Size ms status EntriesFound ResultList
    (∃ m ∈ ms, Fails updateInfo resource m ∧ r.1 = updateInfo m) ∧ EntriesFound < r.2.1 ∧
      r.2.1 ≤ Size ∧ ∀ i ≥ Size, r.2.2 i = ResultList i := by
  induction ms generalizing status EntriesFound ResultList with
  | nil =>
    obtain ⟨m, hm, -⟩ := hfailure
    rw [take_nil] at hm
    cases hm
  | cons m ms ih =>
    have hroom : Size > EntriesFound := by
      by_contra hfull
      have hnone : Size - EntriesFound = 0 := by omega
      rw [hnone, take_zero] at hfailure
      obtain ⟨m', hm', -⟩ := hfailure
      cases hm'
    have htake : Size - EntriesFound = Size - (EntriesFound + 1) + 1 := by omega
    rw [htake, take_succ_cons] at hfailure
    have hupdate : ∀ i ≥ Size, update ResultList EntriesFound m i = ResultList i :=
      fun i hi => update_of_ne (by omega) ..
    rw [scan, if_pos hroom]
    by_cases hm : Fails updateInfo resource m
    · rw [if_pos hm.1, if_pos hm.2]
      exact ⟨⟨m, mem_cons_self, hm, rfl⟩, lt_succ_self _, hroom, hupdate⟩
    · have hrest : ∃ m' ∈ ms.take (Size - (EntriesFound + 1)), Fails updateInfo resource m' := by
        obtain ⟨m', hm', hfails⟩ := hfailure
        rcases mem_cons.1 hm' with rfl | hm'
        · exact absurd hfails hm
        · exact ⟨m', hm', hfails⟩
      obtain ⟨⟨m', hm', hfails, hstatus⟩, hfound, hle, hlist⟩ := ih
        (if resource then updateInfo m else status) (EntriesFound + 1)
        (update ResultList EntriesFound m) hrest
      have hgo : ¬ (if resource then updateInfo m else status) < 0 := by
        rw [if_pos hfails.1]
        exact fun hneg => hm ⟨hfails.1, hneg⟩
      rw [if_neg hgo]
      exact ⟨⟨m', mem_cons_of_mem m hm', hfails, hstatus⟩, by omega, hle, fun i hi =>
        (hlist i hi).trans (hupdate i hi)⟩

/-- What a search promises for these matches: success when there are some, all of them fit and no
update fails. Then they are listed in order. Otherwise it is told that there are none, or how many
there are, and in no case is an element written that the caller did not offer. -/
structure Finds (updateInfo : Nat → Int) (resource : Bool) (ms : List Nat) (Size : Nat)
    (ResultList : Nat → Nat) (r : FindResult) : Prop where
  success_iff : 0 ≤ r.status ↔
    ms ≠ [] ∧ ms.length ≤ Size ∧ ∀ m ∈ ms, ¬ Fails updateInfo resource m
  listed : 0 ≤ r.status → ∀ i, r.ResultList i = ms.getD i (ResultList i)
  not_found : ms = [] → r.status = -ENOENT
  too_many : Size < ms.length → (∀ m ∈ ms.take Size, ¬ Fails updateInfo resource m) →
    r.status = -EINVAL ∧ r.Size = ms.length
  update_failed : (∃ m ∈ ms.take Size, Fails updateInfo resource m) →
    ∃ m ∈ ms, Fails updateInfo resource m ∧ r.status = updateInfo m
  inside : ∀ i ≥ Size, r.ResultList i = ResultList i

end

/-- The matching entries, the last registered first. -/
def matching (type : Nat → Nat) (c : Content) (Id registry : Nat) : List Nat :=
  match FindTargetList type registry Id with
  | some p => (c p).reverse.filter fun e => type e = Id
  | none => []

theorem neg_EINVAL_lt : ¬ (0 : Int) ≤ -EINVAL := by decide

theorem neg_ENOENT_lt : ¬ (0 : Int) ≤ -ENOENT := by decide

section

variable {updateInfo : Nat → Int} {resource : Bool} {Size : Nat} {ResultList : Nat → Nat}

theorem finds_none :
    Finds updateInfo resource [] Size ResultList ⟨-ENOENT, ResultList, Size⟩ where
  success_iff := iff_of_false neg_ENOENT_lt fun h => h.1 rfl
  listed h := absurd h neg_ENOENT_lt
  not_found _ := rfl
  too_many h := absurd h (not_lt_zero Size)
  update_failed h := by
    obtain ⟨m, hm, -⟩ := h
    rw [take_nil] at hm
    cases hm
  inside _ _ := rfl

/-- A failed update is what is returned. -/
theorem finds_of_failure (hfailure : ∃ m ∈ ms.take Size, Fails updateInfo resource m)
    (hstatus : ∃ m ∈ ms, Fails updateInfo resource m ∧ status = updateInfo m)
    (hinside : ∀ i ≥ Size, ResultList' i = ResultList i) :
    Finds updateInfo resource ms Size ResultList ⟨status, ResultList', Size⟩ := by
  obtain ⟨m, hm, hfails, hm'⟩ := hstatus
  have hneg : ¬ 0 ≤ status := by
    have hlt := hfails.2
    omega
  refine ⟨iff_of_false hneg fun h => h.2.2 m hm hfails, fun h => absurd h hneg, fun h => ?_,
    fun _ h => ?_, fun _ => ⟨m, hm, hfails, hm'⟩, hinside⟩
  · rw [h] at hm
    cases hm
  · obtain ⟨m', hm', hfails'⟩ := hfailure
    exact absurd hfails' (h m' hm')

theorem finds_of_updates (hms : ms ≠ []) (hstatus : 0 ≤ status)
    (hupdates : ∀ m ∈ ms.take Size, ¬ Fails updateInfo resource m)
    (hlist : ∀ i, ResultList' i = if i < Size then ms.getD i (ResultList i) else ResultList i) :
    Finds updateInfo resource ms Size ResultList
      (if ms.length > Size then ⟨-EINVAL, ResultList', ms.length⟩
        else ⟨status, ResultList', Size⟩) := by
  have hinside : ∀ i ≥ Size, ResultList' i = ResultList i := fun i hi => by
    rw [hlist i, if_neg (by omega)]
  by_cases hmany : ms.length > Size
  · rw [if_pos hmany]
    refine ⟨iff_of_false neg_EINVAL_lt fun h => absurd h.2.1 (by omega),
      fun h => absurd h neg_EINVAL_lt, fun h => absurd h hms, fun _ _ => ⟨rfl, rfl⟩, ?_, hinside⟩
    rintro ⟨m, hm, hfails⟩
    exact absurd hfails (hupdates m hm)
  · have htake : ms.take Size = ms := take_of_length_le (by omega)
    rw [htake] at hupdates
    rw [if_neg hmany]
    refine ⟨iff_of_true hstatus ⟨hms, by omega, hupdates⟩, fun _ i => ?_, fun h => absurd h hms,
      fun h => absurd h hmany, ?_, hinside⟩
    · change ResultList' i = _
      rw [hlist i]
      split
      · rfl
      · rw [getD_eq_getElem?_getD, getElem?_eq_none (by omega), Option.getD_none]
    · rw [htake]
      rintro ⟨m, hm, hfails⟩
      exact absurd hfails (hupdates m hm)

end

theorem Holds.find (h : Holds link c) (updateInfo : Nat → Int)
    (hfuel : ∀ p, (c p).length < fuel) (Id registry : Nat) (ResultList : Nat → Nat) (Size : Nat) :
    ∃ r, DSPRegistry_Find type link updateInfo fuel Id registry ResultList Size = some r ∧
      Finds updateInfo (DSPData_IsResource Id) (matching type c Id registry) Size ResultList r := by
  rw [DSPRegistry_Find, matching]
  cases hp : FindTargetList type registry Id with
  | none => exact ⟨_, rfl, finds_none⟩
  | some p =>
    have hlinks := h.links p (isHead_of_FindTargetList hp)
    have hloop : findLoop type link updateInfo Id Size fuel (link p) 0 0 ResultList =
        some (scan updateInfo (DSPData_IsResource Id) Size
          ((c p).reverse.filter fun e => type e = Id) 0 0 ResultList) := by
      rw [hlinks.1]
      exact findLoop_eq hlinks.2 (fun e he => h.ne_null p e (mem_reverse.1 he)) fuel
        (by rw [length_reverse]; exact hfuel p) 0 (Int.le_refl 0) 0 ResultList
    dsimp only
    rw [hloop, Option.map_some]
    refine ⟨_, rfl, ?_⟩
    generalize (c p).reverse.filter (fun e => type e = Id) = ms
    generalize DSPData_IsResource Id = resource
    by_cases hfailure : ∃ m ∈ ms.take Size, Fails updateInfo resource m
    · obtain ⟨hstatus, hfound, hle, hinside⟩ := scan_of_failure 0 0 ResultList
        (show ∃ m ∈ ms.take (Size - 0), Fails updateInfo resource m from hfailure)
      generalize scan updateInfo resource Size ms 0 0 ResultList = r at *
      obtain ⟨status, EntriesFound, ResultList'⟩ := r
      dsimp only at *
      rw [if_neg (by omega), if_neg (by omega)]
      exact finds_of_failure hfailure hstatus hinside
    · have hupdates : ∀ m ∈ ms.take Size, ¬ Fails updateInfo resource m := fun m hm hfails =>
        hfailure ⟨m, hm, hfails⟩
      obtain ⟨hok, hcount, hlist⟩ := scan_of_updates ResultList (Int.le_refl 0)
        (show ∀ m ∈ ms.take (Size - 0), ¬ Fails updateInfo resource m from hupdates)
      by_cases hms : ms = []
      · subst hms
        exact finds_none
      · have hlength := mt length_eq_zero_iff.1 hms
        rw [hcount, Nat.zero_add, if_neg hlength]
        refine finds_of_updates hms hok hupdates fun i => ?_
        rw [hlist i]
        simp only [Nat.zero_le, true_and, Nat.sub_zero]

/-- After any additions of entries in no list and any removals, the lists are those of what is
registered, and every search finds the matching entries, the last registered first. -/
theorem registry_finds {type : Nat → Nat} {calls : List RegistryCall}
    (hcalls : ProperCalls type calls fun _ => []) (updateInfo : Nat → Int) (n : Nat) :
    ∃ link, runCalls type (calls.length + n + 1) calls (fun _ => 0) = some link ∧
      Holds link (registered type calls) ∧
      ∀ Id registry ResultList Size, ∃ r,
        DSPRegistry_Find type link updateInfo (calls.length + n + 1) Id registry ResultList Size =
          some r ∧
        Finds updateInfo (DSPData_IsResource Id) (matching type (registered type calls) Id registry)
          Size ResultList r := by
  have hfuel : ∀ p : LinkField, ([] : List Nat).length + calls.length < calls.length + n + 1 :=
    fun _ => by
      rw [length_nil]
      omega
  obtain ⟨link, hrun, h, hlength⟩ := Holds.empty.run hcalls hfuel
  exact ⟨link, hrun, h, fun Id registry ResultList Size =>
    h.find updateInfo hlength Id registry ResultList Size⟩

/-! ### Two streams -/

/-- A registry at address 1; all other objects are streams. -/
def streamsType (a : Nat) : Nat := if a = 1 then QOSDataType_Registry else 6

/-- Two streams are registered. -/
def twoStreams : List RegistryCall := [.add 1 2, .add 1 3]

theorem twoStreams_proper : ProperCalls streamsType twoStreams fun _ => [] := by
  refine ⟨⟨by decide, fun _ => not_mem_nil⟩, ⟨by decide, fun p => ?_⟩, trivial⟩
  change 3 ∉ update (fun _ => []) (LinkField.ResourceRegistry 1) [2] p
  by_cases hp : p = .ResourceRegistry 1
  · rw [hp, update_self]
    decide
  · rw [update_of_ne hp]
    exact not_mem_nil

theorem twoStreams_found : ∃ link, runCalls streamsType 3 twoStreams (fun _ => 0) = some link ∧
    ∃ r, DSPRegistry_Find streamsType link (fun _ => 0) 3 6 1 (fun _ => 0) 2 = some r ∧
      Finds (fun _ => 0) true [3, 2] 2 (fun _ => 0) r := by
  obtain ⟨link, hrun, -, hfind⟩ := registry_finds twoStreams_proper (fun _ => 0) 0
  obtain ⟨r, hr, h⟩ := hfind 6 1 (fun _ => 0) 2
  exact ⟨link, hrun, r, hr, h⟩

/-- A search that lists the matches in the order of their registration, and always tells how many
there are. -/
def FindsInOrder (ms : List Nat) (Size : Nat) (r : FindResult) : Prop :=
  (0 ≤ r.status ↔ ms.length ≤ Size) ∧ r.Size = ms.length ∧
    (0 ≤ r.status → ∀ i m, ms[i]? = some m → r.ResultList i = m)

/-- The stream that was registered first is not the first of the list, the number of matches is not
told where there is room for more, and neither no match nor a failed update is a success. -/
theorem twoStreams_reversed :
    ∃ link, runCalls streamsType 3 twoStreams (fun _ => 0) = some link ∧
      (∃ r, DSPRegistry_Find streamsType link (fun _ => 0) 3 6 1 (fun _ => 0) 2 = some r ∧
        ¬ FindsInOrder [2, 3] 2 r ∧ r.ResultList 0 = 3) ∧
      (∃ r, DSPRegistry_Find streamsType link (fun _ => 0) 3 6 1 (fun _ => 0) 3 = some r ∧
        ¬ FindsInOrder [2, 3] 3 r ∧ r.Size = 3) ∧
      (∃ r, DSPRegistry_Find streamsType link (fun _ => 0) 3 5 1 (fun _ => 0) 2 = some r ∧
        ¬ FindsInOrder [] 2 r ∧ r.status = -ENOENT) ∧
      ∃ r, DSPRegistry_Find streamsType link (fun _ => -1) 3 6 1 (fun _ => 0) 2 = some r ∧
        ¬ FindsInOrder [2, 3] 2 r ∧ r.status = -1 := by
  refine ⟨_, rfl, ⟨_, rfl, fun h => ?_, rfl⟩, ⟨_, rfl, fun h => ?_, rfl⟩,
    ⟨_, rfl, fun h => ?_, rfl⟩, ⟨_, rfl, fun h => ?_, rfl⟩⟩
  · exact absurd (h.2.2 (h.1.2 (by decide)) 0 2 rfl) (by decide)
  · exact absurd h.2.1 (by decide)
  · exact absurd (h.1.2 (by decide)) (by decide)
  · exact absurd (h.1.2 (by decide)) (by decide)

end OmapHal.Qos
