import OmapHal.Dynload.SymbolChains

/-!
# Histories of the symbol table

What purging a module leaves of each chain, and what the table stands for after any sequence of
additions, searches and purges.
-/

namespace OmapHal.Dynload

open OmapHal.Core Function List Nat

variable {s : Symtab} {es : List Entry}

/-! ### Purging -/

/-- The entries of other modules than this one. -/
def keep (id : BitVec 32) (es : List Entry) : List Entry := es.filter fun e => e.moduleid ≠ id

theorem keep_cons (id : BitVec 32) (e : Entry) (es : List Entry) :
    keep id (e :: es) = if e.moduleid = id then keep id es else e :: keep id es := by
  rw [keep, filter_cons]
  by_cases h : e.moduleid = id
  · simp only [h, ne_eq, not_true, decide_false, Bool.false_eq_true, if_false, if_true]
    rfl
  · simp only [h, ne_eq, not_false_iff, decide_true, if_true, if_false]
    rfl

/-- What a walk that purges leaves: a chain without the module's entries, the cells of other chains
as they were, and the heap without the entries' blocks. -/
structure Purged (id : BitVec 32) (before : List Cell) (l : List Entry) (s s' : Symtab) : Prop where
  links : Links s'.link Cell.ref 0 (before ++ (keep id l).map Entry.cell)
  other : ∀ c, c ∉ before → c ∉ l.map Entry.cell → s'.link c = s.link c
  heap_eq : ∀ a, s'.heap a = if ∃ e ∈ l, e.block = a ∧ e.moduleid = id then none else s.heap a
  shift_eq : s'.shift = s.shift

section

variable {id : BitVec 32} {before : List Cell} {l : List Entry} {e : Entry} {p : Cell}
  {s s' : Symtab}

/-- The walk went past an entry of another module. -/
theorem Purged.past (h : Purged id (before ++ [e.cell]) l s s') (hne : e.moduleid ≠ id) :
    Purged id before (e :: l) s s' := by
  refine ⟨?_, fun c hb hc => h.other c ?_ fun hmem => hc (mem_cons_of_mem _ hmem), fun a => ?_,
    h.shift_eq⟩
  · rw [keep_cons, if_neg hne, map_cons]
    have hlinks := h.links
    rw [append_assoc] at hlinks
    exact hlinks
  · rw [mem_append, mem_singleton]
    rintro (hmem | rfl)
    · exact hb hmem
    · exact hc mem_cons_self
  · rw [h.heap_eq a]
    congr 1
    simp only [mem_cons, exists_eq_or_imp, hne, and_false, false_or]

/-- The table after the entry behind a cell was freed and unlinked. -/
def Symtab.unlinking (s : Symtab) (p : Cell) (e : Entry) : Symtab :=
  { s with
    heap := Function.update s.heap e.block none
    link := Function.update s.link p (s.link e.cell) }

/-- The walk took the module's entry behind the last cell out. -/
theorem Purged.taken (h : Purged id (before ++ [p]) l (s.unlinking p e) s')
    (heq : e.moduleid = id) : Purged id (before ++ [p]) (e :: l) s s' := by
  refine ⟨?_, fun c hb hc => ?_, fun a => ?_, h.shift_eq⟩
  · rw [keep_cons, if_pos heq]
    exact h.links
  · have hne : c ≠ p := by
      rintro rfl
      exact hb (mem_append_right before mem_cons_self)
    exact (h.other c hb fun hmem => hc (mem_cons_of_mem _ hmem)).trans
      (update_of_ne hne ..)
  · rw [h.heap_eq a]
    by_cases hrest : ∃ e' ∈ l, e'.block = a ∧ e'.moduleid = id
    · obtain ⟨e', he', hblock⟩ := hrest
      rw [if_pos ⟨e', he', hblock⟩, if_pos ⟨e', mem_cons_of_mem e he', hblock⟩]
    · rw [if_neg hrest]
      by_cases ha : a = e.block
      · rw [if_pos ⟨e, mem_cons_self, ha.symm, heq⟩, ha]
        exact update_self ..
      · rw [if_neg]
        · exact update_of_ne ha ..
        · rintro ⟨e', he', hblock, hid⟩
          rcases mem_cons.1 he' with rfl | he'
          · exact ha hblock.symm
          · exact hrest ⟨e', he', hblock, hid⟩

end

section

variable {id : BitVec 32} {e : Entry} {fuel : Nat}

theorem readLink_cell (hfields : s.heap e.block = some e.fields) :
    s.readLink e.cell = some (s.link e.cell) := by
  have hvalid : s.Valid e.cell := by
    change (s.heap e.block).isSome = true
    rw [hfields]
    rfl
  exact if_pos hvalid

theorem valid_freed {p : Cell} (hp : s.Valid p) (hne : p ≠ e.cell) :
    Symtab.Valid { s with heap := update s.heap e.block none } p := by
  cases p with
  | bucket k => exact hp
  | symbol a =>
    have ha : a ≠ e.block := fun heq => hne (congrArg Cell.symbol heq)
    change (update s.heap e.block none a).isSome = true
    rw [update_of_ne ha]
    exact hp

/-- An entry of the module is freed, and the cell before it gets its link. -/
theorem iterateChain_taken (hfields : s.heap e.block = some e.fields) (hnull : e.block ≠ 0)
    (hid : e.moduleid = id) {p : Cell} (hp : s.Valid p) (hne : p ≠ e.cell) :
    iterateChain (Purge_Symbol id) (fuel + 1) s p e.block =
      iterateChain (Purge_Symbol id) fuel (s.unlinking p e) p (s.link e.cell) := by
  let freed : Symtab := { s with heap := update s.heap e.block none }
  have hpurge : Purge_Symbol id s e.block = some (SYMI_delete, freed) := by
    rw [Purge_Symbol, hfields]
    exact if_pos hid
  have hwrite : freed.writeLink p (s.link e.cell) = some (s.unlinking p e) :=
    if_pos (show freed.Valid p from valid_freed hp hne)
  have hdelete : ¬ SYMI_delete = 0 ∧ ¬ SYMI_delete &&& SYMI_delete = 0 ∧
      SYMI_delete &&& SYMI_terminate = 0 := by decide
  rw [iterateChain, if_neg hnull]
  change (s.readLink e.cell).bind _ = _
  rw [readLink_cell hfields, Option.bind_some, hpurge]
  simp only [Option.bind_eq_bind, Option.bind_some, ne_eq, hdelete.1, hdelete.2.1, hdelete.2.2,
    not_true, not_false_iff, if_true, if_false, hwrite]

/-- An entry of another module is gone past. -/
theorem iterateChain_past (hfields : s.heap e.block = some e.fields) (hnull : e.block ≠ 0)
    (hid : e.moduleid ≠ id) (p : Cell) :
    iterateChain (Purge_Symbol id) (fuel + 1) s p e.block =
      iterateChain (Purge_Symbol id) fuel s e.cell (s.link e.cell) := by
  have hpurge : Purge_Symbol id s e.block = some (SYMI_continue, s) := by
    rw [Purge_Symbol, hfields]
    exact if_neg hid
  rw [iterateChain, if_neg hnull]
  change (s.readLink e.cell).bind _ = _
  rw [readLink_cell hfields, Option.bind_some, hpurge]
  rfl

end

theorem iterateChain_purge (id : BitVec 32) {l : List Entry} {p : Cell} {l₁ : List Cell}
    (hlinks : Links s.link Cell.ref 0 (l₁ ++ p :: l.map Entry.cell))
    (hnodup : (l₁ ++ p :: l.map Entry.cell).Nodup) (hp : s.Valid p)
    (hstored : ∀ e ∈ l, s.heap e.block = some e.fields) (hnull : ∀ e ∈ l, e.block ≠ 0) {fuel : Nat}
    (hfuel : l.length < fuel) :
    ∃ s', iterateChain (Purge_Symbol id) fuel s p (entry Cell.ref 0 (l.map Entry.cell)) =
        some (s', false) ∧ Purged id (l₁ ++ [p]) l s s' := by
  induction l generalizing s p l₁ fuel with
  | nil =>
    obtain ⟨fuel, rfl⟩ : ∃ n, fuel = n + 1 := ⟨fuel - 1, by simp at hfuel; omega⟩
    refine ⟨s, rfl, ⟨?_, fun c _ _ => rfl, fun a => ?_, rfl⟩⟩
    · rw [append_assoc]
      exact hlinks
    · rw [if_neg]
      rintro ⟨e, he, -⟩
      cases he
  | cons e l ih =>
    obtain ⟨fuel, rfl⟩ : ∃ n, fuel = n + 1 := ⟨fuel - 1, by simp at hfuel; omega⟩
    have hfields := hstored e mem_cons_self
    have hnullHead := hnull e mem_cons_self
    have hrest : ∀ e' ∈ l, s.heap e'.block = some e'.fields := fun e' he' =>
      hstored e' (mem_cons_of_mem e he')
    have hnullRest : ∀ e' ∈ l, e'.block ≠ 0 := fun e' he' => hnull e' (mem_cons_of_mem e he')
    have hfuelRest : l.length < fuel := lt_of_succ_lt_succ hfuel
    have hafter : l₁ ++ p :: e.cell :: l.map Entry.cell =
        (l₁ ++ [p]) ++ e.cell :: l.map Entry.cell := by simp
    rw [map_cons] at hlinks hnodup ⊢
    have hnext : s.link e.cell = entry Cell.ref 0 (l.map Entry.cell) := by
      rw [hafter] at hlinks
      exact hlinks.next
    have happart := (nodup_append.1 hnodup).2
    have hpl : p ∉ e.cell :: l.map Entry.cell := (nodup_cons.1 happart.1).1
    have hel : e.cell ∉ l.map Entry.cell :=
      (nodup_cons.1 (nodup_cons.1 happart.1).2).1
    change ∃ s', iterateChain (Purge_Symbol id) (fuel + 1) s p e.block = _ ∧ _
    by_cases hid : e.moduleid = id
    · have hne : p ≠ e.cell := fun heq => hpl (heq ▸ mem_cons_self)
      have hlink : ∀ c, c ≠ p → (s.unlinking p e).link c = s.link c := fun c hc =>
        update_of_ne hc ..
      have hblock : ∀ e' ∈ l, e'.block ≠ e.block := fun e' he' heq =>
        hel (mem_map.2 ⟨e', he', congrArg Cell.symbol heq⟩)
      have hunlinked : Links (s.unlinking p e).link Cell.ref 0 (l₁ ++ p :: l.map Entry.cell) :=
        hlinks.unlink (update_self ..)
          (fun c hc => hlink c fun heq => happart.2 c hc p mem_cons_self heq)
          fun c hc => hlink c fun heq => hpl (heq ▸ mem_cons_of_mem _ hc)
      rw [iterateChain_taken hfields hnullHead hid hp hne, hnext]
      obtain ⟨s', hrun, hpurged⟩ := ih hunlinked (hnodup.sublist (by simp))
        (show Symtab.Valid _ p from valid_freed hp hne)
        (fun e' he' => (update_of_ne (hblock e' he') ..).trans (hrest e' he'))
        hnullRest hfuelRest
      exact ⟨s', hrun, hpurged.taken hid⟩
    · rw [iterateChain_past hfields hnullHead hid, hnext]
      rw [hafter] at hlinks hnodup
      obtain ⟨s', hrun, hpurged⟩ := ih hlinks hnodup (by
        change (s.heap e.block).isSome = true
        rw [hfields]
        rfl) hrest hnullRest hfuelRest
      exact ⟨s', hrun, hpurged.past hid⟩

/-- The entries without a module's ones in one bucket. -/
def purgeBucket (id : BitVec 32) (k : Nat) (es : List Entry) : List Entry :=
  es.filter fun e => ¬ (bucketOf e.name = k ∧ e.moduleid = id)

/-- The entries without a module's ones in the buckets below `k`. -/
def purgeBelow (id : BitVec 32) (k : Nat) (es : List Entry) : List Entry :=
  es.filter fun e => ¬ (bucketOf e.name < k ∧ e.moduleid = id)

theorem mem_purgeBucket {id : BitVec 32} {k : Nat} {e : Entry} :
    e ∈ purgeBucket id k es ↔ e ∈ es ∧ ¬ (bucketOf e.name = k ∧ e.moduleid = id) := by
  rw [purgeBucket, mem_filter, decide_eq_true_eq]

theorem purgeBelow_zero (id : BitVec 32) (es : List Entry) : purgeBelow id 0 es = es :=
  filter_eq_self.2 fun _ _ => decide_eq_true fun h => not_lt_zero _ h.1

theorem purgeBelow_all (id : BitVec 32) (es : List Entry) :
    purgeBelow id (2 ^ LSYM_LOGTBLLEN) es = keep id es := by
  refine filter_congr fun e _ => ?_
  simp only [bucketOf_lt, true_and, ne_eq]

theorem purgeBelow_succ (id : BitVec 32) (k : Nat) (es : List Entry) :
    purgeBelow id (k + 1) es = purgeBucket id k (purgeBelow id k es) := by
  rw [purgeBucket, purgeBelow, purgeBelow, filter_filter]
  refine filter_congr fun e _ => ?_
  rw [← Bool.decide_and, decide_eq_decide]
  constructor
  · intro hn
    exact ⟨fun h => hn ⟨by omega, h.2⟩, fun h => hn ⟨by omega, h.2⟩⟩
  · rintro ⟨hk, hbelow⟩ h
    rcases Nat.lt_succ_iff_lt_or_eq.1 h.1 with hlt | heq
    · exact hbelow ⟨hlt, h.2⟩
    · exact hk ⟨heq, h.2⟩

theorem bucketEntries_purgeBucket (id : BitVec 32) (k : Nat) (es : List Entry) :
    bucketEntries k (purgeBucket id k es) = keep id (bucketEntries k es) := by
  rw [bucketEntries, purgeBucket, keep, bucketEntries, filter_filter, filter_filter]
  refine filter_congr fun e _ => ?_
  rw [← Bool.decide_and, ← Bool.decide_and, decide_eq_decide]
  exact ⟨fun h => ⟨fun hid => h.2 ⟨h.1, hid⟩, h.1⟩, fun h => ⟨h.2, fun hid => h.1 hid.2⟩⟩

theorem bucketEntries_purgeBucket_of_ne {j k : Nat} (hjk : j ≠ k) (id : BitVec 32)
    (es : List Entry) : bucketEntries j (purgeBucket id k es) = bucketEntries j es := by
  rw [bucketEntries, purgeBucket, bucketEntries, filter_filter]
  refine filter_congr fun e _ => ?_
  rw [← Bool.decide_and, decide_eq_decide]
  exact ⟨fun h => h.1, fun h => ⟨h, fun hk => hjk (h.symm.trans hk.1)⟩⟩

/-- The cells of a chain are different. -/
theorem Represents.nodup_chain (h : Represents s es) (k : Nat) : (chain k es).Nodup := by
  rw [chain, nodup_cons]
  refine ⟨fun hmem => ?_, ?_⟩
  · obtain ⟨e, -, heq⟩ := mem_map.1 hmem
    cases heq
  · have hblocks : ((bucketEntries k es).map Entry.block).Nodup :=
      h.nodup.sublist (filter_sublist.map _)
    have hmap : (bucketEntries k es).map Entry.cell =
        ((bucketEntries k es).map Entry.block).map Cell.symbol := by
      rw [map_map]
      rfl
    rw [hmap]
    exact hblocks.map fun a b heq => Cell.symbol.inj heq

/-- A round of the outer loop. -/
theorem Represents.purgeRound (h : Represents s es) {k : Nat} (hk : k < 2 ^ LSYM_LOGTBLLEN)
    {fuel : Nat} (hfuel : es.length < fuel) (id : BitVec 32) :
    ∃ s', iterateChain (Purge_Symbol id) fuel s (.bucket k)
        (entry Cell.ref 0 ((bucketEntries k es).map Entry.cell)) = some (s', false) ∧
      Represents s' (purgeBucket id k es) := by
  obtain ⟨s', hrun, hlinks, hother, hheap, hshift⟩ := @iterateChain_purge s id
    (bucketEntries k es) (.bucket k) [] (h.links k hk) (h.nodup_chain k) hk
    (fun e he => h.stored e (mem_of_mem_bucketEntries he))
    (fun e he => h.ne_null e (mem_of_mem_bucketEntries he)) fuel
    (lt_of_le_of_lt (length_bucketEntries_le k es) hfuel)
  have hinj := inj_on_of_nodup_map h.nodup
  refine ⟨s', hrun, hshift.trans h.shift_eq, fun j hj => ?_, fun e he => ?_, fun a ha => ?_,
    h.nodup.sublist (filter_sublist.map _), fun e he => h.ne_null e (mem_of_mem_filter he)⟩
  · by_cases hjk : j = k
    · subst hjk
      rw [chain, bucketEntries_purgeBucket]
      exact hlinks
    · rw [chain, bucketEntries_purgeBucket_of_ne hjk]
      refine (h.links j hj).congr (fun c hc => ?_) fun _ _ => rfl
      have hck := h.notMem_chain hjk hc
      rw [chain, mem_cons, not_or] at hck
      exact hother c (fun hmem => hck.1 (mem_singleton.1 hmem)) hck.2
  · obtain ⟨he, hn⟩ := mem_purgeBucket.1 he
    rw [hheap e.block, if_neg]
    · exact h.stored e he
    · rintro ⟨e', he', hblock, hid⟩
      obtain rfl := hinj (mem_of_mem_bucketEntries he') he hblock
      exact hn ⟨bucketOf_of_mem he', hid⟩
  · rw [hheap a] at ha
    split at ha
    · exact absurd rfl ha
    · rename_i hnone
      obtain ⟨e, he, hblock⟩ := h.allocated a ha
      refine ⟨e, mem_purgeBucket.2 ⟨he, fun hk => hnone ⟨e, ?_, hblock, hk.2⟩⟩, hblock⟩
      exact mem_filter.2 ⟨he, decide_eq_true hk.1⟩

theorem Represents.purgeBuckets {id : BitVec 32} {cnt k : Nat} (hcnt : k + cnt = 2 ^ LSYM_LOGTBLLEN)
    (h : Represents s (purgeBelow id k es)) {fuel : Nat} (hfuel : es.length < fuel) :
    ∃ s', iterateBuckets fuel (Purge_Symbol id) cnt k s = some s' ∧ Represents s' (keep id es) := by
  induction cnt generalizing s k with
  | zero =>
    obtain rfl : k = 2 ^ LSYM_LOGTBLLEN := by omega
    rw [purgeBelow_all] at h
    exact ⟨s, rfl, h⟩
  | succ cnt ih =>
    have hk : k < 2 ^ LSYM_LOGTBLLEN := by omega
    obtain ⟨s', hround, h'⟩ := h.purgeRound hk
      (lt_of_le_of_lt (length_filter_le _ _) hfuel) id
    rw [← purgeBelow_succ] at h'
    obtain ⟨s'', hrest, h''⟩ := ih (by omega) h'
    refine ⟨s'', ?_, h''⟩
    rw [iterateBuckets, h.readBucket hk]
    change (iterateChain (Purge_Symbol id) fuel s (.bucket k) _).bind _ = _
    rw [hround]
    exact hrest

/-- `DLsym_Purge_Symbol_Table` takes the module's symbols out and keeps the others. -/
theorem Represents.purge (h : Represents s es) {fuel : Nat} (hfuel : es.length < fuel)
    (id : BitVec 32) :
    ∃ s', DLsym_Purge_Symbol_Table fuel s id = some s' ∧ Represents s' (keep id es) := by
  have hcount : (if (BitVec.allOnes 32 >>> (27 : BitVec 32).toNat) + 1 = 0 then 2 ^ 32
      else ((BitVec.allOnes 32 >>> (27 : BitVec 32).toNat) + 1).toNat) = 2 ^ LSYM_LOGTBLLEN := by
    decide
  rw [DLsym_Purge_Symbol_Table, Iterate_Symbols, h.shift_eq]
  rw [hcount]
  rw [← purgeBelow_zero id es] at h
  exact h.purgeBuckets (zero_add _) hfuel

/-! ### Histories -/

/-- The symbols that were added and not purged, newest first. -/
def standing : List SymbolCall → List Entry → List Entry
  | [], es => es
  | .add nname moduleid block :: calls, es =>
    standing calls
      (if block ≠ 0 ∧ block ∉ es.map Entry.block then ⟨block, nname, moduleid⟩ :: es else es)
  | .find _ :: calls, es => standing calls es
  | .purge moduleid :: calls, es => standing calls (es.filter fun e => e.moduleid ≠ moduleid)

theorem Represents.fresh (garbage : Symtab) : Represents garbage.fresh [] := by
  refine ⟨rfl, fun k hk => ⟨?_, trivial⟩, fun e he => (nomatch he), fun a ha => absurd rfl ha,
    nodup_nil, fun e he => (nomatch he)⟩
  exact if_pos hk

theorem Represents.heap_eq_none_iff (h : Represents s es) (a : Addr) :
    s.heap a = none ↔ a ∉ es.map Entry.block := by
  constructor
  · intro hnone hmem
    obtain ⟨e, he, rfl⟩ := mem_map.1 hmem
    rw [h.stored e he] at hnone
    cases hnone
  · intro hmem
    by_contra hsome
    obtain ⟨e, he, rfl⟩ := h.allocated a hsome
    exact hmem (mem_map_of_mem he)

/-- One call keeps the table standing for the symbols. -/
theorem Represents.apply (h : Represents s es) {fuel : Nat} (hfuel : es.length < fuel)
    (call : SymbolCall) :
    ∃ s', call.apply fuel s = some s' ∧ Represents s' (standing [call] es) := by
  cases call with
  | find name =>
    refine ⟨_, ?_, h.remembering (BitVec.ofNat 32 name.chars.length) (hashKey 27 name)⟩
    rw [SymbolCall.apply, h.find hfuel]
    rfl
  | purge moduleid => exact h.purge hfuel moduleid
  | add nname moduleid block =>
    rw [SymbolCall.apply, DLsym_Add_To_Symbol_Table, standing, standing]
    by_cases hgrant : block ≠ 0 ∧ block ∉ es.map Entry.block
    · have hfree := (h.heap_eq_none_iff block).2 hgrant.2
      have hmalloc : s.malloc block = block := if_pos hfree
      have hadd := h.add_eq hfuel ⟨block, nname, moduleid⟩
      rw [if_pos hgrant, hmalloc, if_neg hgrant.1]
      change ∃ s', ((Add_To_Symbol_Table fuel s block nname moduleid).bind _).map _ = _ ∧ _
      rw [hadd]
      exact ⟨_, rfl, (h.remembering _ _).adding hfree hgrant.1⟩
    · have hmalloc : s.malloc block = 0 := by
        by_cases hfree : s.heap block = none
        · have hnull : block = 0 := by
            by_contra hne
            exact hgrant ⟨hne, (h.heap_eq_none_iff block).1 hfree⟩
          exact (if_pos hfree).trans hnull
        · exact if_neg hfree
      rw [if_neg hgrant, hmalloc]
      exact ⟨s, rfl, h⟩

theorem length_standing_le (call : SymbolCall) (es : List Entry) :
    (standing [call] es).length ≤ es.length + 1 := by
  cases call with
  | find name => exact le_succ _
  | purge moduleid => exact le_succ_of_le (length_filter_le _ _)
  | add nname moduleid block =>
    rw [standing, standing]
    split
    · exact le_refl _
    · exact le_succ _

theorem standing_cons (call : SymbolCall) (calls : List SymbolCall) (es : List Entry) :
    standing (call :: calls) es = standing calls (standing [call] es) := by
  cases call <;> rfl

/-- Any run of calls keeps the table standing for the symbols. -/
theorem Represents.run (h : Represents s es) {calls : List SymbolCall} {fuel : Nat}
    (hfuel : es.length + calls.length < fuel) :
    ∃ s', Symtab.run fuel calls s = some s' ∧ Represents s' (standing calls es) := by
  induction calls generalizing s es with
  | nil => exact ⟨s, rfl, h⟩
  | cons call calls ih =>
    rw [length_cons] at hfuel
    have hhere : es.length < fuel := by omega
    obtain ⟨s', hcall, h'⟩ := h.apply hhere call
    have hlength := length_standing_le call es
    obtain ⟨s'', hrest, h''⟩ := ih h' (by omega)
    refine ⟨s'', ?_, ?_⟩
    · rw [Symtab.run, hcall]
      exact hrest
    · rw [standing_cons]
      exact h''

/-- A table stands for these symbols as its clients see it: the newest symbol of each name is found,
and the blocks of the symbols are the ones that are allocated. -/
def Serves (fuel : Nat) (s : Symtab) (es : List Entry) : Prop :=
  (∀ name, ∃ s', Find_Matching_Symbol fuel s name = some (s', newest es name)) ∧
    ∀ a, s.heap a ≠ none ↔ a ∈ es.map Entry.block

theorem Represents.serves (h : Represents s es) {fuel : Nat} (hfuel : es.length < fuel) :
    Serves fuel s es :=
  ⟨fun name => ⟨_, h.find hfuel name⟩, fun a => (not_congr (h.heap_eq_none_iff a)).trans not_not⟩

theorem length_standing_calls_le (calls : List SymbolCall) (es : List Entry) :
    (standing calls es).length ≤ es.length + calls.length := by
  induction calls generalizing es with
  | nil => exact le_refl _
  | cons call calls ih =>
    have hrest := ih (standing [call] es)
    have hlength := length_standing_le call es
    rw [standing_cons, length_cons]
    omega

/-- After any calls the table returns from a search with the newest symbol of the name that was
added and not purged, and a purge takes out the symbols of the module and no others. -/
theorem symbolTable_serves (garbage : Symtab) (calls : List SymbolCall) (n : Nat) :
    ∃ s, Symtab.run (calls.length + n + 1) calls garbage.fresh = some s ∧
      Serves (calls.length + n + 1) s (standing calls []) ∧
      ∀ id, ∃ s', DLsym_Purge_Symbol_Table (calls.length + n + 1) s id = some s' ∧
        Serves (calls.length + n + 1) s'
          ((standing calls []).filter fun e => e.moduleid ≠ id) := by
  have hlength := length_standing_calls_le calls []
  rw [length_nil, zero_add] at hlength
  have hfuel : (standing calls []).length < calls.length + n + 1 := by omega
  have hrunFuel : ([] : List Entry).length + calls.length < calls.length + n + 1 := by
    rw [length_nil]
    omega
  obtain ⟨s, hrun, h⟩ := (Represents.fresh garbage).run hrunFuel
  refine ⟨s, hrun, h.serves hfuel, fun id => ?_⟩
  obtain ⟨s', hpurge, h'⟩ := h.purge hfuel id
  exact ⟨s', hpurge, h'.serves (lt_of_le_of_lt (length_filter_le _ _) hfuel)⟩

end OmapHal.Dynload
