import OmapHal.Dynload.SymbolTable

/-!
# Chains of the symbol table

The table stands for the list of the symbols that were added and not purged, newest first. Each
bucket's chain holds those of the list that hash to it, in the list's order.
-/

namespace OmapHal.Dynload

open OmapHal.Core Function List

/-- A symbol that a client added. -/
structure Entry where
  block : Addr
  name : Name
  moduleid : BitVec 32
  deriving DecidableEq

namespace Entry

/-- The cell that links the symbol's block on. -/
def cell (e : Entry) : Cell := .symbol e.block

/-- What is stored for the symbol. -/
def fields (e : Entry) : SymbolNode := ⟨e.name, e.moduleid, BitVec.ofNat 32 e.name.chars.length⟩

end Entry

/-- What a link to a cell holds. Nothing links to the head of a bucket. -/
def Cell.ref : Cell → Addr
  | .bucket _ => 0
  | .symbol a => a

/-- The entries of a bucket. -/
def bucketEntries (k : Nat) (es : List Entry) : List Entry :=
  es.filter fun e => bucketOf e.name = k

/-- The newest symbol of that name, or `NULL`. -/
def newest (es : List Entry) (name : Name) : Addr :=
  ((es.find? fun e => e.name = name).map Entry.block).getD 0

/-- A bucket's head and the symbols behind it, in order. -/
def chain (k : Nat) (es : List Entry) : List Cell :=
  .bucket k :: (bucketEntries k es).map Entry.cell

/-- The table holds these symbols and no others. -/
structure Represents (s : Symtab) (es : List Entry) : Prop where
  shift_eq : s.shift = 27
  links : ∀ k < 2 ^ LSYM_LOGTBLLEN, Links s.link Cell.ref 0 (chain k es)
  stored : ∀ e ∈ es, s.heap e.block = some e.fields
  allocated : ∀ a, s.heap a ≠ none → ∃ e ∈ es, e.block = a
  nodup : (es.map Entry.block).Nodup
  ne_null : ∀ e ∈ es, e.block ≠ 0

variable {s : Symtab} {es : List Entry} {name : Name}

/-! ### Walking along a chain -/

theorem newest_cons (e : Entry) (l : List Entry) :
    newest (e :: l) name = if e.name = name then e.block else newest l name := by
  rw [newest, find?_cons]
  by_cases h : e.name = name
  · rw [if_pos h, decide_eq_true h]
    rfl
  · rw [if_neg h, decide_eq_false h]
    rfl

/-- The newest symbol of a name is the newest one of its bucket. -/
theorem newest_bucketEntries (es : List Entry) (name : Name) :
    newest (bucketEntries (bucketOf name) es) name = newest es name := by
  rw [newest, newest, bucketEntries, find?_filter]
  refine congrArg (fun p => ((es.find? p).map Entry.block).getD 0) (funext fun e => ?_)
  by_cases h : e.name = name
  · simp [h]
  · simp [h]

theorem findLoop_links (name : Name) {l : List Entry}
    (hlinks : Links s.link Cell.ref 0 (l.map Entry.cell))
    (hstored : ∀ e ∈ l, s.heap e.block = some e.fields) (hnull : ∀ e ∈ l, e.block ≠ 0) {fuel : Nat}
    (hfuel : l.length < fuel) :
    findLoop s name (BitVec.ofNat 32 name.chars.length) fuel
      (entry Cell.ref 0 (l.map Entry.cell)) = some (newest l name) := by
  induction l generalizing fuel with
  | nil =>
    obtain ⟨fuel, rfl⟩ : ∃ n, fuel = n + 1 := ⟨fuel - 1, by simp at hfuel; omega⟩
    rfl
  | cons e l ih =>
    obtain ⟨fuel, rfl⟩ : ∃ n, fuel = n + 1 := ⟨fuel - 1, by simp at hfuel; omega⟩
    have hrest := ih hlinks.2 (fun e' he => hstored e' (mem_cons_of_mem e he))
      (fun e' he => hnull e' (mem_cons_of_mem e he))
      (Nat.lt_of_succ_lt_succ hfuel)
    rw [← hlinks.1] at hrest
    rw [map_cons, entry_cons, newest_cons, Entry.cell, Cell.ref, findLoop,
      if_neg (hnull e mem_cons_self), hstored e mem_cons_self]
    dsimp only [Entry.fields]
    by_cases hlen : name.chars.length = e.name.chars.length
    · have hcompare := compareNames_eq hlen (d := name.chars.length) (i := 0) (Nat.zero_add _)
      rw [drop_zero, drop_zero] at hcompare
      rw [if_pos (length_eq_iff.2 hlen), hcompare]
      by_cases hname : e.name = name
      · rw [if_pos hname, hname, decide_eq_true rfl]
      · have hchars : name.chars ≠ e.name.chars := fun h => hname (Name.ext h.symm)
        rw [if_neg hname, decide_eq_false hchars]
        exact hrest
    · have hname : e.name ≠ name := fun h => hlen (by rw [h])
      rw [if_neg fun h => hlen (length_eq_iff.1 h), if_neg hname]
      exact hrest

theorem Represents.readBucket (h : Represents s es) {k : Nat} (hk : k < 2 ^ LSYM_LOGTBLLEN) :
    s.readLink (.bucket k) = some (entry Cell.ref 0 ((bucketEntries k es).map Entry.cell)) := by
  rw [Symtab.readLink, if_pos (show s.Valid (.bucket k) from hk), (h.links k hk).1]

theorem length_bucketEntries_le (k : Nat) (es : List Entry) :
    (bucketEntries k es).length ≤ es.length :=
  length_filter_le _ _

theorem mem_of_mem_bucketEntries {k : Nat} {e : Entry} (h : e ∈ bucketEntries k es) : e ∈ es :=
  mem_of_mem_filter h

theorem bucketOf_of_mem {k : Nat} {e : Entry} (h : e ∈ bucketEntries k es) :
    bucketOf e.name = k := by
  rw [bucketEntries, mem_filter] at h
  exact of_decide_eq_true h.2

/-- The table with a length and a bucket remembered. -/
def Symtab.remembering (s : Symtab) (last_length hash_key : BitVec 32) : Symtab :=
  { s with last_length, hash_key }

/-- What is remembered is no part of what the table stands for. -/
theorem Represents.remembering (h : Represents s es) (last_length hash_key : BitVec 32) :
    Represents (s.remembering last_length hash_key) es :=
  { h with }

/-- `Find_Matching_Symbol` finds the newest symbol of the name. -/
theorem Represents.find (h : Represents s es) {fuel : Nat} (hfuel : es.length < fuel)
    (name : Name) :
    Find_Matching_Symbol fuel s name = some
      (s.remembering (BitVec.ofNat 32 name.chars.length) (hashKey 27 name), newest es name) := by
  have hshift : hashKey s.shift name = hashKey 27 name := by rw [h.shift_eq]
  have hbucket : (hashKey 27 name).toNat = bucketOf name := rfl
  rw [Find_Matching_Symbol, hshift]
  generalize hashKey 27 name = key at *
  have h' := h.remembering (BitVec.ofNat 32 name.chars.length) key
  have hread := h'.readBucket (bucketOf_lt name)
  have hwalk := findLoop_links name (h'.links _ (bucketOf_lt name)).2
    (fun e he => h'.stored e (mem_of_mem_bucketEntries he))
    (fun e he => h'.ne_null e (mem_of_mem_bucketEntries he))
    (Nat.lt_of_le_of_lt (length_bucketEntries_le _ _) hfuel)
  rw [newest_bucketEntries] at hwalk
  change ((s.remembering _ key).readLink (.bucket key.toNat)).bind (fun sptr =>
    (findLoop (s.remembering _ key) name _ fuel sptr).bind fun found =>
      some (s.remembering _ key, found)) = _
  rw [hbucket, hread, Option.bind_some, hwalk, Option.bind_some]

/-! ### Adding -/

/-- Cells of different entries or buckets are different. -/
theorem Represents.notMem_chain (h : Represents s es) {j k : Nat} (hjk : j ≠ k) {c : Cell}
    (hc : c ∈ chain j es) : c ∉ chain k es := by
  have hinj := inj_on_of_nodup_map h.nodup
  intro hck
  rcases mem_cons.1 hc with rfl | hc
  · rcases mem_cons.1 hck with heq | hck
    · exact hjk (Cell.bucket.inj heq)
    · obtain ⟨e, -, he⟩ := mem_map.1 hck
      cases he
  · obtain ⟨e, hej, rfl⟩ := mem_map.1 hc
    rcases mem_cons.1 hck with heq | hck
    · cases heq
    · obtain ⟨e', hek, heq⟩ := mem_map.1 hck
      obtain rfl := hinj (mem_of_mem_bucketEntries hek) (mem_of_mem_bucketEntries hej)
        (Cell.symbol.inj heq)
      exact hjk ((bucketOf_of_mem hej).symm.trans (bucketOf_of_mem hek))

theorem bucketEntries_cons (k : Nat) (e : Entry) (es : List Entry) :
    bucketEntries k (e :: es) =
      if bucketOf e.name = k then e :: bucketEntries k es else bucketEntries k es := by
  rw [bucketEntries, filter_cons]
  simp only [decide_eq_true_eq]
  rfl

/-- The table after an entry was put at the head of its bucket. -/
def Symtab.adding (s : Symtab) (e : Entry) : Symtab :=
  { s with
    heap := Function.update s.heap e.block (some e.fields)
    link := Function.update (Function.update s.link e.cell (s.link (.bucket (bucketOf e.name))))
      (.bucket (bucketOf e.name)) e.block }

theorem Represents.add_eq (h : Represents s es) {fuel : Nat} (hfuel : es.length < fuel)
    (e : Entry) :
    Add_To_Symbol_Table fuel s e.block e.name e.moduleid = some
      ((s.remembering (BitVec.ofNat 32 e.name.chars.length) (hashKey 27 e.name)).adding e) := by
  have hbucket : (hashKey 27 e.name).toNat = bucketOf e.name := rfl
  have hlt := bucketOf_lt e.name
  rw [Add_To_Symbol_Table, h.find hfuel]
  generalize hashKey 27 e.name = key at *
  have h' := h.remembering (BitVec.ofNat 32 e.name.chars.length) key
  generalize hs : s.remembering (BitVec.ofNat 32 e.name.chars.length) key = t at *
  have hkey : t.hash_key.toNat = bucketOf e.name := by rw [← hs]; exact hbucket
  have hfields : (⟨e.name, e.moduleid, t.last_length⟩ : SymbolNode) = e.fields := by rw [← hs]; rfl
  have hread : t.readLink (.bucket (bucketOf e.name)) = some (t.link (.bucket (bucketOf e.name))) :=
    if_pos hlt
  let allocated : Symtab :=
    { t with heap := update t.heap e.block (some ⟨e.name, e.moduleid, t.last_length⟩) }
  have hvalid : allocated.Valid e.cell := by
    change (update t.heap e.block (some _) e.block).isSome = true
    rw [update_self]
    rfl
  change (t.readLink (.bucket t.hash_key.toNat)).bind _ = _
  rw [hkey, hread, Option.bind_some]
  change (allocated.writeLink e.cell _).bind
    (fun s => s.writeLink (.bucket (bucketOf e.name)) e.block) = _
  rw [Symtab.writeLink, if_pos hvalid, Option.bind_some, Symtab.writeLink, Symtab.adding, ← hfields]
  exact if_pos hlt

/-- A new entry, whose block is not in use. -/
theorem Represents.adding (h : Represents s es) {e : Entry} (hfree : s.heap e.block = none)
    (hnull : e.block ≠ 0) : Represents (s.adding e) (e :: es) := by
  have hnew : ∀ e' ∈ es, e'.block ≠ e.block := fun e' he' heq => by
    have hstored := h.stored e' he'
    rw [heq, hfree] at hstored
    cases hstored
  have hcell : ∀ k, e.cell ∉ chain k es := by
    intro k hk
    rcases mem_cons.1 hk with heq | hk
    · cases heq
    · obtain ⟨e', he', heq⟩ := mem_map.1 hk
      exact hnew e' (mem_of_mem_bucketEntries he') (Cell.symbol.inj heq)
  refine ⟨h.shift_eq, fun k hk => ?_, fun e' he' => ?_, fun a ha => ?_, ?_, fun e' he' => ?_⟩
  · rw [chain, bucketEntries_cons]
    by_cases hbucket : bucketOf e.name = k
    · rw [if_pos hbucket, map_cons]
      subst hbucket
      refine (h.links _ hk).pushed (fun hmem => ?_) (hcell _)
      obtain ⟨e', -, he'⟩ := mem_map.1 hmem
      cases he'
    · rw [if_neg hbucket]
      exact (h.links k hk).pushed_apart (h.notMem_chain hbucket mem_cons_self) (hcell k)
  · rcases mem_cons.1 he' with rfl | he'
    · exact update_self ..
    · exact (update_of_ne (hnew e' he') ..).trans (h.stored e' he')
  · by_cases hblock : a = e.block
    · exact ⟨e, mem_cons_self, hblock.symm⟩
    · have hold : (s.adding e).heap a = s.heap a := update_of_ne hblock ..
      rw [hold] at ha
      obtain ⟨e', he', heq⟩ := h.allocated a ha
      exact ⟨e', mem_cons_of_mem e he', heq⟩
  · rw [map_cons, nodup_cons]
    refine ⟨fun hmem => ?_, h.nodup⟩
    obtain ⟨e', he', heq⟩ := mem_map.1 hmem
    exact hnew e' he' heq
  · rcases mem_cons.1 he' with rfl | he'
    · exact hnull
    · exact h.ne_null e' he'

end OmapHal.Dynload
