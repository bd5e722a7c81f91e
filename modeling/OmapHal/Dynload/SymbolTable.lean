import OmapHal.Core.Links
import Mathlib.Data.BitVec

/-!
# The loader's symbol table

`DLsymtab_support.c` and the entries of `DLsymtab.c`. The buckets are intrusive lists, whose heads
in `mytable` are written like the links of symbols. Each operation has fuel for its walks along a
chain; it gives nothing when that runs out, and when it reads memory that is not allocated.
-/

namespace OmapHal.Dynload

open BitVec List

/-- The address of a block; 0 is `NULL`. -/
abbrev Addr := BitVec 32

/-- A C string: no byte of it is zero, and the difference of pointers measures it with its end. -/
@[ext] structure Name where
  chars : List UInt8
  zero_notMem : (0 : UInt8) ∉ chars
  length_lt : chars.length + 1 < 2 ^ 31
  deriving DecidableEq

/-- A place of a link: the head of a bucket in `mytable`, or the first field of a symbol. -/
inductive Cell where
  | bucket (k : Nat)
  | symbol (a : Addr)
  deriving DecidableEq

/-- The fields of `struct symbol` behind `link`. -/
structure SymbolNode where
  name : Name
  versn : BitVec 32
  length : BitVec 32

/-- `struct symtab` with the symbols that are allocated. `mytable[0]` holds the shift count. -/
structure Symtab where
  shift : BitVec 32
  link : Cell → Addr
  hash_key : BitVec 32
  last_length : BitVec 32
  heap : Addr → Option SymbolNode

def LSYM_LOGTBLLEN : Nat := 5

def AVALUE : BitVec 32 := 1315424652

def KEYSHIFT : Nat := 4

def SYMI_continue : BitVec 32 := 0

def SYMI_delete : BitVec 32 := 1

def SYMI_terminate : BitVec 32 := 2

/-- A character of a string or the zero behind it. -/
def Name.char? (name : Name) (i : Nat) : Option UInt8 := (name.chars ++ [0])[i]?

namespace Symtab

/-- A cell is in the table or in an allocated symbol. -/
def Valid (s : Symtab) : Cell → Prop
  | .bucket k => k < 2 ^ LSYM_LOGTBLLEN
  | .symbol a => (s.heap a).isSome

instance (s : Symtab) : DecidablePred s.Valid
  | .bucket k => inferInstanceAs (Decidable (k < _))
  | .symbol a => inferInstanceAs (Decidable ((s.heap a).isSome = true))

def readLink (s : Symtab) (c : Cell) : Option Addr := if s.Valid c then some (s.link c) else none

def writeLink (s : Symtab) (c : Cell) (a : Addr) : Option Symtab :=
  if s.Valid c then some { s with link := Function.update s.link c a } else none

/-- `malloc` answers with a block that is not in use, or with `NULL`. -/
def malloc (s : Symtab) (block : Addr) : Addr := if s.heap block = none then block else 0

end Symtab

def Init_Symbol_Table (a_stable : Symtab) (llen : Nat) : Symtab :=
  { a_stable with
    shift := BitVec.ofNat 32 (4 * 8 - llen)
    link := fun
      | .bucket k => if k < 2 ^ llen then 0 else a_stable.link (.bucket k)
      | .symbol a => a_stable.link (.symbol a) }

/-- A further character of the key; a `char` is unsigned. -/
def addChar (key : BitVec 32) (c : UInt8) : BitVec 32 :=
  (key <<< KEYSHIFT) + c.toBitVec.setWidth 32

/-- The number of a name's bucket, from the key of its characters. -/
def hashKey (shift : BitVec 32) (name : Name) : BitVec 32 :=
  (AVALUE * name.chars.foldl addChar 0) >>> shift.toNat

/-- `do if (*nam1++ != *nam2++) goto next_symbol; while ((len -= sizeof (char)) > 0)`, where `len`
is a signed number. -/
def compareNames (nam1 nam2 : Name) (i : Nat) (len : BitVec 32) : Option Bool :=
  match nam1.char? i, nam2.char? i with
  | some c1, some c2 =>
    if c1 ≠ c2 then some false
    else if 0 < (len - 1).toInt then compareNames nam1 nam2 (i + 1) (len - 1) else some true
  | _, _ => none
termination_by len.toNat
decreasing_by
  rename_i hpos
  have hne : len ≠ 0 := by
    rintro rfl
    exact absurd hpos (by decide)
  have hne' : len.toNat ≠ 0 := fun h => hne (BitVec.eq_of_toNat_eq h)
  rw [BitVec.toNat_sub]
  have h1 : (1 : BitVec 32).toNat = 1 := rfl
  omega

/-- `while (sptr != 0)`. -/
def findLoop (s : Symtab) (name : Name) (length : BitVec 32) : Nat → Addr → Option Addr
  | 0, _ => none
  | fuel + 1, sptr =>
    if sptr = 0 then some 0
    else
      match s.heap sptr with
      | none => none
      | some sym =>
        if sym.length = length then
          match compareNames name sym.name 0 length with
          | none => none
          | some true => some sptr
          | some false => findLoop s name length fuel (s.link (.symbol sptr))
        else findLoop s name length fuel (s.link (.symbol sptr))

def Find_Matching_Symbol (fuel : Nat) (a_stable : Symtab) (name : Name) :
    Option (Symtab × Addr) := do
  let length := BitVec.ofNat 32 name.chars.length
  let s := { a_stable with last_length := length, hash_key := hashKey a_stable.shift name }
  let sptr ← s.readLink (.bucket s.hash_key.toNat)
  let found ← findLoop s name length fuel sptr
  return (s, found)

/-- The new symbol goes to the head of its bucket. -/
def Add_To_Symbol_Table (fuel : Nat) (a_stable : Symtab) (newsym : Addr) (nname : Name)
    (versn : BitVec 32) : Option Symtab := do
  let (s, _) ← Find_Matching_Symbol fuel a_stable nname
  let sptr := Cell.bucket s.hash_key.toNat
  let head ← s.readLink sptr
  let s := { s with heap := Function.update s.heap newsym (some ⟨nname, versn, s.last_length⟩) }
  let s ← s.writeLink (.symbol newsym) head
  s.writeLink sptr newsym

/-- The inner loop of `Iterate_Symbols`, along one bucket; true when the action ended it all. -/
def iterateChain (action : Symtab → Addr → Option (BitVec 32 × Symtab)) :
    Nat → Symtab → Cell → Addr → Option (Symtab × Bool)
  | 0, _, _, _ => none
  | fuel + 1, s, prev, sym =>
    if sym = 0 then some (s, false)
    else do
      let nxt ← s.readLink (.symbol sym)
      let (rslt, s) ← action s sym
      if rslt ≠ 0 then
        let s ← if rslt &&& SYMI_delete ≠ 0 then s.writeLink prev nxt else some s
        if rslt &&& SYMI_terminate ≠ 0 then some (s, true)
        else iterateChain action fuel s prev nxt
      else iterateChain action fuel s (.symbol sym) nxt

/-- The outer loop, from bucket `k` on. -/
def iterateBuckets (fuel : Nat) (action : Symtab → Addr → Option (BitVec 32 × Symtab)) :
    Nat → Nat → Symtab → Option Symtab
  | 0, _, s => some s
  | cnt + 1, k, s => do
    let sym ← s.readLink (.bucket k)
    let (s, terminated) ← iterateChain action fuel s (.bucket k) sym
    if terminated then some s else iterateBuckets fuel action cnt (k + 1) s

/-- `Iterate_Symbols`. The count of buckets is found from the shift count; as the loop tests it
after a round, the count 0 stands for 2 ^ 32 rounds. -/
def Iterate_Symbols (fuel : Nat) (stable : Symtab)
    (action : Symtab → Addr → Option (BitVec 32 × Symtab)) : Option Symtab :=
  let cnt := (BitVec.allOnes 32 >>> stable.shift.toNat) + 1
  iterateBuckets fuel action (if cnt = 0 then 2 ^ 32 else cnt.toNat) 0 stable

/-- `Purge_Symbol` frees the symbol when it is the module's. -/
def Purge_Symbol (arg : BitVec 32) (s : Symtab) (thissym : Addr) :
    Option (BitVec 32 × Symtab) := do
  let sym ← s.heap thissym
  if sym.versn = arg then
    return (SYMI_delete, { s with heap := Function.update s.heap thissym none })
  else return (SYMI_continue, s)

/-- `DLsym_Add_To_Symbol_Table`, where `malloc` would answer with `block`. -/
def DLsym_Add_To_Symbol_Table (fuel : Nat) (thisptr : Symtab) (nname : Name)
    (moduleid : BitVec 32) (block : Addr) : Option (Symtab × Addr) :=
  let newsym := thisptr.malloc block
  if newsym = 0 then some (thisptr, 0)
  else do
    let s ← Add_To_Symbol_Table fuel thisptr newsym nname moduleid
    return (s, newsym)

def DLsym_Purge_Symbol_Table (fuel : Nat) (thisptr : Symtab) (moduleid : BitVec 32) :
    Option Symtab :=
  Iterate_Symbols fuel thisptr (Purge_Symbol moduleid)

/-- What a client does with the table. -/
inductive SymbolCall where
  | add (nname : Name) (moduleid : BitVec 32) (block : Addr)
  | find (name : Name)
  | purge (moduleid : BitVec 32)

def SymbolCall.apply (fuel : Nat) (s : Symtab) : SymbolCall → Option Symtab
  | .add nname moduleid block =>
    (DLsym_Add_To_Symbol_Table fuel s nname moduleid block).map Prod.fst
  | .find name => (Find_Matching_Symbol fuel s name).map Prod.fst
  | .purge moduleid => DLsym_Purge_Symbol_Table fuel s moduleid

/-- A run of calls on a table. -/
def Symtab.run (fuel : Nat) : List SymbolCall → Symtab → Option Symtab
  | [], s => some s
  | call :: calls, s => do run fuel calls (← call.apply fuel s)

/-- The table after `DLsym_init`, when no symbol is allocated. -/
def Symtab.fresh (garbage : Symtab) : Symtab :=
  Init_Symbol_Table { garbage with heap := fun _ => none } LSYM_LOGTBLLEN

/-! ### Names -/

theorem Name.char?_of_lt {name : Name} {i : Nat} (h : i < name.chars.length) :
    name.char? i = some name.chars[i] := by
  rw [Name.char?, List.getElem?_append_left h, List.getElem?_eq_getElem h]

theorem Name.char?_end (name : Name) : name.char? name.chars.length = some 0 := by
  rw [Name.char?, getElem?_append_right (Nat.le_refl _), Nat.sub_self]
  rfl

theorem toInt_ofNat_of_lt {d : Nat} (h : d < 2 ^ 31) : (BitVec.ofNat 32 d).toInt = d := by
  have hnat : (BitVec.ofNat 32 d).toNat = d := by
    rw [toNat_ofNat]
    omega
  rw [toInt_eq_toNat_cond, hnat]
  split <;> omega

theorem ofNat_succ_sub_one (d : Nat) : BitVec.ofNat 32 (d + 1) - 1 = BitVec.ofNat 32 d := by
  rw [ofNat_add]
  exact add_sub_cancel _ _

/-- Two names of the same length are compared to their ends, the empty one by the zero behind it. -/
theorem compareNames_eq {nam1 nam2 : Name} (h : nam1.chars.length = nam2.chars.length) {d i : Nat}
    (hd : i + d = nam1.chars.length) :
    compareNames nam1 nam2 i (BitVec.ofNat 32 d) =
      some (decide (nam1.chars.drop i = nam2.chars.drop i)) := by
  have hlt := nam1.length_lt
  induction d generalizing i with
  | zero =>
    obtain rfl : i = nam1.chars.length := by omega
    have hend : nam2.char? nam1.chars.length = some 0 := h ▸ nam2.char?_end
    have hdrop : nam2.chars.drop nam1.chars.length = [] := drop_eq_nil_of_le (by omega)
    have hneg : ¬ 0 < ((BitVec.ofNat 32 0) - 1).toInt := by decide
    rw [compareNames, nam1.char?_end, hend, drop_length, hdrop]
    simp only [ne_eq, not_true, if_false, hneg, decide_true]
  | succ d ih =>
    have h1 : i < nam1.chars.length := by omega
    have h2 : i < nam2.chars.length := by omega
    rw [compareNames, Name.char?_of_lt h1, Name.char?_of_lt h2, drop_eq_getElem_cons h1,
      drop_eq_getElem_cons h2]
    simp only [ofNat_succ_sub_one, toInt_ofNat_of_lt (show d < 2 ^ 31 by omega), cons.injEq]
    by_cases hc : nam1.chars[i] = nam2.chars[i]
    · simp only [ne_eq, hc, not_true, if_false, true_and]
      by_cases hpos : 0 < (d : Int)
      · rw [if_pos hpos]
        exact ih (by omega)
      · have hlast1 : nam1.chars.drop (i + 1) = [] := drop_eq_nil_of_le (by omega)
        have hlast2 : nam2.chars.drop (i + 1) = [] := drop_eq_nil_of_le (by omega)
        rw [if_neg hpos, hlast1, hlast2, decide_eq_true rfl]
    · simp only [ne_eq, hc, not_false_iff, if_true, false_and, decide_false]

/-- The bucket of a name in the table. -/
def bucketOf (name : Name) : Nat := (hashKey 27 name).toNat

theorem bucketOf_lt (name : Name) : bucketOf name < 2 ^ LSYM_LOGTBLLEN := by
  have h27 : (27 : BitVec 32).toNat = 27 := rfl
  rw [bucketOf, hashKey, toNat_ushiftRight, Nat.shiftRight_eq_div_pow, h27]
  have hlt := isLt (AVALUE * name.chars.foldl addChar 0)
  unfold LSYM_LOGTBLLEN
  omega

theorem length_eq_iff {nam1 nam2 : Name} :
    BitVec.ofNat 32 nam2.chars.length = BitVec.ofNat 32 nam1.chars.length ↔
      nam1.chars.length = nam2.chars.length := by
  have h1 := nam1.length_lt
  have h2 := nam2.length_lt
  constructor
  · intro h
    have hnat := congrArg BitVec.toNat h
    rw [toNat_ofNat, toNat_ofNat] at hnat
    omega
  · intro h
    rw [h]

end OmapHal.Dynload
