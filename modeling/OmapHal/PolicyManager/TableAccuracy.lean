import OmapHal.PolicyManager.TableFile

/-!
# Accuracy of the policy table

When a file loads into exactly its combinations, and when a malformed file is refused.
-/

namespace OmapHal.PolicyManager

open OmapHal.Core Function List Nat

variable {row : Combination} {T : Nat → Combination} {t : TableState}

/-! ### What a file says -/

/-- The words of a line. -/
def words (line : List Char) : List (List Char) := tokens separator line

/-- The names and priorities of a line. -/
def entries (line : List Char) : List (List Char × List Char) := pairs (words line)

/-- A line of text that fits into the buffer: at least one and at most fifty names of components,
each with a number behind it. -/
structure WellFormed (line : List Char) : Prop where
  text : '\x00' ∉ line
  fits : line.length < PM_MAXSTRINGLENGTH
  not_empty : words line ≠ []
  even : (words line).length % 2 = 0
  length_le : (entries line).length ≤ OMX_POLICY_MAX_COMBINATION_LENGTH
  known : ∀ e ∈ entries line, e.1 ∈ PM_ComponentTable ∧ (number? e.2).isSome

/-- A file of well-formed lines, at least one and no more than there are combinations. -/
structure Loadable (file : List Char) : Prop where
  not_empty : lines newline file ≠ []
  length_le : (lines newline file).length ≤ OMX_POLICY_MAX_COMBINATIONS
  wellFormed : ∀ line ∈ lines newline file, WellFormed line

/-- A combination has the components and priorities of a line, in order. -/
def Holds (row : Combination) (line : List Char) : Prop :=
  row.numComponentsInCombination = (entries line).length ∧
    ∀ j e, (entries line)[j]? = some e →
      PM_ComponentTable[(row.component j).component]? = some e.1 ∧
        number? e.2 = some ((row.component j).priority : Int)

/-- A loadable file loads into its combinations, and another one is refused. -/
structure LoadsExactly (file : List Char) (r : Option TableState) : Prop where
  accepts : Loadable file → ∃ t, r = some t ∧ t.ret = 0 ∧
    t.numCombinations = (lines newline file).length ∧
    ∀ i line, (lines newline file)[i]? = some line → Holds (t.policyCombinationTable i) line
  refuses : ¬ Loadable file → ∃ t, r = some t ∧ t.ret ≠ 0

/-! ### When that is what happens -/

/-- A line begins with a component's name and a comma behind it, it has less than fifty names, and
its priorities are numbers of eight bits. -/
structure Plain (line : List Char) : Prop where
  first : ∃ name rest, nextToken comma line = some (name, rest) ∧ name ∈ PM_ComponentTable
  length_lt : (entries line).length < OMX_POLICY_MAX_COMBINATION_LENGTH
  priorities : ∀ e ∈ entries line, ∃ n : Nat, n < 2 ^ 8 ∧ number? e.2 = some (n : Int)

/-- In the places where the reader expects names, by the count of tokens so far, are names. -/
def NamesKnown (index : Nat) (tokens : List (List Char)) : Prop :=
  ∀ k t, tokens[k]? = some t → (index + k) % 2 = 0 → t ∈ PM_ComponentTable

/-- The reader gets a name and a priority from the line, and these tokens are left. -/
def Begins (chunk : List Char) (more : List (List Char)) : Prop :=
  ∃ name rest priority rest', nextToken comma (cString chunk) = some (name, rest) ∧
    name ∈ PM_ComponentTable ∧ nextToken separator rest = some (priority, rest') ∧
    more = tokens separator rest'

/-- How many tokens fill a combination from an index on. -/
def room (policyIndex index : Nat) : Nat :=
  if policyIndex ≥ OMX_POLICY_MAX_COMBINATION_LENGTH then 0
  else 2 * (OMX_POLICY_MAX_COMBINATION_LENGTH - policyIndex) - index % 2

/-- The reader meets a line too many or a line with fifty priorities before it meets a line without
a first priority, or a word that is no name where it expects one. -/
def Refused : Nat → Nat → List (List Char) → Prop
  | combinations, _, [] => combinations = 0
  | combinations, index, chunk :: chunks =>
    combinations ≥ OMX_POLICY_MAX_COMBINATIONS ∨
      ∃ more, Begins chunk more ∧
        (room 1 index ≤ more.length ∧ NamesKnown index (more.take (room 1 index)) ∨
          more.length < room 1 index ∧ NamesKnown index more ∧
            Refused (combinations + 1) (index + more.length) chunks)

/-! ### Names and numbers -/

theorem PolicyStringToIndex_isSome {name : List Char} (h : name ∈ PM_ComponentTable) :
    ∃ i, PolicyStringToIndex name = some i := by
  rw [← Option.isSome_iff_exists, PolicyStringToIndex, findIdx?_isSome, any_eq_true]
  exact ⟨name, h, decide_eq_true rfl⟩

theorem getElem?_of_PolicyStringToIndex {name : List Char} {i : Nat}
    (h : PolicyStringToIndex name = some i) : PM_ComponentTable[i]? = some name := by
  obtain ⟨hi, hname, -⟩ := findIdx?_eq_some_iff_getElem.1 h
  rw [getElem?_eq_getElem hi, of_decide_eq_true hname]

theorem mem_of_PolicyStringToIndex {name : List Char} {i : Nat}
    (h : PolicyStringToIndex name = some i) : name ∈ PM_ComponentTable :=
  mem_of_getElem? (getElem?_of_PolicyStringToIndex h)

theorem PolicyStringToIndex_eq_none {name : List Char} (h : name ∉ PM_ComponentTable) :
    PolicyStringToIndex name = none := by
  cases hi : PolicyStringToIndex name with
  | none => rfl
  | some i => exact absurd (mem_of_PolicyStringToIndex hi) h

/-- The stored priority is the line's exactly for a number of eight bits. -/
theorem toU8_atoi_iff {priority : List Char} {v : Int} (h : number? priority = some v) :
    ((toU8 (atoi priority) : Int) = v) ↔ ∃ n : Nat, n < 2 ^ 8 ∧ v = n := by
  rw [atoi, h, Option.getD_some, toU8]
  constructor
  · intro heq
    exact ⟨((max (-2 ^ 31) (min (2 ^ 31 - 1) v)) % 2 ^ 8).toNat, by omega, heq.symm⟩
  · rintro ⟨n, hn, rfl⟩
    omega

theorem separator_of_comma (c : Char) (h : comma c) : separator c = true := by
  unfold separator
  rw [of_decide_eq_true h]
  rfl

theorem separator_of_mem : ∀ name ∈ PM_ComponentTable, ∀ c ∈ name, separator c = false := by
  have hall : (PM_ComponentTable.all fun name => name.all fun c => !separator c) := by
    decide
  intro name hname c hc
  have hchars := all_eq_true.mp hall name hname
  have hchar := all_eq_true.mp hchars c hc
  rwa [Bool.not_eq_true'] at hchar

/-! ### One line -/

/-- The entries from one of a combination on are these. -/
def Combination.HasFrom (row : Combination) (j : Nat) (l : List (List Char × List Char)) : Prop :=
  ∀ k e, l[k]? = some e →
    PM_ComponentTable[(row.component (j + k)).component]? = some e.1 ∧
      (row.component (j + k)).priority = toU8 (atoi e.2)

@[simp] theorem setPriority_setComponent (row : Combination) (j component priority : Nat) :
    ((row.setComponent j component).setPriority j priority).component =
      update row.component j ⟨component, priority⟩ := by
  rw [Combination.setPriority, Combination.setComponent]
  dsimp only
  rw [update_self, update_idem]

/-- Tokens in pairs, where the count of tokens is even: they are stored one behind the other, unless
they fill the combination. -/
theorem storeTokens_pairs {l : List (List Char)} (heven : l.length % 2 = 0)
    (hknown : ∀ e ∈ pairs l, e.1 ∈ PM_ComponentTable) (row : Combination) (j index : Nat)
    (hindex : index % 2 = 0) :
    (j + (pairs l).length < OMX_POLICY_MAX_COMBINATION_LENGTH →
      ∃ row', storeTokens row j index l = .stored row' (index + l.length) ∧
        row'.numComponentsInCombination = j + (pairs l).length ∧
        (∀ i < j, row'.component i = row.component i) ∧ row'.HasFrom j (pairs l)) ∧
    (OMX_POLICY_MAX_COMBINATION_LENGTH ≤ j + (pairs l).length →
      ∃ row', storeTokens row j index l = .exit (-1) row') := by
  induction l using pairs.induct generalizing row j index with
  | case1 name priority l ih =>
    rw [pairs] at hknown ⊢
    rw [length_cons]
    obtain ⟨component, hcomponent⟩ :=
      PolicyStringToIndex_isSome (hknown (name, priority) mem_cons_self)
    have hlength : (name :: priority :: l).length = l.length + 2 := rfl
    have hodd : (index + 1) % 2 ≠ 0 := by omega
    by_cases hfull : j ≥ OMX_POLICY_MAX_COMBINATION_LENGTH
    · refine ⟨fun h => absurd h (by omega), fun _ => ⟨row, ?_⟩⟩
      rw [storeTokens, if_pos hfull]
    have hstep : storeTokens row j index (name :: priority :: l) =
        storeTokens ((row.setComponent j component).setPriority j (toU8 (atoi priority))) (j + 1)
          (index + 1 + 1) l := by
      rw [storeTokens, if_neg hfull, if_pos hindex, hcomponent]
      dsimp only
      rw [storeTokens, if_neg hfull, if_neg hodd]
    obtain ⟨hstored, hexit⟩ := ih (by omega) (fun e he => hknown e (mem_cons_of_mem _ he))
      ((row.setComponent j component).setPriority j (toU8 (atoi priority))) (j + 1) (index + 1 + 1)
      (by omega)
    rw [hstep]
    refine ⟨fun hroom => ?_, fun hroom => hexit (by omega)⟩
    obtain ⟨row', hrun, hnum, hkeep, hfrom⟩ := hstored (by omega)
    rw [setPriority_setComponent] at hkeep
    refine ⟨row', ?_, by omega, fun i hi => ?_, fun k e he => ?_⟩
    · rw [hrun, hlength]
      congr 1
      omega
    · rw [hkeep i (by omega), update_of_ne (by omega)]
    · cases k with
      | zero =>
        obtain rfl : (name, priority) = e := Option.some.inj he
        rw [add_zero, hkeep j (by omega), update_self]
        exact ⟨getElem?_of_PolicyStringToIndex hcomponent, rfl⟩
      | succ k =>
        have hplace : j + (k + 1) = j + 1 + k := by omega
        rw [hplace]
        exact hfrom k e he
  | case2 l hl =>
    have hnil : l = [] := by
      match l with
      | [] => rfl
      | [a] => exact absurd heven (by simp)
      | a :: b :: l => exact (hl a b l rfl).elim
    subst hnil
    have hpairs : pairs ([] : List (List Char)) = [] := rfl
    rw [hpairs, length_nil, add_zero, storeTokens]
    refine ⟨fun h => ?_, fun h => ?_⟩
    · rw [if_neg (by omega)]
      exact ⟨_, rfl, rfl, fun _ _ => rfl, fun k e he => (nomatch he)⟩
    · rw [if_pos h]
      exact ⟨row, rfl⟩

theorem cString_eq {line : List Char} (h : '\x00' ∉ line) : cString line = line := by
  exact takeWhile_eq_self_iff.2 fun c hc => decide_eq_true fun heq => h (heq ▸ hc)

/-- A line without a name at its start stops the reader, not with a refusal. -/
theorem storeLine_of_not_begins {index : Nat} {chunk : List Char}
    (h : ∀ more, ¬ Begins chunk more) :
    storeLine row index chunk = .undefined ∨ ∃ row', storeLine row index chunk = .exit 0 row' := by
  rw [storeLine]
  cases hfirst : nextToken comma (cString chunk) with
  | none => exact .inr ⟨row, rfl⟩
  | some first =>
    obtain ⟨name, rest⟩ := first
    by_cases hname : name ∈ PM_ComponentTable
    · obtain ⟨component, hcomponent⟩ := PolicyStringToIndex_isSome hname
      cases hsecond : nextToken separator rest with
      | none =>
        dsimp only
        rw [hcomponent]
        rw [hsecond]
        exact .inr ⟨_, rfl⟩
      | some second =>
        obtain ⟨priority, rest'⟩ := second
        exact absurd ⟨name, rest, priority, rest', hfirst, hname, hsecond, rfl⟩ (h _)
    · dsimp only
      rw [PolicyStringToIndex_eq_none hname]
      exact .inl rfl

/-- After the first pair of a line its other tokens are read. -/
theorem storeLine_of_begins {index : Nat} {chunk : List Char}
    {more : List (List Char)} (h : Begins chunk more) :
    ∃ row', storeLine row index chunk = storeTokens row' 1 index more := by
  obtain ⟨name, rest, priority, rest', hfirst, hname, hsecond, rfl⟩ := h
  obtain ⟨component, hcomponent⟩ := PolicyStringToIndex_isSome hname
  refine ⟨(row.setComponent 0 component).setPriority 0 (toU8 (atoi priority)), ?_⟩
  rw [storeLine, hfirst]
  dsimp only
  rw [hcomponent]
  rw [hsecond]

/-- A well-formed line that begins with a name is stored as it stands, or fills its combination. -/
theorem storeLine_wellFormed {line : List Char} (hline : WellFormed line) {name rest : List Char}
    (hfirst : nextToken comma line = some (name, rest)) (hname : name ∈ PM_ComponentTable)
    (row : Combination) {index : Nat} (hindex : index % 2 = 0) :
    ((entries line).length < OMX_POLICY_MAX_COMBINATION_LENGTH →
      ∃ row' index', storeLine row index line = .stored row' index' ∧ index' % 2 = 0 ∧
        row'.numComponentsInCombination = (entries line).length ∧ row'.HasFrom 0 (entries line)) ∧
    (OMX_POLICY_MAX_COMBINATION_LENGTH ≤ (entries line).length →
      ∃ row', storeLine row index line = .exit (-1) row') := by
  have hwords : words line = name :: tokens separator rest :=
    tokens_of_some (nextToken_of_fewer separator_of_comma hfirst (separator_of_mem name hname))
  have heven := hline.even
  rw [hwords, length_cons] at heven
  cases hsecond : nextToken separator rest with
  | none =>
    rw [tokens_of_none hsecond] at heven
    exact absurd heven (by simp)
  | some second =>
    obtain ⟨priority, rest'⟩ := second
    have hmore := tokens_of_some hsecond
    have hentries : entries line = (name, priority) :: pairs (tokens separator rest') := by
      rw [entries, hwords, hmore, pairs]
    rw [hmore, length_cons] at heven
    obtain ⟨component, hcomponent⟩ := PolicyStringToIndex_isSome hname
    have hstep : storeLine row index line = storeTokens
        ((row.setComponent 0 component).setPriority 0 (toU8 (atoi priority))) 1 index
          (tokens separator rest') := by
      rw [storeLine, cString_eq hline.text, hfirst]
      dsimp only
      rw [hcomponent]
      rw [hsecond]
    have hknown : ∀ e ∈ pairs (tokens separator rest'), e.1 ∈ PM_ComponentTable := fun e he =>
      (hline.known e (by rw [hentries]; exact mem_cons_of_mem _ he)).1
    obtain ⟨hstored, hexit⟩ := storeTokens_pairs (l := tokens separator rest') (by omega) hknown
      ((row.setComponent 0 component).setPriority 0 (toU8 (atoi priority))) 1 index hindex
    rw [hentries, length_cons, hstep]
    refine ⟨fun hroom => ?_, fun hroom => hexit (by omega)⟩
    obtain ⟨row', hrun, hnum, hkeep, hfrom⟩ := hstored (by omega)
    refine ⟨row', _, hrun, by omega, by omega, fun k e he => ?_⟩
    cases k with
    | zero =>
      obtain rfl : (name, priority) = e := Option.some.inj he
      rw [add_zero, hkeep 0 (by omega), setPriority_setComponent, update_self]
      exact ⟨getElem?_of_PolicyStringToIndex hcomponent, rfl⟩
    | succ k =>
      have hplace : 0 + (k + 1) = 1 + k := by omega
      rw [hplace]
      exact hfrom k e he

/-- The stored combination is the line's exactly when its priorities are numbers of eight bits. -/
theorem holds_iff {line : List Char} (hnum : row.numComponentsInCombination = (entries line).length)
    (hfrom : row.HasFrom 0 (entries line)) :
    Holds row line ↔
      ∀ e ∈ entries line, ∃ n : Nat, n < 2 ^ 8 ∧ number? e.2 = some (n : Int) := by
  have hstored : ∀ j e v, (entries line)[j]? = some e → number? e.2 = some v →
      ((((row.component j).priority : Int) = v) ↔ ∃ n : Nat, n < 2 ^ 8 ∧ v = n) := by
    intro j e v he hv
    have hpriority := (hfrom j e he).2
    rw [zero_add] at hpriority
    rw [hpriority]
    exact toU8_atoi_iff hv
  constructor
  · rintro ⟨-, hholds⟩ e he
    obtain ⟨j, hj⟩ := mem_iff_getElem?.1 he
    have hv := (hholds j e hj).2
    obtain ⟨n, hn, heq⟩ := (hstored j e _ hj hv).1 rfl
    exact ⟨n, hn, by rw [hv, heq]⟩
  · intro hbits
    refine ⟨hnum, fun j e he => ?_⟩
    obtain ⟨n, hn, hv⟩ := hbits e (mem_of_getElem? he)
    have hcomponent := (hfrom j e he).1
    rw [zero_add] at hcomponent
    refine ⟨hcomponent, ?_⟩
    rw [hv, (hstored j e n he hv).2 ⟨n, hn, rfl⟩]

/-! ### A loadable file -/

/-- The combinations before the current one are not touched any more. -/
theorem readLines_keeps {chunks : List (List Char)} {n index : Nat}
    (h : readLines T n index chunks = some t) :
    ∀ i < n, t.policyCombinationTable i = T i := by
  induction chunks generalizing T n index with
  | nil =>
    rw [readLines] at h
    split at h
    · obtain rfl := Option.some.inj h
      exact fun i _ => rfl
    · obtain rfl := Option.some.inj h
      exact fun i _ => rfl
  | cons chunk chunks ih =>
    intro i hi
    rw [readLines] at h
    split at h
    · obtain rfl := Option.some.inj h
      rfl
    · split at h
      · cases h
      · obtain rfl := Option.some.inj h
        exact update_of_ne (by omega) ..
      · rw [ih h i (by omega), update_of_ne (by omega)]

theorem readLines_plain {ls : List (List Char)} (hok : ∀ l ∈ ls, WellFormed l)
    (hplain : ∀ l ∈ ls, Plain l) (T : Nat → Combination) (n index : Nat) (hindex : index % 2 = 0)
    (hcount : n + ls.length ≤ OMX_POLICY_MAX_COMBINATIONS) (hpos : n + ls.length ≠ 0) :
    ∃ t, readLines T n index ls = some t ∧ t.ret = 0 ∧ t.numCombinations = n + ls.length ∧
      ∀ i l, ls[i]? = some l → Holds (t.policyCombinationTable (n + i)) l := by
  induction ls generalizing T n index with
  | nil =>
    rw [readLines, if_neg (by rw [length_nil] at hpos; omega)]
    exact ⟨_, rfl, rfl, rfl, fun i l hl => (nomatch hl)⟩
  | cons line ls ih =>
    rw [length_cons] at hcount
    have hline := hok line mem_cons_self
    obtain ⟨⟨name, rest, hfirst, hname⟩, hlength, hbits⟩ := hplain line mem_cons_self
    obtain ⟨row', index', hstore, hindex', hnum, hfrom⟩ :=
      (storeLine_wellFormed hline hfirst hname (T n) hindex).1 hlength
    obtain ⟨t, hrun, hret, hcombinations, hholds⟩ := ih (fun l hl => hok l (mem_cons_of_mem _ hl))
      (fun l hl => hplain l (mem_cons_of_mem _ hl)) (update T n row') (n + 1) index'
      hindex' (by omega) (by omega)
    refine ⟨t, ?_, hret, by rw [hcombinations, length_cons]; omega, fun i l hl => ?_⟩
    · rw [readLines, if_neg (by omega), hstore]
      exact hrun
    · cases i with
      | zero =>
        obtain rfl : line = l := Option.some.inj hl
        rw [add_zero, readLines_keeps hrun n (lt_succ_self n), update_self]
        exact (holds_iff hnum hfrom).2 hbits
      | succ i =>
        have hplace : n + (i + 1) = n + 1 + i := by omega
        rw [hplace]
        exact hholds i l hl

theorem plain_of_readLines {ls : List (List Char)} (hok : ∀ l ∈ ls, WellFormed l) {n index : Nat}
    (hindex : index % 2 = 0)
    (hrun : readLines T n index ls = some t) (hret : t.ret = 0)
    (hcombinations : t.numCombinations = n + ls.length) (hpos : n + ls.length ≠ 0)
    (hholds : ∀ i l, ls[i]? = some l → Holds (t.policyCombinationTable (n + i)) l) :
    ∀ l ∈ ls, Plain l := by
  induction ls generalizing T n index with
  | nil => exact fun l hl => (nomatch hl)
  | cons line ls ih =>
    have hline := hok line mem_cons_self
    rw [readLines] at hrun
    rw [length_cons] at hcombinations hpos
    split at hrun
    · obtain rfl := Option.some.inj hrun
      exact absurd hret (by simp)
    -- the line was stored: after any return no combination is counted
    split at hrun
    · cases hrun
    · obtain rfl := Option.some.inj hrun
      exact absurd hcombinations hpos.symm
    · rename_i row' index' hstore
      have hfirst : ∃ name rest, nextToken comma line = some (name, rest) ∧
          name ∈ PM_ComponentTable := by
        by_contra hnone
        have hbegins : ∀ more, ¬ Begins line more := by
          rintro more ⟨name, rest, -, -, hfirst, hname, -⟩
          rw [cString_eq hline.text] at hfirst
          exact hnone ⟨name, rest, hfirst, hname⟩
        rcases @storeLine_of_not_begins (T n) index line hbegins with hundef | ⟨_, hexit⟩
        · rw [hundef] at hstore
          cases hstore
        · rw [hexit] at hstore
          cases hstore
      obtain ⟨name, rest, hfirst, hname⟩ := hfirst
      obtain ⟨hstored, hexit⟩ := storeLine_wellFormed hline hfirst hname (T n) hindex
      have hlength : (entries line).length < OMX_POLICY_MAX_COMBINATION_LENGTH := by
        by_contra hlong
        obtain ⟨_, hexit⟩ := hexit (by omega)
        rw [hexit] at hstore
        cases hstore
      obtain ⟨row'', index'', hstore', hindex', hnum, hfrom⟩ := hstored hlength
      rw [hstore] at hstore'
      obtain ⟨rfl, rfl⟩ := LineOutcome.stored.inj hstore'
      have hhere := hholds 0 line rfl
      rw [add_zero, readLines_keeps hrun n (lt_succ_self n), update_self] at hhere
      have hrest := ih (fun l hl => hok l (mem_cons_of_mem _ hl)) hindex' hrun (by omega)
        (by omega) fun i l hl => by
          have hplace : n + 1 + i = n + (i + 1) := by omega
          rw [hplace]
          exact hholds (i + 1) l hl
      intro l hl
      rcases mem_cons.1 hl with rfl | hl
      · exact ⟨⟨name, rest, hfirst, hname⟩, hlength, (holds_iff hnum hfrom).1 hhere⟩
      · exact hrest l hl

/-! ### A file that is not loadable -/

theorem namesKnown_cons {index : Nat} {t : List Char} {l : List (List Char)} :
    NamesKnown index (t :: l) ↔
      (index % 2 = 0 → t ∈ PM_ComponentTable) ∧ NamesKnown (index + 1) l := by
  constructor
  · intro h
    refine ⟨h 0 t rfl, fun k u hu hk => h (k + 1) u hu ?_⟩
    rw [← hk]
    congr 1
    omega
  · rintro ⟨hhead, hrest⟩ k u hu hk
    cases k with
    | zero =>
      obtain rfl : t = u := Option.some.inj hu
      exact hhead hk
    | succ k =>
      refine hrest k u hu ?_
      rw [← hk]
      congr 1
      omega

theorem namesKnown_nil (index : Nat) : NamesKnown index [] := fun _ _ h => (nomatch h)

/-- A name takes a place of the room, and a priority takes the last place of its pair. -/
theorem room_succ {j index : Nat} (hj : j < OMX_POLICY_MAX_COMBINATION_LENGTH) :
    room j index =
      (if index % 2 = 0 then room j (index + 1) else room (j + 1) (index + 1)) + 1 := by
  unfold room
  rw [if_neg (by omega)]
  split
  · rw [if_neg (by omega)]
    omega
  · split <;> omega

/-- What the tokens behind the first pair of a line lead to. -/
theorem storeTokens_outcome (l : List (List Char)) (row : Combination) (j index : Nat) :
    ((∃ row', storeTokens row j index l = .exit (-1) row') ∧
        room j index ≤ l.length ∧ NamesKnown index (l.take (room j index))) ∨
      ((∃ row', storeTokens row j index l = .stored row' (index + l.length)) ∧
        l.length < room j index ∧ NamesKnown index l) ∨
      storeTokens row j index l = .undefined ∧ ¬ NamesKnown index (l.take (room j index)) := by
  induction l generalizing row j index with
  | nil =>
    by_cases hfull : j ≥ OMX_POLICY_MAX_COMBINATION_LENGTH
    · refine .inl ⟨⟨row, by rw [storeTokens, if_pos hfull]⟩, ?_, ?_⟩
      · rw [room, if_pos hfull]
        exact le_refl _
      · rw [take_nil]
        exact namesKnown_nil index
    · refine .inr (.inl ⟨⟨_, by rw [storeTokens, if_neg hfull]; rfl⟩, ?_, namesKnown_nil index⟩)
      rw [room_succ (by omega)]
      exact succ_pos _
  | cons t l ih =>
    have hplace : index + 1 + l.length = index + (t :: l).length := by
      rw [length_cons]
      omega
    by_cases hfull : j ≥ OMX_POLICY_MAX_COMBINATION_LENGTH
    · refine .inl ⟨⟨row, by rw [storeTokens, if_pos hfull]⟩, ?_, ?_⟩
      · rw [room, if_pos hfull]
        exact zero_le _
      · rw [room, if_pos hfull, take_zero]
        exact namesKnown_nil index
    rw [storeTokens, if_neg hfull, room_succ (by omega), take_succ_cons, namesKnown_cons,
      namesKnown_cons, length_cons, ← length_cons, ← hplace]
    by_cases hindex : index % 2 = 0
    · rw [if_pos hindex, if_pos hindex]
      by_cases hname : t ∈ PM_ComponentTable
      · obtain ⟨component, hcomponent⟩ := PolicyStringToIndex_isSome hname
        rw [hcomponent]
        simp only [hname, implies_true, true_and, length_cons, add_le_add_iff_right,
          add_lt_add_iff_right]
        exact ih _ _ _
      · rw [PolicyStringToIndex_eq_none hname]
        exact .inr (.inr ⟨rfl, fun h => hname (h.1 hindex)⟩)
    · rw [if_neg hindex, if_neg hindex]
      simp only [hindex, false_implies, true_and, length_cons, add_le_add_iff_right,
        add_lt_add_iff_right]
      exact ih _ _ _

theorem Begins.unique {chunk : List Char} {more more' : List (List Char)} (h : Begins chunk more)
    (h' : Begins chunk more') : more = more' := by
  obtain ⟨name, rest, priority, rest', hfirst, -, hsecond, rfl⟩ := h
  obtain ⟨name', rest₂, priority', rest₂', hfirst', -, hsecond', rfl⟩ := h'
  obtain ⟨-, rfl⟩ := Prod.mk.inj (Option.some.inj (hfirst.symm.trans hfirst'))
  obtain ⟨-, rfl⟩ := Prod.mk.inj (Option.some.inj (hsecond.symm.trans hsecond'))
  rfl

theorem NamesKnown.take {index : Nat} {l : List (List Char)} (h : NamesKnown index l) (n : Nat) :
    NamesKnown index (l.take n) := by
  intro k t ht hk
  rw [getElem?_take] at ht
  split at ht
  · exact h k t ht hk
  · cases ht

/-- The function returns a failure exactly when the reader is refused. -/
theorem readLines_refuses_iff (chunks : List (List Char)) (T : Nat → Combination) (n index : Nat) :
    (∃ t, readLines T n index chunks = some t ∧ t.ret ≠ 0) ↔ Refused n index chunks := by
  induction chunks generalizing T n index with
  | nil =>
    rw [readLines, Refused]
    by_cases hn : n = 0
    · rw [if_pos hn]
      exact iff_of_true ⟨_, rfl, by simp⟩ hn
    · rw [if_neg hn]
      refine iff_of_false ?_ hn
      rintro ⟨t, ht, hret⟩
      obtain rfl := Option.some.inj ht
      exact hret rfl
  | cons chunk chunks ih =>
    rw [readLines, Refused]
    by_cases hn : n ≥ OMX_POLICY_MAX_COMBINATIONS
    · rw [if_pos hn]
      exact iff_of_true ⟨_, rfl, by simp⟩ (.inl hn)
    rw [if_neg hn, or_iff_right hn]
    by_cases hbegins : ∃ more, Begins chunk more
    swap
    · refine iff_of_false ?_ fun ⟨more, hmore, _⟩ => hbegins ⟨more, hmore⟩
      rintro ⟨t, ht, hret⟩
      rcases @storeLine_of_not_begins (T n) index chunk
        (fun more hmore => hbegins ⟨more, hmore⟩) with
        hundef | ⟨row', hexit⟩
      · rw [hundef] at ht
        cases ht
      · rw [hexit] at ht
        obtain rfl := Option.some.inj ht
        exact hret rfl
    obtain ⟨more, hmore⟩ := hbegins
    obtain ⟨row, hstore⟩ := @storeLine_of_begins (T n) index chunk more hmore
    have hmore' : (∃ more, Begins chunk more ∧
        (room 1 index ≤ more.length ∧ NamesKnown index (more.take (room 1 index)) ∨
          more.length < room 1 index ∧ NamesKnown index more ∧
            Refused (n + 1) (index + more.length) chunks)) ↔
        (room 1 index ≤ more.length ∧ NamesKnown index (more.take (room 1 index)) ∨
          more.length < room 1 index ∧ NamesKnown index more ∧
            Refused (n + 1) (index + more.length) chunks) := by
      constructor
      · rintro ⟨more', hm', h⟩
        obtain rfl := hmore.unique hm'
        exact h
      · exact fun h => ⟨more, hmore, h⟩
    rw [hmore', hstore]
    rcases storeTokens_outcome more row 1 index with ⟨⟨row', hexit⟩, hfull⟩ |
      ⟨⟨row', hstored⟩, hroom, hknown⟩ | ⟨hundef, hunknown⟩
    · rw [hexit]
      exact iff_of_true ⟨_, rfl, by simp⟩ (.inl hfull)
    · rw [hstored]
      refine (ih _ _ _).trans ?_
      constructor
      · exact fun h => .inr ⟨hroom, hknown, h⟩
      · rintro (h | h)
        · omega
        · exact h.2.2
    · rw [hundef]
      refine iff_of_false (fun ⟨t, ht, _⟩ => nomatch ht) ?_
      rintro (h | h)
      · exact hunknown h.2
      · exact hunknown (h.2.1.take _)

theorem chunks_eq_lines {file : List Char}
    (h : ∀ line ∈ lines newline file, line.length < PM_MAXSTRINGLENGTH) :
    chunks file = lines newline file :=
  pieces_eq_lines fun line hline => le_of_lt_succ (h line hline)

/-- A file loads exactly when, if it is loadable, its lines are plain, and if it is not, the reader
is refused in time. -/
theorem loadsExactly_iff (file : List Char) :
    LoadsExactly file (PopulatePolicyTable (some file)) ↔
      (Loadable file → ∀ line ∈ lines newline file, Plain line) ∧
        (¬ Loadable file → Refused 0 0 (chunks file)) := by
  have hrefuses := readLines_refuses_iff (chunks file) (fun _ => .cleared) 0 0
  constructor
  · rintro ⟨haccepts, hrefused⟩
    refine ⟨fun hfile => ?_, fun hfile => hrefuses.1 (hrefused hfile)⟩
    obtain ⟨t, hrun, hret, hcombinations, hholds⟩ := haccepts hfile
    rw [PopulatePolicyTable, chunks_eq_lines fun line hline => (hfile.wellFormed line hline).fits]
      at hrun
    have hpos := mt length_eq_zero_iff.1 hfile.not_empty
    refine plain_of_readLines hfile.wellFormed (zero_mod 2) hrun hret (by omega) (by omega)
      fun i line hline => ?_
    rw [zero_add]
    exact hholds i line hline
  · rintro ⟨hplain, hrefused⟩
    refine ⟨fun hfile => ?_, fun hfile => hrefuses.2 (hrefused hfile)⟩
    have hpos := mt length_eq_zero_iff.1 hfile.not_empty
    have hcount := hfile.length_le
    obtain ⟨t, hrun, hret, hcombinations, hholds⟩ := readLines_plain hfile.wellFormed (hplain hfile)
      (fun _ => .cleared) 0 0 (zero_mod 2) (by omega) (by omega)
    refine ⟨t, ?_, hret, by omega, fun i line hline => ?_⟩
    · rw [PopulatePolicyTable, chunks_eq_lines fun line hline => (hfile.wellFormed line hline).fits]
      exact hrun
    · have hrow := hholds i line hline
      rw [zero_add] at hrow
      exact hrow

/-- A file of one comma is loaded, with no combination. -/
theorem comma_loads : ¬ LoadsExactly [','] (PopulatePolicyTable (some [','])) := by
  intro h
  have hwords : words [','] = [] := tokens_of_none rfl
  have hnot : ¬ Loadable [','] := fun hfile =>
    (hfile.wellFormed [','] mem_cons_self).not_empty hwords
  obtain ⟨t, hrun, hret⟩ := h.refuses hnot
  have hchunks : chunks [','] = [[',']] := chunks_eq_lines (by decide)
  rw [PopulatePolicyTable, hchunks] at hrun
  obtain rfl := Option.some.inj hrun
  exact hret rfl

end OmapHal.PolicyManager
