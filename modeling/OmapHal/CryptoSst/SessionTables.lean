import OmapHal.CryptoSst.Sessions

/-!
# The tables of the sessions

The table of each primary session holds the secondary contexts that name it, in every state that
calls lead to.
-/

namespace OmapHal.CryptoSst

open Function Nat Option List

variable {c : PKCS11_PRIMARY_SESSION_CONTEXT} {table : LIB_OBJECT_TABLE_HANDLE16}
  {nTeeError : TEEC_Result}

variable {s s' : Cryptoki} {l : List Pointer} {p h q : Pointer}

namespace Cryptoki

/-! ### Contexts in memory -/

theorem store_memory (s : Cryptoki) (p q : Pointer) (object : Object) :
    (s.store p object).memory q = if q = p then some object else s.memory q :=
  update_apply _ _ _ _

theorem free_memory (s : Cryptoki) (p q : Pointer) :
    (s.free p).memory q = if q = p then none else s.memory q :=
  update_apply _ _ _ _

/-- A fresh context that is freed leaves the memory as it was. -/
theorem free_store (hp : s.memory p = none) (object : Object) :
    (s.store p object).free p = s := by
  have hmemory : update (update s.memory p (some object)) p none = s.memory := by
    rw [update_idem, ← hp, update_eq_self]
  simp [free, store, hmemory]

theorem store_store (s : Cryptoki) (p : Pointer) (x y : Object) :
    (s.store p x).store p y = s.store p y := by
  simp [store]

theorem store_comm (hne : p ≠ h) (s : Cryptoki) (x y : Object) :
    (s.store p x).store h y = (s.store h y).store p x := by
  simp [store, update_comm hne]

theorem store_self {object : Object} (hp : s.memory p = some object) : s.store p object = s := by
  simp [store, ← hp]

/-! ### The invariant -/

/-- The secondary context at an address belongs to a primary session. -/
def Child (s : Cryptoki) (p a : Pointer) : Prop :=
  ∃ d, s.memory a = some (.secondary d) ∧ d.pPrimarySession = p

/-- The table of each primary session holds its secondary contexts, and each secondary context has
its primary one. -/
structure Inv (s : Cryptoki) : Prop where
  primary : ∀ {p c}, s.memory p = some (.primary c) →
    c.sHeader = sessionHeader PKCS11_PRIMARY_SESSION_TAG ∧
      ∃ l, c.sSecondarySessionTable.Sorted l ∧ ∀ a, a ∈ l ↔ s.Child p a
  secondary : ∀ {a d}, s.memory a = some (.secondary d) →
    d.sHeader = sessionHeader PKCS11_SECONDARY_SESSION_TAG ∧
      ∃ c, s.memory d.pPrimarySession = some (.primary c)

/-- A new primary session has no secondary ones. -/
theorem Inv.storePrimary (hs : s.Inv) (hp : s.memory p = none)
    (hheader : c.sHeader = sessionHeader PKCS11_PRIMARY_SESSION_TAG)
    (hroot : c.sSecondarySessionTable.pRoot = none) : (s.store p (.primary c)).Inv := by
  have hchild : ∀ q a, (s.store p (.primary c)).Child q a ↔ s.Child q a := by
    intro q a
    rw [Child, Child, store_memory]
    by_cases ha : a = p
    · simp [ha, hp]
    · simp [ha]
  constructor
  · intro q c' hq
    simp only [hchild]
    rw [store_memory] at hq
    by_cases hqp : q = p
    · rw [if_pos hqp] at hq
      cases hq
      refine ⟨hheader, [], ⟨trivial, hroot, .nil, nofun⟩, fun a => ?_⟩
      refine iff_of_false not_mem_nil ?_
      rintro ⟨d, hd, hparent⟩
      obtain ⟨-, c', hc'⟩ := hs.secondary hd
      rw [hparent, hqp, hp] at hc'
      cases hc'
    · rw [if_neg hqp] at hq
      exact hs.primary hq
  · intro a d ha
    rw [store_memory] at ha
    by_cases hap : a = p
    · rw [if_pos hap] at ha
      cases ha
    · rw [if_neg hap] at ha
      obtain ⟨hheader, c', hc'⟩ := hs.secondary ha
      refine ⟨hheader, c', ?_⟩
      rw [store_memory, if_neg, hc']
      rintro heq
      rw [heq, hp] at hc'
      cases hc'

/-- One secondary context of a session is put into its table or taken out, or none is. -/
theorem Inv.storeTable (hs : s.Inv) (object : Option Object)
    (hh : s.memory h = some (.primary c)) (hp : s.memory p = none ∨ s.Child h p)
    (hobject : ∀ x ∈ object, ∃ d, x = .secondary d ∧
      d.sHeader = sessionHeader PKCS11_SECONDARY_SESSION_TAG ∧ d.pPrimarySession = h)
    (hs' : s'.memory = update (update s.memory p object) h
      (some (.primary { c with sSecondarySessionTable := table }))) (hsorted : table.Sorted l)
    (hl : ∀ a, a ∈ l ↔ if a = p then object.isSome = true else s.Child h a) : s'.Inv := by
  have hprimary : ∀ c', s.memory p ≠ some (.primary c') := by
    rintro c' hc'
    rcases hp with hp | ⟨d, hd, -⟩
    · simp [hp] at hc'
    · simp [hd] at hc'
  have hne : p ≠ h := by
    rintro rfl
    exact hprimary c hh
  have hmemory : ∀ a, s'.memory a = if a = h then
      some (.primary { c with sSecondarySessionTable := table })
      else if a = p then object else s.memory a := by
    intro a
    rw [hs', update_apply, update_apply]
  have hold : ∀ q, s.Child q p → q = h := by
    rintro q ⟨d, hd, hparent⟩
    rcases hp with hp | ⟨d', hd', hparent'⟩
    · simp [hp] at hd
    · obtain rfl : d = d' := by simpa [hd] using hd'
      exact hparent.symm.trans hparent'
  have hchild : ∀ q a, s'.Child q a ↔
      if a = p then object.isSome ∧ q = h else s.Child q a := by
    intro q a
    rw [Child, hmemory]
    by_cases hap : a = p
    · rw [if_neg (hap.trans_ne hne), if_pos hap, if_pos hap]
      constructor
      · rintro ⟨d, rfl, hparent⟩
        obtain ⟨d', hd', -, hparent'⟩ := hobject _ rfl
        cases hd'
        exact ⟨rfl, hparent.symm.trans hparent'⟩
      · rintro ⟨hsome, rfl⟩
        obtain ⟨x, rfl⟩ := isSome_iff_exists.mp hsome
        obtain ⟨d, rfl, -, hparent⟩ := hobject x rfl
        exact ⟨d, rfl, hparent⟩
    · rw [if_neg hap, if_neg hap]
      by_cases hah : a = h
      · rw [if_pos hah, Child, hah, hh]
        simp
      · rw [if_neg hah]
        exact Iff.rfl
  constructor
  · intro q c' hq
    rw [hmemory] at hq
    by_cases hqh : q = h
    · rw [if_pos hqh] at hq
      cases hq
      refine ⟨(hs.primary hh).1, l, hsorted, fun a => ?_⟩
      rw [hl, hchild]
      by_cases hap : a = p <;> simp [hap, hqh]
    · rw [if_neg hqh] at hq
      by_cases hqp : q = p
      · rw [if_pos hqp] at hq
        obtain ⟨d, hd, -⟩ := hobject _ hq
        cases hd
      · rw [if_neg hqp] at hq
        obtain ⟨hheader, l₀, hsorted₀, hl₀⟩ := hs.primary hq
        refine ⟨hheader, l₀, hsorted₀, fun a => ?_⟩
        rw [hl₀, hchild]
        by_cases hap : a = p
        · rw [if_pos hap, hap]
          exact iff_of_false (fun hc => hqh (hold q hc)) fun hc => hqh hc.2
        · rw [if_neg hap]
  · intro a d ha
    rw [hmemory] at ha
    by_cases hah : a = h
    · rw [if_pos hah] at ha
      cases ha
    rw [if_neg hah] at ha
    by_cases hap : a = p
    · rw [if_pos hap] at ha
      obtain ⟨d', hd', hheader, hparent⟩ := hobject _ ha
      cases hd'
      exact ⟨hheader, _, by rw [hmemory, if_pos hparent]⟩
    · rw [if_neg hap] at ha
      obtain ⟨hheader, c', hc'⟩ := hs.secondary ha
      by_cases hparent : d.pPrimarySession = h
      · exact ⟨hheader, _, by rw [hmemory, if_pos hparent]⟩
      · refine ⟨hheader, c', ?_⟩
        rw [hmemory, if_neg hparent, if_neg, hc']
        exact fun heq => hprimary c' (heq ▸ hc')

/-- A primary session goes with all its secondary ones. -/
theorem Inv.removeAll (hs : s.Inv)
    (hh : s.memory h = some (.primary c)) (hl : ∀ a, a ∈ l ↔ s.Child h a)
    (hs' : ∀ a, s'.memory a = if a = h ∨ a ∈ l then none else s.memory a) : s'.Inv := by
  have hchild : ∀ q, q ≠ h → ∀ a, s'.Child q a ↔ s.Child q a := by
    intro q hq a
    rw [Child, hs']
    by_cases ha : a = h ∨ a ∈ l
    · rw [if_pos ha]
      refine iff_of_false (by simp) ?_
      rintro ⟨d, hd, hparent⟩
      rcases ha with rfl | ha
      · simp [hh] at hd
      · obtain ⟨d', hd', hparent'⟩ := (hl a).mp ha
        obtain rfl : d = d' := by simpa [hd] using hd'
        exact hq (hparent.symm.trans hparent')
    · rw [if_neg ha, Child]
  constructor
  · intro q c' hq
    rw [hs'] at hq
    by_cases hgone : q = h ∨ q ∈ l
    · rw [if_pos hgone] at hq
      cases hq
    · rw [if_neg hgone] at hq
      simpa only [hchild q fun heq => hgone (.inl heq)] using hs.primary hq
  · intro a d ha
    rw [hs'] at ha
    by_cases hgone : a = h ∨ a ∈ l
    · rw [if_pos hgone] at ha
      cases ha
    · rw [if_neg hgone] at ha
      obtain ⟨hheader, c', hc'⟩ := hs.secondary ha
      refine ⟨hheader, c', ?_⟩
      rw [hs', if_neg, hc']
      rintro (hparent | hparent)
      · exact hgone (.inr ((hl a).mpr ⟨d, ha, hparent⟩))
      · obtain ⟨d', hd', -⟩ := (hl _).mp hparent
        simp [hd'] at hc'

/-- Every secondary context of the table is freed. -/
theorem closeSecondaries_spec (hsorted : table.Sorted l)
    {turns : Nat} (hturns : l.length < turns) (s : Cryptoki) :
    ∃ s', closeSecondaries turns table s = some s' ∧
      ∀ a, s'.memory a = if a ∈ l then none else s.memory a := by
  induction l generalizing turns table s with
  | nil =>
    obtain ⟨turns, rfl⟩ := exists_eq_succ_of_ne_zero (ne_of_gt hturns)
    refine ⟨s, ?_, fun a => by simp⟩
    rw [closeSecondaries, LIB_OBJECT_TABLE_HANDLE16.libObjectHandle16RemoveOne, hsorted.root]
    rfl
  | cons root l ih =>
    obtain ⟨turns, rfl⟩ := exists_eq_succ_of_ne_zero (ne_of_gt (zero_lt_of_lt hturns))
    obtain ⟨s', hclosed, hs'⟩ := ih (show table.Sorted ([] ++ root :: l) from hsorted).remove.1
      (lt_of_succ_lt_succ hturns) (s.free root)
    refine ⟨s', ?_, fun a => ?_⟩
    · rw [closeSecondaries, LIB_OBJECT_TABLE_HANDLE16.libObjectHandle16RemoveOne, hsorted.root]
      exact hclosed
    · rw [hs', free_memory]
      by_cases ha : a = root <;> simp [ha]

/-! ### Closing -/

theorem Inv.closePrimary (hs : s.Inv) (hh : s.memory h = some (.primary c))
    (hclose : s.closePrimary h c nTeeError = some s') : s'.Inv := by
  unfold Cryptoki.closePrimary at hclose
  by_cases herror : nTeeError = TEEC_SUCCESS
  · rw [if_neg (not_not.mpr herror)] at hclose
    obtain ⟨-, l, hsorted, hl⟩ := hs.primary hh
    have hlength := hsorted.length_le fun a ha => (hsorted.range a ha).2
    obtain ⟨s₁, hs₁, hmemory⟩ := closeSecondaries_spec hsorted (lt_succ_of_le hlength)
      { s with sessions := s.sessions.erase c.sSession }
    obtain ⟨s₂, hs₂, hclose⟩ := bind_eq_some_iff.mp hclose
    obtain rfl := some.inj (hs₁.symm.trans hs₂)
    obtain rfl := some.inj hclose
    refine hs.removeAll hh hl fun a => ?_
    rw [free_memory, hmemory]
    by_cases ha : a = h <;> simp [ha]
  · rw [if_pos herror] at hclose
    obtain rfl := some.inj hclose
    exact hs

theorem Inv.closeSecondary (hs : s.Inv) {d : PKCS11_SECONDARY_SESSION_CONTEXT}
    (hh : s.memory h = some (.secondary d))
    (hclose : s.closeSecondary h d nTeeError = some s') : s'.Inv := by
  obtain ⟨-, c, hc⟩ := hs.secondary hh
  simp only [Cryptoki.closeSecondary, hc] at hclose
  by_cases herror : nTeeError = TEEC_SUCCESS
  · rw [if_neg (not_not.mpr herror)] at hclose
    obtain rfl := some.inj hclose
    obtain ⟨-, l, hsorted, hl⟩ := hs.primary hc
    have hchild : s.Child d.pPrimarySession h := ⟨d, hh, rfl⟩
    obtain ⟨l₁, l₂, rfl⟩ := append_of_mem ((hl h).mpr hchild)
    have hne : h ≠ d.pPrimarySession := by
      intro heq
      rw [← heq, hh] at hc
      cases hc
    have hnotmem := (nodup_cons.mp (perm_middle.nodup_iff.mp hsorted.nodup)).1
    refine hs.storeTable none hc (.inr hchild) nofun ?_ hsorted.remove.1 fun a => ?_
    · exact update_comm hne.symm _ _ _
    · rw [← hl, mem_append, mem_append, mem_cons]
      rw [mem_append] at hnotmem
      by_cases ha : a = h
      · simpa [ha] using hnotmem
      · simp [ha]
  · rw [if_pos herror] at hclose
    obtain rfl := some.inj hclose
    exact hs

/-- Closing a session keeps the invariant. -/
theorem Inv.closeSession (hs : s.Inv) (hclose : s.C_CloseSession h nTeeError = some s') :
    s'.Inv := by
  unfold C_CloseSession at hclose
  by_cases hinitialized : s.stub.g_bCryptokiInitialized = false
  · rw [if_pos hinitialized] at hclose
    obtain rfl := some.inj hclose
    exact hs
  rw [if_neg hinitialized] at hclose
  obtain ⟨⟨opened, bIsPrimarySession⟩, -, hclose⟩ := bind_eq_some_iff.mp hclose
  cases opened with
  | false =>
    obtain rfl := some.inj hclose
    exact hs
  | true =>
    cases hh : s.memory h with
    | none => simp [hh] at hclose
    | some object =>
      cases object with
      | primary c => exact hs.closePrimary hh (by simpa [hh] using hclose)
      | secondary d => exact hs.closeSecondary hh (by simpa [hh] using hclose)
      | other sHeader => simp [hh] at hclose

end Cryptoki

end OmapHal.CryptoSst
