import OmapHal.CryptoSst.SessionTables

/-!
# Failed openings of a session

A call of `C_OpenSession` opens a session or leaves the globals, the sessions of the secure world,
the contexts and the tables as they were, except for one error path.
-/

namespace OmapHal.CryptoSst

open Option List

variable {s s' : Cryptoki} {call : OpenCall} {l : List Pointer} {p h : Pointer}

/-- The nodes of a table are linked and numbered as those of another one. -/
def LIB_OBJECT_TABLE_HANDLE16.SameNodes (t t' : LIB_OBJECT_TABLE_HANDLE16) : Prop :=
  t'.pRoot = t.pRoot ∧ ∃ l, t.Sorted l ∧
    ∀ a ∈ l, t'.pNext a = t.pNext a ∧ t'.pPrevious a = t.pPrevious a ∧ t'.nHandle a = t.nHandle a

theorem LIB_OBJECT_TABLE_HANDLE16.Sorted.sameNodes {t t' : LIB_OBJECT_TABLE_HANDLE16}
    (h : t.Sorted l) (h' : t'.Sorted l) (hhandles : ∀ a ∈ l, t'.nHandle a = t.nHandle a) :
    t.SameNodes t' := by
  refine ⟨h'.root.trans h.root.symm, l, h, fun a ha => ?_⟩
  obtain ⟨hnext, hprev⟩ := h.ring.links_eq h'.ring ha
  exact ⟨hnext, hprev, hhandles a ha⟩

/-- The same object, in memory that a table takes no part in but by its nodes. -/
inductive SameObject : Option Object → Option Object → Prop
  | refl (object : Option Object) : SameObject object object
  | table {context : PKCS11_PRIMARY_SESSION_CONTEXT} {table : LIB_OBJECT_TABLE_HANDLE16}
      (h : context.sSecondarySessionTable.SameNodes table) :
      SameObject (some (.primary context))
        (some (.primary { context with sSecondarySessionTable := table }))

namespace Cryptoki

/-- The globals, the sessions of the secure world, the contexts and their tables are as before. -/
structure Same (s s' : Cryptoki) : Prop where
  stub : s'.stub = s.stub
  sessions : s'.sessions = s.sessions
  memory : ∀ p, SameObject (s.memory p) (s'.memory p)

theorem Same.refl (s : Cryptoki) : s.Same s := ⟨rfl, rfl, fun p => .refl (s.memory p)⟩

/-- A session was opened: a handle was stored and it points to a new context. -/
structure Opens (s : Cryptoki) (o : Outcome) : Prop where
  ok : o.nErrorCode = CKR_OK
  made : ∃ p object, o.phSession = some p ∧ s.memory p = none ∧ o.state.memory p = some object ∧
    object.sHeader.nMagicWord = PKCS11_SESSION_MAGIC

/-- An error was returned and nothing is left of the call. -/
structure Fails (s : Cryptoki) (o : Outcome) : Prop where
  error : o.nErrorCode ≠ CKR_OK
  same : s.Same o.state

/-- The call opens a session, or it fails and nothing is left of it. -/
def Atomic (s : Cryptoki) (call : OpenCall) : Prop :=
  ∃ o, s.C_OpenSession call = some o ∧ (s.Opens o ∨ s.Fails o)

/-- A session of the secure world is open when the command for a primary session fails. -/
def LeftOpen (s : Cryptoki) (call : OpenCall) : Prop :=
  call.phSession.isSome ∧ s.stub.g_bCryptokiInitialized = true ∧
    call.flags &&& CKVF_OPEN_SUB_SESSION = 0 ∧ call.malloc.isSome ∧
      ∃ sSession ∈ call.openTeeSession.2, (call.invokePrimary sSession).1 ≠ TEEC_SUCCESS

/-! ### The two branches -/

private theorem sessionErrorCode_ne (nErrorOrigin : UInt32) {nTeeError : TEEC_Result}
    (h : nTeeError ≠ TEEC_SUCCESS) : sessionErrorCode nErrorOrigin nTeeError ≠ CKR_OK := by
  by_cases horigin : nErrorOrigin = TEEC_ORIGIN_TRUSTED_APP
  · rwa [sessionErrorCode, if_pos horigin]
  · rw [sessionErrorCode, if_neg horigin, ckInternalTeeErrorToCKError, if_neg h]
    split_ifs <;> decide

private theorem device_memory_ne : CKR_DEVICE_MEMORY ≠ CKR_OK := by decide

/-- A session comes with success, and only with it. -/
private theorem openTeeSession_isSome (call : OpenCall) :
    call.openTeeSession.2.isSome ↔ call.openTeeSession.1 = TEEC_SUCCESS := by
  have hopen : ∀ nLoginType param3, (call.teeOpenSession nLoginType param3).2.isSome ↔
      (call.teeOpenSession nLoginType param3).1 = TEEC_SUCCESS := by
    intro nLoginType param3
    simp [OpenCall.teeOpenSession]
  unfold OpenCall.openTeeSession
  split
  · dsimp only
    split
    · exact hopen _ _
    · split
      · rename_i herror
        exact iff_of_false (by simp) herror
      · split
        · exact hopen _ _
        · exact hopen _ _
  · exact hopen _ _

/-- What opening a primary session comes to. -/
inductive OpensPrimary (s : Cryptoki) (call : OpenCall) (o : Outcome) : Prop
  | failed (herror : o.nErrorCode ≠ CKR_OK) (hstate : o.state = s)
      (hleft : call.malloc = none ∨ call.openTeeSession.2 = none)
  | left (p : Pointer) (sSession : TEEC_Session) (herror : o.nErrorCode ≠ CKR_OK)
      (hstate : o.state = { s with sessions := sSession :: s.sessions })
      (hp : call.malloc = some p) (hsession : call.openTeeSession.2 = some sSession)
      (hinvoke : (call.invokePrimary sSession).1 ≠ TEEC_SUCCESS)
  | opened (p : Pointer) (c : PKCS11_PRIMARY_SESSION_CONTEXT) (hok : o.nErrorCode = CKR_OK)
      (hp : call.malloc = some p) (hhandle : o.phSession = some p)
      (hsession : call.openTeeSession.2 = some c.sSession)
      (hinvoke : (call.invokePrimary c.sSession).1 = TEEC_SUCCESS)
      (hheader : c.sHeader = sessionHeader PKCS11_PRIMARY_SESSION_TAG)
      (hroot : c.sSecondarySessionTable.pRoot = none)
      (hstate : o.state = { s.store p (.primary c) with sessions := c.sSession :: s.sessions })

/-- The opening of a primary session. -/
theorem openPrimary_spec (call : OpenCall) (hfresh : ∀ p ∈ call.malloc, s.memory p = none) :
    OpensPrimary s call (s.openPrimary call) := by
  unfold openPrimary
  cases hmalloc : call.malloc with
  | none => exact .failed device_memory_ne rfl (.inl hmalloc)
  | some p =>
    have hp := hfresh p hmalloc
    have hsome := openTeeSession_isSome call
    rcases hopen : call.openTeeSession with ⟨nTeeError, _ | sSession⟩
    · rw [hopen] at hsome
      have herror : nTeeError ≠ TEEC_SUCCESS := fun h => absurd (hsome.mpr h) (by simp)
      exact .failed (sessionErrorCode_ne TEEC_ORIGIN_API herror) (free_store hp _)
        (.inr (by rw [hopen]))
    · have hsession : call.openTeeSession.2 = some sSession := by rw [hopen]
      dsimp only
      by_cases hinvoke : (call.invokePrimary sSession).1 = TEEC_SUCCESS
      · rw [if_neg (not_not.mpr hinvoke)]
        refine .opened p ⟨sessionHeader PKCS11_PRIMARY_SESSION_TAG, sSession,
          (call.invokePrimary sSession).2.2, ⟨none, id, id, fun _ => 0⟩⟩ rfl hmalloc rfl hsession
          hinvoke rfl rfl ?_
        simp [store]
      · rw [if_pos hinvoke]
        refine .left p sSession (sessionErrorCode_ne _ hinvoke) ?_ hmalloc hsession hinvoke
        have hmemory := congrArg Cryptoki.memory (free_store hp (.other ⟨0, 0⟩))
        simp only [free, store, Function.update_idem] at hmemory ⊢
        rw [hmemory]

theorem Inv.openPrimary (hs : s.Inv) (hfresh : ∀ p ∈ call.malloc, s.memory p = none) :
    (s.openPrimary call).state.Inv := by
  have hsame : ∀ sessions, Inv { s with sessions } := fun _ => ⟨hs.primary, hs.secondary⟩
  cases openPrimary_spec call hfresh with
  | failed _ hstate _ =>
    rw [hstate]
    exact hs
  | left p sSession _ hstate _ _ _ =>
    rw [hstate]
    exact hsame _
  | opened p c _ hp _ _ _ hheader hroot hstate =>
    rw [hstate]
    have hstored := hs.storePrimary (hfresh p hp) hheader hroot
    exact ⟨hstored.primary, hstored.secondary⟩

theorem ckInternalSessionIsOpenedEx_primary
    (hopened : s.ckInternalSessionIsOpenedEx h = some (true, true)) :
    ∃ c, s.memory h = some (.primary c) := by
  unfold ckInternalSessionIsOpenedEx at hopened
  by_cases hnull : h = 0
  · simp [hnull] at hopened
  rw [if_neg hnull] at hopened
  obtain ⟨object, hobject, hopened⟩ := bind_eq_some_iff.mp hopened
  cases object with
  | primary c => exact ⟨c, hobject⟩
  | secondary d =>
    exfalso
    cases hparent : s.memory d.pPrimarySession with
    | none => grind
    | some parent =>
      cases parent <;> grind
  | other sHeader =>
    exfalso
    grind

/-- What opening a secondary session comes to. -/
inductive OpensSecondary (s : Cryptoki) (o : Outcome) : Prop
  | failed (herror : o.nErrorCode ≠ CKR_OK) (hsame : s.Same o.state) (hinv : o.state.Inv)
  | opened (p : Pointer) (d : PKCS11_SECONDARY_SESSION_CONTEXT) (hok : o.nErrorCode = CKR_OK)
      (hp : s.memory p = none) (hhandle : o.phSession = some p)
      (hd : o.state.memory p = some (.secondary d))
      (hheader : d.sHeader = sessionHeader PKCS11_SECONDARY_SESSION_TAG) (hinv : o.state.Inv)

private theorem session_handle_invalid_ne : CKR_SESSION_HANDLE_INVALID ≠ CKR_OK := by decide

/-- The opening of a secondary session. -/
theorem openSecondary_spec (hs : s.Inv) (hfresh : ∀ p ∈ call.malloc, s.memory p = none)
    (hread : (s.ckInternalSessionIsOpenedEx h).isSome) :
    ∃ o, s.openSecondary call h = some o ∧ OpensSecondary s o := by
  obtain ⟨⟨opened, bIsPrimarySession⟩, hopen⟩ := isSome_iff_exists.mp hread
  unfold openSecondary
  rw [hopen]
  dsimp only [bind_eq_bind, bind_some]
  by_cases hvalid : opened ∧ bIsPrimarySession
  swap
  · rw [if_pos (by simpa [imp_iff_not_or] using hvalid)]
    exact ⟨_, rfl, .failed session_handle_invalid_ne (Same.refl s) hs⟩
  obtain ⟨rfl, rfl⟩ := hvalid
  obtain ⟨c, hc⟩ := ckInternalSessionIsOpenedEx_primary hopen
  rw [if_neg (by simp), hc]
  cases hmalloc : call.malloc with
  | none => exact ⟨_, rfl, .failed device_memory_ne (Same.refl s) hs⟩
  | some p =>
    have hp := hfresh p hmalloc
    have hne : p ≠ h := by
      rintro rfl
      simp [hc] at hp
    obtain ⟨-, l, hsorted, hl⟩ := hs.primary hc
    have hnotmem : p ∉ l := by
      rw [hl]
      rintro ⟨d, hd, -⟩
      simp [hp] at hd
    obtain ⟨added, table, hadd, hadds⟩ := hsorted.add_spec hnotmem
    dsimp only
    rw [hadd]
    dsimp only [bind_some]
    cases hadds with
    | full hfull =>
      have hstate : ((s.store p (.secondary ⟨sessionHeader PKCS11_SECONDARY_SESSION_TAG,
          call.stale, h⟩)).store h (.primary c)).free p = s := by
        rw [store_comm hne, store_self hc, free_store hp]
      refine ⟨_, rfl, .failed device_memory_ne ?_ ?_⟩
      · exact (congrArg s.Same hstate).mpr (Same.refl s)
      · exact (congrArg Inv hstate).mpr hs
    | @added _ l₁ l₂ hl₁ hsorted' hsame hroom =>
      rw [if_neg (by simp)]
      subst hl₁
      obtain ⟨hsorted₂, hsame₂⟩ := hsorted'.remove
      by_cases hinvoke : (call.invokeSecondary c).1 = TEEC_SUCCESS
      · rw [if_neg (not_not.mpr hinvoke), store_comm hne, store_store, ← store_comm hne]
        refine ⟨_, rfl, .opened p ⟨sessionHeader PKCS11_SECONDARY_SESSION_TAG,
          (call.invokeSecondary c).2.2, h⟩ rfl hp rfl ?_ rfl ?_⟩
        · rw [store_memory, if_neg hne, store_memory, if_pos rfl]
        · refine hs.storeTable _ hc (.inl hp) ?_ rfl hsorted' fun a => ?_
          · intro x hx
            obtain rfl := some.inj hx
            exact ⟨_, rfl, rfl, rfl⟩
          · rw [← hl, mem_append, mem_cons, mem_append]
            by_cases ha : a = p <;> simp [ha]
      · rw [if_pos hinvoke, store_store]
        have hstate : ∀ y, ((s.store p (.secondary ⟨sessionHeader PKCS11_SECONDARY_SESSION_TAG,
            call.stale, h⟩)).store h y).free p = s.store h y := by
          intro y
          rw [store_comm hne, free_store]
          rwa [store_memory, if_neg hne]
        rw [hstate]
        refine ⟨_, rfl, .failed (sessionErrorCode_ne _ hinvoke) ⟨rfl, rfl, fun a => ?_⟩ ?_⟩
        · rw [store_memory]
          by_cases ha : a = h
          · rw [if_pos ha, ha, hc]
            exact .table (hsorted.sameNodes hsorted₂ fun b hb => (hsame₂ b hb).trans (hsame b hb))
          · rw [if_neg ha]
            exact .refl _
        · refine hs.storeTable none hc (.inl hp) nofun ?_ hsorted₂ fun a => ?_
          · rw [← hp, Function.update_eq_self]
            rfl
          · rw [hl]
            by_cases ha : a = p
            · rw [if_pos ha, ha]
              exact iff_of_false (fun hchild => hnotmem ((hl p).mpr hchild)) (by simp)
            · rw [if_neg ha]

end Cryptoki

/-! ### Runs -/

/-- A call of the module that has a part in the sessions. -/
inductive SessionEvent where
  | module (call : Call)
  | C_OpenSession (call : OpenCall)
  | C_CloseSession (hSession : Pointer) (nTeeError : TEEC_Result)

namespace Cryptoki

/-- The library is loaded, beside memory of the caller's. -/
def start (others : Pointer → Option PKCS11_SESSION_CONTEXT_HEADER) : Cryptoki where
  stub := Stub.start
  memory p := (others p).map .other
  sessions := []

def step (s : Cryptoki) : SessionEvent → Option Cryptoki
  | .module call => some { s with stub := CryptoSst.step s.stub call }
  | .C_OpenSession call => (s.C_OpenSession call).map Outcome.state
  | .C_CloseSession hSession nTeeError => s.C_CloseSession hSession nTeeError

/-- Allocation gives out memory that is not in use, and a session that is named to open another one
below it can be read. -/
structure Possible (s : Cryptoki) (call : OpenCall) : Prop where
  fresh : ∀ p ∈ call.malloc, s.memory p = none
  read : ∀ hSession, call.phSession = some hSession → call.flags &&& CKVF_OPEN_SUB_SESSION ≠ 0 →
    (s.ckInternalSessionIsOpenedEx hSession).isSome

/-- The states after any calls from the loading of the library on. -/
inductive Reachable (others : Pointer → Option PKCS11_SESSION_CONTEXT_HEADER) : Cryptoki → Prop
  | start : Reachable others (start others)
  | step {s s' : Cryptoki} (event : SessionEvent) (h : Reachable others s)
      (hpossible : ∀ call, event = .C_OpenSession call → s.Possible call)
      (hs' : s.step event = some s') : Reachable others s'

variable {others : Pointer → Option PKCS11_SESSION_CONTEXT_HEADER}

theorem inv_start : (start others).Inv := by
  have hother : ∀ p object, (start others).memory p = some object →
      ∃ sHeader, object = .other sHeader := by
    intro p object hp
    obtain ⟨sHeader, -, rfl⟩ := map_eq_some_iff.mp hp
    exact ⟨sHeader, rfl⟩
  constructor
  · intro p c hp
    obtain ⟨sHeader, h⟩ := hother p _ hp
    cases h
  · intro p d hp
    obtain ⟨sHeader, h⟩ := hother p _ hp
    cases h

/-- What an opening comes to: a session, or an error that leaves the sessions of the secure world
as they were but for one that is left open. -/
theorem C_OpenSession_spec (hs : s.Inv) (hpossible : s.Possible call) :
    ∃ o, s.C_OpenSession call = some o ∧ o.state.Inv ∧
      (¬ s.LeftOpen call ∧ (s.Opens o ∨ s.Fails o) ∨
        s.LeftOpen call ∧ o.nErrorCode ≠ CKR_OK ∧ o.state.sessions ≠ s.sessions) := by
  have harguments : CKR_ARGUMENTS_BAD ≠ CKR_OK := by decide
  have hnot : CKR_CRYPTOKI_NOT_INITIALIZED ≠ CKR_OK := by decide
  unfold C_OpenSession
  cases hsession : call.phSession with
  | none =>
    refine ⟨_, rfl, hs, .inl ⟨?_, .inr ⟨harguments, Same.refl s⟩⟩⟩
    simp [LeftOpen, hsession]
  | some hSession =>
    dsimp only
    by_cases hinitialized : s.stub.g_bCryptokiInitialized = false
    · rw [if_pos hinitialized]
      refine ⟨_, rfl, hs, .inl ⟨?_, .inr ⟨hnot, Same.refl s⟩⟩⟩
      simp [LeftOpen, hinitialized]
    rw [if_neg hinitialized]
    by_cases hflags : call.flags &&& CKVF_OPEN_SUB_SESSION = 0
    · rw [if_pos hflags]
      refine ⟨_, rfl, hs.openPrimary hpossible.fresh, ?_⟩
      have hleft : s.LeftOpen call ↔ call.malloc.isSome ∧
          ∃ sSession ∈ call.openTeeSession.2, (call.invokePrimary sSession).1 ≠ TEEC_SUCCESS := by
        simp [LeftOpen, hsession, hinitialized, hflags]
      rw [hleft]
      cases openPrimary_spec call hpossible.fresh with
      | failed herror hstate hnone =>
        refine .inl ⟨?_, .inr ⟨herror, (congrArg s.Same hstate).mpr (Same.refl s)⟩⟩
        rcases hnone with hnone | hnone <;> simp [hnone]
      | left p sSession herror hstate hp hopened hinvoke =>
        refine .inr ⟨⟨by simp [hp], sSession, hopened, hinvoke⟩, herror, ?_⟩
        rw [hstate]
        exact cons_ne_self sSession s.sessions
      | opened p c hok hp hhandle hopened hinvoke hheader hroot hstate =>
        refine .inl ⟨?_, .inl ⟨hok, p, .primary c, hhandle, hpossible.fresh p hp, ?_, ?_⟩⟩
        · simp [hopened, hinvoke]
        · rw [hstate]
          exact (store_memory s p p _).trans (if_pos rfl)
        · simp [Object.sHeader, hheader, sessionHeader]
    · rw [if_neg hflags]
      obtain ⟨o, ho, hopens⟩ :=
        openSecondary_spec hs hpossible.fresh (hpossible.read hSession hsession hflags)
      have hleft : ¬ s.LeftOpen call := by simp [LeftOpen, hflags]
      refine ⟨o, ho, ?_⟩
      cases hopens with
      | failed herror hsame hinv => exact ⟨hinv, .inl ⟨hleft, .inr ⟨herror, hsame⟩⟩⟩
      | opened p d hok hp hhandle hd hheader hinv =>
        refine ⟨hinv, .inl ⟨hleft, .inl ⟨hok, p, .secondary d, hhandle, hp, hd, ?_⟩⟩⟩
        simp [Object.sHeader, hheader, sessionHeader]

theorem Reachable.inv (h : Reachable others s) : s.Inv := by
  induction h with
  | start => exact inv_start
  | @step s s' event _ hpossible hs' ih =>
    cases event with
    | module call =>
      obtain rfl := some.inj hs'
      exact ⟨ih.primary, ih.secondary⟩
    | C_OpenSession call =>
      obtain ⟨o, ho, hinv, -⟩ := C_OpenSession_spec ih (hpossible call rfl)
      rw [Cryptoki.step, ho] at hs'
      obtain rfl := some.inj hs'
      exact hinv
    | C_CloseSession hSession nTeeError => exact ih.closeSession hs'

theorem sessions_closeSecondaries {turns : Nat} {table : LIB_OBJECT_TABLE_HANDLE16}
    (h : closeSecondaries turns table s = some s') : s'.sessions = s.sessions := by
  induction turns generalizing table s with
  | zero => cases h
  | succ turns ih =>
    rw [closeSecondaries] at h
    split at h
    · rw [Option.some.inj h]
    · exact (ih h).trans rfl

/-- In every state that calls lead to, closing an open primary session closes its session of the
secure world, frees its context and those of the secondary sessions below it, and nothing else.
Where the library is not initialized or the command fails, nothing is closed or freed. -/
theorem C_CloseSession_frees (h : Reachable others s) {c : PKCS11_PRIMARY_SESSION_CONTEXT}
    (hp : s.memory p = some (.primary c)) (hnull : p ≠ 0)
    (hopened : c.hCryptoSession ≠ CK_INVALID_HANDLE) (nTeeError : TEEC_Result) :
    ∃ s', s.C_CloseSession p nTeeError = some s' ∧
      if s.stub.g_bCryptokiInitialized ∧ nTeeError = TEEC_SUCCESS then
        s'.sessions = s.sessions.erase c.sSession ∧
        (∀ a, a = p ∨ s.Child p a → s'.memory a = none) ∧
        ∀ a, ¬ (a = p ∨ s.Child p a) → s'.memory a = s.memory a
      else s' = s := by
  obtain ⟨hheader, l, hsorted, hl⟩ := h.inv.primary hp
  have hlength := hsorted.length_le fun a ha => (hsorted.range a ha).2
  obtain ⟨t, ht, hmemory⟩ := closeSecondaries_spec hsorted (Nat.lt_succ_of_le hlength)
    { s with sessions := s.sessions.erase c.sSession }
  have hopen : s.ckInternalSessionIsOpenedEx p = some (true, true) := by
    rw [ckInternalSessionIsOpenedEx, if_neg hnull, hp]
    simp [Object.sHeader, hheader, sessionHeader, hopened]
  split_ifs with hdone
  · obtain ⟨hinitialized, rfl⟩ := hdone
    refine ⟨t.free p, ?_, sessions_closeSecondaries ht, fun a ha => ?_, fun a ha => ?_⟩
    · simp [C_CloseSession, hinitialized, hopen, hp, closePrimary, ht]
    · rw [free_memory, hmemory]
      rcases ha with rfl | ha
      · exact if_pos rfl
      · rw [if_pos ((hl a).mpr ha), ite_self]
    · rw [not_or, ← hl] at ha
      rw [free_memory, hmemory, if_neg ha.1, if_neg ha.2]
  · refine ⟨s, ?_, rfl⟩
    by_cases hinitialized : s.stub.g_bCryptokiInitialized
    · have hfails : nTeeError ≠ TEEC_SUCCESS := fun hok => hdone ⟨hinitialized, hok⟩
      simp [C_CloseSession, hinitialized, hopen, hp, closePrimary, hfails]
    · simp [C_CloseSession, hinitialized]

end Cryptoki

/-- In every state that calls lead to, opening a session is atomic exactly if it does not fail at
the command for a primary session, behind the opening of a session of the secure world. -/
theorem C_OpenSession_atomic_iff (others : Pointer → Option PKCS11_SESSION_CONTEXT_HEADER)
    (s : Cryptoki) (call : OpenCall) (hreachable : Cryptoki.Reachable others s)
    (hpossible : s.Possible call) : s.Atomic call ↔ ¬ s.LeftOpen call := by
  obtain ⟨o, ho, -, ⟨hleft, hatomic⟩ | ⟨hleft, herror, hsessions⟩⟩ :=
    Cryptoki.C_OpenSession_spec hreachable.inv hpossible
  · exact iff_of_true ⟨o, ho, hatomic⟩ hleft
  · refine iff_of_false ?_ (not_not.mpr hleft)
    rintro ⟨o', ho', hopens | hfails⟩
    · obtain rfl := some.inj (ho.symm.trans ho')
      exact herror hopens.ok
    · obtain rfl := some.inj (ho.symm.trans ho')
      exact hsessions hfails.same.sessions

/-- A device that answers. -/
def answering : Tee where
  driver := ⟨.ok 3, .ok ()⟩
  signature := ⟨true, false, false, 0, false, []⟩
  openSession := fun _ _ => (TEEC_SUCCESS, 7)

/-- A session on the shared system token, with the answers to `TEEC_OpenSession` and to the
command. -/
def sharedCall (opened invoked : TEEC_Result) : OpenCall where
  slotID := CKV_TOKEN_SYSTEM_SHARED
  flags := 0
  phSession := some 0
  malloc := some 0x1000
  stale := 0
  signature := answering.signature
  openSession := fun _ _ _ => (opened, 7)
  invokeCommand := fun _ _ _ => (invoked, TEEC_ORIGIN_TRUSTED_APP, 1)

/-- The state after `C_Initialize`. -/
def initialized : Cryptoki :=
  { Cryptoki.start fun _ => none with stub := (C_Initialize 0 answering Stub.start).1 }

theorem initialized_reachable : Cryptoki.Reachable (fun _ => none) initialized :=
  .step (.module (.C_Initialize 0 answering)) .start nofun rfl

theorem sharedCall_possible (opened invoked : TEEC_Result) :
    initialized.Possible (sharedCall opened invoked) :=
  ⟨fun _ _ => rfl, fun _ _ hflags =>
    absurd (show (0 : UInt32) &&& CKVF_OPEN_SUB_SESSION = 0 by decide) hflags⟩

/-- The secure world denies a session. -/
theorem C_OpenSession_atomic_iff_denied :
    initialized.Atomic (sharedCall TEEC_ERROR_ACCESS_DENIED TEEC_SUCCESS) := by
  refine (C_OpenSession_atomic_iff _ _ _ initialized_reachable (sharedCall_possible _ _)).mpr ?_
  rintro ⟨-, -, -, -, sSession, hopened, -⟩
  cases hopened

/-- The command fails behind the opening of a session of the secure world, and the session stays
open. -/
theorem denied_command_not_atomic : Cryptoki.Reachable (fun _ => none) initialized ∧
    initialized.Possible (sharedCall TEEC_SUCCESS TEEC_ERROR_ACCESS_DENIED) ∧
      ¬ initialized.Atomic (sharedCall TEEC_SUCCESS TEEC_ERROR_ACCESS_DENIED) := by
  refine ⟨initialized_reachable, sharedCall_possible _ _, ?_⟩
  rintro ⟨o, ho, hopens | hfails⟩
  · obtain rfl := some.inj ho
    exact absurd hopens.ok (by decide)
  · obtain rfl := some.inj ho
    exact absurd hfails.same.sessions (by decide)

theorem C_CloseSession_frees_opened :
    ∃ s s' : Cryptoki, Cryptoki.Reachable (fun _ => none) s ∧ (s.memory 0x1000).isSome ∧
      s.C_CloseSession 0x1000 TEEC_SUCCESS = some s' ∧ s'.memory 0x1000 = none := by
  have hs : Cryptoki.Reachable (fun _ => none)
      (initialized.openPrimary (sharedCall TEEC_SUCCESS TEEC_SUCCESS)).state :=
    .step (.C_OpenSession (sharedCall TEEC_SUCCESS TEEC_SUCCESS)) initialized_reachable
      (fun _ heq => by cases heq; exact sharedCall_possible _ _) rfl
  obtain ⟨s', hclose, hfreed⟩ :=
    Cryptoki.C_CloseSession_frees (p := 0x1000) hs rfl (by decide) (by decide) TEEC_SUCCESS
  rw [if_pos ⟨rfl, rfl⟩] at hfreed
  exact ⟨_, s', hs, rfl, hclose, hfreed.2.1 _ (.inl rfl)⟩

end OmapHal.CryptoSst
