import OmapHal.ResourceManagerProxy.Thread

/-!
# Requests and answers

A request that waits is completed by the terminal answers for its component and by no message for
another, and the unsolicited messages reach the callback of the component that they name. The
thread keeps this up exactly under conditions on the messages, since its semaphore, its error cell
and its fatal-error flag are those of the process.
-/

namespace OmapHal.ResourceManagerProxy

open Option

open OmapHal.Core (Along)
open ResourceManager (RESOURCEMANAGER_ERRORTYPE)

variable {stubMode : Bool} {s : Proxy} {rm_data : Message} {event : Event}

/-- The code with which an answer completes a request. -/
def terminalCode : RESOURCEMANAGER_ERRORTYPE → Option OMX_ERRORTYPE
  | .RM_GRANT => some .OMX_ErrorNone
  | .RM_DENY => some .OMX_ErrorInsufficientResources
  | .RM_RESOURCEFATALERROR => some .OMX_RmProxyCallback_FatalError
  | _ => none

/-- The event of which a message tells its component. A fatal error for the component whose request
waits is the answer to the request. -/
def Proxy.eventCode (s : Proxy) (rm_data : Message) : Option OMX_ERRORTYPE :=
  match rm_data.rm_status with
  | .RM_PREEMPT => some OMX_RmProxyCallback_ResourcesPreempted
  | .RM_RESOURCEACQUIRED => some OMX_RmProxyCallback_ResourcesAcquired
  | .RM_RESOURCEFATALERROR =>
    if s.requester = some rm_data.hComponent then none
    else some .OMX_RmProxyCallback_FatalError
  | _ => none

/-- The callback that is called, the component that its data names, and the event that it is told.
Components may share a callback, which tells them apart by the data. -/
def Output.delivery : Output → Option (Nat × Nat × OMX_ERRORTYPE)
  | .callback client hComponent error => some (client, hComponent, error)
  | _ => none

/-- The request that waits, if any, is completed by each terminal answer for its component and by no
message for another. -/
def Proxy.Completes (stubMode : Bool) (s : Proxy) (rm_data : Message) : Prop :=
  ∀ h, s.requester = some h →
    (rm_data.hComponent = h → ∀ code, terminalCode rm_data.rm_status = some code →
      (s.next stubMode (.message rm_data)).RM_Error = some (some code) ∧
        ∃ posts, s.sem = some posts ∧
          (s.next stubMode (.message rm_data)).sem = some (posts + 1)) ∧
    (rm_data.hComponent ≠ h → (s.next stubMode (.message rm_data)).sem = s.sem)

/-- An unsolicited message reaches the component that it names, by its callback and by its name, if
that is registered, and nothing else reaches a callback. -/
def Proxy.Delivers (stubMode : Bool) (s : Proxy) (rm_data : Message) : Prop :=
  (s.step stubMode (.message rm_data)).2.filterMap Output.delivery =
    match s.eventCode rm_data, s.find rm_data.hComponent with
    | some code, some c => [(c.callback, rm_data.hComponent, code)]
    | _, _ => []

/-- What is asked of each step. A command must not be stored outside the list of components. -/
def Proxy.Matches (stubMode : Bool) (s : Proxy) : Event → Prop
  | .message rm_data => s.Completes stubMode rm_data ∧ s.Delivers stubMode rm_data
  | .command => (s.next stubMode .command).faults = s.faults
  | .send _ => True
  | .wake => True

/-- The condition on a grant or a denial: it is for the component whose request waits, and the error
cell of the request is still there. -/
def Proxy.AnswersRequester (s : Proxy) (hComponent : Nat) : Prop :=
  ∀ h, s.requester = some h → hComponent = h ∧ s.RM_Error ≠ none

/-- The condition on a fatal error. It is the first one, for the component whose request waits or
while none waits; or it is for a component that is not registered, whose loss is none. -/
def Proxy.FatalErrorReaches (s : Proxy) (hComponent : Nat) : Prop :=
  match s.requester with
  | some h =>
    (hComponent = h ∧ s.fatalErrorHandled = false ∧ s.RM_Error ≠ none) ∨
      (hComponent ≠ h ∧ s.fatalErrorHandled = true ∧ s.find hComponent = none)
  | none => s.fatalErrorHandled = false ∨ s.find hComponent = none

/-- The condition on an acquisition: the command or message that named a component last named this
one, or it is not registered. -/
def Proxy.NamedLast (s : Proxy) (hComponent : Nat) : Prop :=
  s.cmd_hComponent = hComponent ∨ s.find hComponent = none

/-- The condition on each step. -/
def Proxy.Orderly (s : Proxy) : Event → Prop
  | .message rm_data =>
    match rm_data.rm_status with
    | .RM_GRANT | .RM_DENY => s.AnswersRequester rm_data.hComponent
    | .RM_RESOURCEFATALERROR => s.FatalErrorReaches rm_data.hComponent
    | .RM_RESOURCEACQUIRED => s.NamedLast rm_data.hComponent
    | _ => True
  | .command =>
    ∀ cmd ∈ s.tothread.head?, cmd.RM_Cmd = .RMProxy_RequestResource →
      s.componentList.length < RMPROXY_MAXCOMPONENTS
  | .send _ => True
  | .wake => True

/-- The flag, the semaphore and the waiting request belong together. -/
structure Proxy.Paired (stubMode : Bool) (s : Proxy) : Prop where
  pending : s.responsePending = s.requester.isSome
  sem : s.requester ≠ none → s.sem ≠ none
  stub : stubMode = true → s.requester = none

theorem Proxy.Paired.start (stubMode : Bool) : Proxy.start.Paired stubMode :=
  ⟨rfl, fun h => absurd rfl h, fun _ => rfl⟩

/-- A state in which the request and its semaphore are as before, but for posts. -/
theorem Proxy.Paired.congr {t : Proxy} (h : s.Paired stubMode)
    (hpending : t.responsePending = s.responsePending) (hrequester : t.requester = s.requester)
    (hsem : t.sem = none → s.sem = none) : t.Paired stubMode where
  pending := by rw [hpending, hrequester, h.pending]
  sem hsome hnone := h.sem (hrequester ▸ hsome) (hsem hnone)
  stub hstub := hrequester.trans (h.stub hstub)

theorem post_sem_eq_none (h : s.post.sem = none) : s.sem = none := map_eq_none_iff.mp h

theorem Proxy.Paired.message (h : s.Paired stubMode) (rm_data : Message) :
    (handleMessage stubMode s rm_data).1.Paired stubMode := by
  unfold handleMessage
  split
  · exact h.congr rfl rfl post_sem_eq_none
  · exact h.congr rfl rfl id
  · unfold handleFatalError
    split
    · exact h
    · split
      · exact h.congr rfl rfl id
      · exact h.congr rfl rfl post_sem_eq_none
  · split
    · exact h
    · exact h.congr rfl rfl post_sem_eq_none
  · exact h.congr rfl rfl id
  · exact h

theorem Proxy.Paired.command (h : s.Paired stubMode) (cmd : Command) :
    (handleCommand s cmd).1.Paired stubMode := by
  unfold handleCommand
  split
  · exact h
  · exact h.congr rfl rfl id
  · unfold handleRequest Proxy.register
    split
    · exact h.congr rfl rfl id
    · exact h.congr rfl rfl id
  · exact h
  · exact h.congr rfl rfl id
  · exact h

theorem Proxy.Paired.next (h : s.Paired stubMode) (event : Event) :
    (s.next stubMode event).Paired stubMode := by
  unfold Proxy.next Proxy.step
  cases event with
  | send cmd =>
    unfold RMProxy_NewSendCommand
    dsimp only
    split
    · cases stubMode with
      | true => exact ⟨rfl, fun hne => absurd rfl hne, fun _ => rfl⟩
      | false => exact ⟨rfl, fun _ => some_ne_none 0, fun hstub => Bool.noConfusion hstub⟩
    · exact h.congr rfl rfl id
  | command =>
    dsimp only
    split
    · exact h
    · rename_i cmd rest _
      exact (h.congr rfl rfl id :
        Proxy.Paired stubMode { s with tothread := rest, cmd_hComponent := cmd.hComponent }).command
        cmd
  | message rm_data => exact h.message rm_data
  | wake =>
    dsimp only
    split
    · exact ⟨rfl, fun hne => absurd rfl hne, fun _ => rfl⟩
    · exact h

theorem delivery_callbackClient (s : Proxy) (hComponent : Nat) (error : OMX_ERRORTYPE) :
    (RMProxy_CallbackClient s hComponent error).filterMap Output.delivery =
      match s.find hComponent with
      | some c => [(c.callback, s.cmd_hComponent, error)]
      | none => [] := by
  unfold RMProxy_CallbackClient
  cases s.find hComponent with
  | none => rfl
  | some c => rfl

/-- An answer that sets the error and posts the semaphore, whomever it is for. -/
theorem completes_iff_of_posts (hpaired : s.Paired stubMode) (code : OMX_ERRORTYPE)
    (hcode : terminalCode rm_data.rm_status = some code)
    (herror : (s.next stubMode (.message rm_data)).RM_Error = s.RM_Error.map fun _ => some code)
    (hsem : s.requester ≠ none → (s.next stubMode (.message rm_data)).sem = s.sem.map (· + 1)) :
    s.Completes stubMode rm_data ↔ s.AnswersRequester rm_data.hComponent := by
  unfold Proxy.Completes Proxy.AnswersRequester
  refine forall_congr' fun h => forall_congr' fun hrequester => ?_
  have hwaits : s.requester ≠ none := by rw [hrequester]; exact some_ne_none h
  obtain ⟨posts, hposts⟩ := ne_none_iff_exists'.mp (hpaired.sem hwaits)
  rw [herror, hsem hwaits, hposts]
  constructor
  · rintro ⟨hown, hother⟩
    have hsame : rm_data.hComponent = h := by
      by_contra hne
      have hkept := some.inj (hother hne)
      dsimp only at hkept
      omega
    refine ⟨hsame, fun hnone => ?_⟩
    have hset := (hown hsame code hcode).1
    rw [hnone] at hset
    cases hset
  · rintro ⟨hsame, hcell⟩
    obtain ⟨value, hvalue⟩ := ne_none_iff_exists'.mp hcell
    refine ⟨fun _ code' hcode' => ⟨?_, posts, rfl, rfl⟩, fun hne => absurd hsame hne⟩
    rw [hvalue, some.inj (hcode'.symm.trans hcode)]
    rfl

/-- A message that leaves the semaphore alone and is no terminal answer completes nothing. -/
theorem completes_of_kept (hcode : terminalCode rm_data.rm_status = none)
    (hsem : (s.next stubMode (.message rm_data)).sem = s.sem) : s.Completes stubMode rm_data := by
  intro h hrequester
  refine ⟨fun _ code hcode' => ?_, fun _ => hsem⟩
  rw [hcode] at hcode'
  cases hcode'

/-- What a message delivers, when it calls no callback, is right if it calls for none. -/
theorem delivers_nil_iff (hnone : (s.step stubMode (.message rm_data)).2 = []) :
    s.Delivers stubMode rm_data ↔ s.eventCode rm_data = none ∨
    s.find rm_data.hComponent = none := by
  unfold Proxy.Delivers
  rw [hnone]
  cases s.eventCode rm_data with
  | none => exact iff_of_true rfl (.inl rfl)
  | some code =>
    cases s.find rm_data.hComponent with
    | none => exact iff_of_true rfl (.inr rfl)
    | some c => exact iff_of_false nofun (by simp)

/-- A message that calls the callback of its component delivers what it should if the data names
the component. -/
theorem delivers_iff_of_callClient {t : Proxy} {code : OMX_ERRORTYPE}
    (hcode : s.eventCode rm_data = some code) (hlist : t.componentList = s.componentList)
    (hstep : (s.step stubMode (.message rm_data)).2 =
      RMProxy_CallbackClient t rm_data.hComponent code) :
    s.Delivers stubMode rm_data ↔
      t.cmd_hComponent = rm_data.hComponent ∨ s.find rm_data.hComponent = none := by
  unfold Proxy.Delivers
  rw [hstep, delivery_callbackClient, hcode]
  have hfind : t.find rm_data.hComponent = s.find rm_data.hComponent := by
    unfold Proxy.find
    rw [hlist]
  rw [hfind]
  cases s.find rm_data.hComponent with
  | none => exact iff_of_true rfl (.inr rfl)
  | some c => simp

theorem eventCode_fatalError (hstatus : rm_data.rm_status = .RM_RESOURCEFATALERROR) :
    s.eventCode rm_data =
      if s.requester = some rm_data.hComponent then none
      else some .OMX_RmProxyCallback_FatalError := by
  unfold Proxy.eventCode
  rw [hstatus]

/-- A fatal error completes and reaches what it should exactly under its condition. -/
theorem fatalError_matches_iff (hpaired : s.Paired stubMode)
    (hstatus : rm_data.rm_status = .RM_RESOURCEFATALERROR) :
    s.Completes stubMode rm_data ∧ s.Delivers stubMode rm_data ↔
      s.FatalErrorReaches rm_data.hComponent := by
  have hstep : s.step stubMode (.message rm_data) = handleFatalError s rm_data.hComponent := by
    show handleMessage stubMode s rm_data = _
    unfold handleMessage
    rw [hstatus]
  have hevent := eventCode_fatalError (s := s) hstatus
  have hpending := hpaired.pending
  unfold Proxy.FatalErrorReaches
  cases hrequester : s.requester with
  | none =>
    rw [hrequester] at hpending hevent
    rw [if_neg (some_ne_none _).symm] at hevent
    have hcompletes : s.Completes stubMode rm_data := fun h hsome => by
      rw [hrequester] at hsome
      cases hsome
    rw [and_iff_right hcompletes]
    cases hhandled : s.fatalErrorHandled with
    | true =>
      have hnil : (s.step stubMode (.message rm_data)).2 = [] := by
        rw [hstep, handleFatalError, if_pos hhandled]
      rw [delivers_nil_iff hnil, hevent]
      simp
    | false =>
      refine iff_of_true ((delivers_iff_of_callClient hevent (t := { s with
        cmd_hComponent := rm_data.hComponent, fatalErrorHandled := true }) rfl ?_).mpr (.inl rfl))
        (.inl rfl)
      rw [hstep, handleFatalError, if_neg (by rw [hhandled]; exact Bool.false_ne_true), hpending]
      rfl
  | some h =>
    rw [hrequester] at hpending hevent
    have hwaits : s.requester ≠ none := by rw [hrequester]; exact some_ne_none h
    have hnil : (s.step stubMode (.message rm_data)).2 = [] := by
      rw [hstep, handleFatalError, hpending]
      split <;> rfl
    rw [delivers_nil_iff hnil, hevent]
    cases hhandled : s.fatalErrorHandled with
    | true =>
      have hnext : s.next stubMode (.message rm_data) = s := by
        unfold Proxy.next
        rw [hstep, handleFatalError, if_pos hhandled]
      obtain ⟨posts, hposts⟩ := ne_none_iff_exists'.mp (hpaired.sem hwaits)
      by_cases hsame : rm_data.hComponent = h
      · -- the answer is lost
        refine iff_of_false (fun hboth => ?_) (by simp [hsame])
        obtain ⟨-, posts', hposts', hposted⟩ := (hboth.1 h hrequester).1 hsame
          .OMX_RmProxyCallback_FatalError (by rw [hstatus]; rfl)
        rw [hnext, hposts'] at hposted
        exact absurd (some.inj hposted) (by omega)
      · have hcompletes : s.Completes stubMode rm_data := fun h' hsome => by
          obtain rfl : h = h' := some.inj (hrequester.symm.trans hsome)
          exact ⟨fun heq => absurd heq hsame, fun _ => by rw [hnext]⟩
        rw [and_iff_right hcompletes, if_neg fun heq => hsame (some.inj heq).symm]
        simp [hsame]
    | false =>
      have hnext : s.next stubMode (.message rm_data) =
          { (s.setError .OMX_RmProxyCallback_FatalError).post with fatalErrorHandled := true } := by
        unfold Proxy.next
        rw [hstep, handleFatalError, if_neg (by rw [hhandled]; exact Bool.false_ne_true), hpending]
        rfl
      rw [completes_iff_of_posts hpaired .OMX_RmProxyCallback_FatalError
        (by rw [hstatus]; rfl) (by rw [hnext]; rfl) (fun _ => by rw [hnext]; rfl)]
      unfold Proxy.AnswersRequester
      rw [hrequester]
      simp only [some.injEq, forall_eq', Bool.false_eq_true, false_and, and_false, or_false,
        true_and]
      by_cases hsame : rm_data.hComponent = h
      · simp [hsame]
      · simp [hsame]

/-- Only a request can be stored outside the list of components. -/
theorem handleCommand_faults_iff (s : Proxy) (cmd : Command) :
    (cmd.RM_Cmd = .RMProxy_RequestResource → s.componentList.length < RMPROXY_MAXCOMPONENTS) ↔
      (handleCommand s cmd).1.faults = s.faults := by
  unfold handleCommand
  split
  · rename_i hcmd
    exact iff_of_true (fun h => by rw [hcmd] at h; cases h) rfl
  · rename_i hcmd
    exact iff_of_true (fun h => by rw [hcmd] at h; cases h) rfl
  · rename_i hcmd
    rw [hcmd]
    unfold handleRequest Proxy.register
    split
    · rename_i hroom
      exact iff_of_true (fun _ => hroom) rfl
    · rename_i hfull
      exact iff_of_false (fun h => hfull (h rfl)) (Nat.succ_ne_self _)
  · rename_i hcmd
    exact iff_of_true (fun h => by rw [hcmd] at h; cases h) rfl
  · rename_i hcmd
    exact iff_of_true (fun h => by rw [hcmd] at h; cases h) rfl
  · rename_i hcmd
    exact iff_of_true (fun h => absurd h ‹_›) rfl

/-- A grant or a denial, outside stub mode, completes the right request exactly if it is for it. -/
theorem answer_matches_iff (hpaired : s.Paired stubMode) {code : OMX_ERRORTYPE}
    (hcode : terminalCode rm_data.rm_status = some code) (hevent : s.eventCode rm_data = none)
    (hstep : s.step stubMode (.message rm_data) = ((s.setError code).post, [])) :
    s.AnswersRequester rm_data.hComponent ↔
      s.Completes stubMode rm_data ∧ s.Delivers stubMode rm_data := by
  have hdelivers : s.Delivers stubMode rm_data :=
    (delivers_nil_iff (congrArg Prod.snd hstep)).mpr (.inl hevent)
  have hnext : s.next stubMode (.message rm_data) = (s.setError code).post :=
    congrArg Prod.fst hstep
  rw [and_iff_left hdelivers]
  exact (completes_iff_of_posts hpaired _ hcode (by rw [hnext]; rfl)
    (fun _ => by rw [hnext]; rfl)).symm

/-- Where request and semaphore belong together, a step does what is asked of it exactly under its
condition. -/
theorem Proxy.Paired.matches_iff (hpaired : s.Paired stubMode) (event : Event) :
    s.Orderly event ↔ s.Matches stubMode event := by
  cases event with
  | send cmd => exact Iff.rfl
  | wake => exact Iff.rfl
  | command =>
    unfold Proxy.Orderly Proxy.Matches Proxy.next Proxy.step
    cases hpipe : s.tothread with
    | nil => exact iff_of_true (fun cmd hcmd => nomatch hcmd) rfl
    | cons cmd rest =>
      rw [List.head?_cons]
      refine Iff.trans ?_ (handleCommand_faults_iff
        { s with tothread := rest, cmd_hComponent := cmd.hComponent } cmd)
      simp
  | message rm_data =>
    obtain ⟨hComponent, rm_status⟩ := rm_data
    cases rm_status with
    | RM_ErrorNone =>
      refine iff_of_true trivial ⟨completes_of_kept rfl rfl, ?_⟩
      exact (delivers_nil_iff rfl).mpr (.inl rfl)
    | RM_GRANT =>
      cases stubMode with
      | true =>
        have hnone := hpaired.stub rfl
        refine iff_of_true (fun h hsome => ?_) ⟨fun h hsome => ?_, ?_⟩
        · rw [hnone] at hsome
          cases hsome
        · rw [hnone] at hsome
          cases hsome
        · exact (delivers_nil_iff rfl).mpr (.inl rfl)
      | false => exact answer_matches_iff hpaired rfl rfl rfl
    | RM_DENY => exact answer_matches_iff hpaired rfl rfl rfl
    | RM_PREEMPT =>
      refine iff_of_true trivial ⟨completes_of_kept rfl rfl, ?_⟩
      exact (@delivers_iff_of_callClient stubMode s ⟨hComponent, .RM_PREEMPT⟩
        { s with cmd_hComponent := hComponent } _ rfl rfl rfl).mpr (.inl rfl)
    | RM_RESOURCEACQUIRED =>
      exact (delivers_iff_of_callClient rfl (t := s) rfl rfl).symm.trans
        (and_iff_right (completes_of_kept rfl rfl)).symm
    | RM_RESOURCEFATALERROR => exact (fatalError_matches_iff hpaired rfl).symm

/-- The request of a component. -/
def request (hComponent : Nat) : Command :=
    ⟨hComponent, .RMProxy_RequestResource, 0, 0, 0, hComponent⟩

/-- Two components request and are granted, and the second one is told of more. -/
def grants : List Event :=
  [.send (request 1), .command, .message ⟨1, .RM_GRANT⟩, .wake, .send (request 2), .command,
    .message ⟨2, .RM_GRANT⟩, .wake, .message ⟨2, .RM_RESOURCEACQUIRED⟩]

/-- A fatal error for one component while the request of another waits. -/
def strayError : List Event :=
  [.send (request 1), .command, .message ⟨1, .RM_GRANT⟩, .wake, .send (request 2), .command,
    .message ⟨1, .RM_RESOURCEFATALERROR⟩]

end OmapHal.ResourceManagerProxy
