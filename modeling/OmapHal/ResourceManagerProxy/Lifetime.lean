import OmapHal.Core.Run

/-!
# The lifetime of the proxy thread

The initialisations of `ResourceManagerProxy.c` count the users of the proxy in a process, by
family, and start its thread; the deinitialisations stop it with the last user. A session keeps
beside the globals of the file the initialisations that have not been undone.
-/

namespace OmapHal.ResourceManagerProxy

open List

open OmapHal.Core (Along)

/-- The error codes of the proxy. `OMX_RmProxyCallback_ResourcesAcquired` is zero, as
`OMX_ErrorNone` is. -/
inductive OMX_ERRORTYPE where
  | OMX_ErrorNone | OMX_ErrorInsufficientResources | OMX_ErrorBadParameter
  | OMX_ErrorResourcesPreempted | OMX_RmProxyCallback_FatalError
  deriving DecidableEq, Repr

def OMX_RmProxyCallback_ResourcesAcquired : OMX_ERRORTYPE := .OMX_ErrorNone

def OMX_RmProxyCallback_ResourcesPreempted : OMX_ERRORTYPE := .OMX_ErrorResourcesPreempted

/-- The families of components. A number that names none of them is `OMX_COMPONENTTYPE_unknown`. -/
inductive OMX_LINUX_COMPONENTTYPE where
  | OMX_COMPONENTTYPE_AUDIO | OMX_COMPONENTTYPE_VIDEO | OMX_COMPONENTTYPE_VPP
  | OMX_COMPONENTTYPE_IMAGE | OMX_COMPONENTTYPE_CAMERA | OMX_COMPONENTTYPE_DISPLAY1
  | OMX_COMPONENTTYPE_DISPLAY2 | OMX_COMPONENTTYPE_unknown
  deriving DecidableEq, Repr

open OMX_LINUX_COMPONENTTYPE

/-- The two initialisations, the second one by family. -/
inductive Kind where
  | NewInitalize
  | NewInitalizeEx (componentType : OMX_LINUX_COMPONENTTYPE)
  deriving DecidableEq, Repr

/-- The globals that the initialisations use. `thread` says that the proxy thread runs. -/
structure Globals where
  nInstances : Int
  nVideoInstances : Int
  nVPPInstances : Int
  nImageInstances : Int
  nCameraInstances : Int
  nDisplay1Instances : Int
  nDisplay2Instances : Int
  flag : Bool
  thread : Bool
  deriving DecidableEq, Repr

/-- The counter of an initialisation; the family `AUDIO` has none. -/
def Globals.instances (g : Globals) : Kind → Int
  | .NewInitalize => g.nInstances
  | .NewInitalizeEx OMX_COMPONENTTYPE_VIDEO => g.nVideoInstances
  | .NewInitalizeEx OMX_COMPONENTTYPE_VPP => g.nVPPInstances
  | .NewInitalizeEx OMX_COMPONENTTYPE_IMAGE => g.nImageInstances
  | .NewInitalizeEx OMX_COMPONENTTYPE_CAMERA => g.nCameraInstances
  | .NewInitalizeEx OMX_COMPONENTTYPE_DISPLAY1 => g.nDisplay1Instances
  | .NewInitalizeEx OMX_COMPONENTTYPE_DISPLAY2 => g.nDisplay2Instances
  | .NewInitalizeEx OMX_COMPONENTTYPE_AUDIO => 0
  | .NewInitalizeEx OMX_COMPONENTTYPE_unknown => 0

/-- A change to the counter of an initialisation. -/
def Globals.add (g : Globals) (n : Int) : Kind → Globals
  | .NewInitalize => { g with nInstances := g.nInstances + n }
  | .NewInitalizeEx OMX_COMPONENTTYPE_VIDEO => { g with nVideoInstances := g.nVideoInstances + n }
  | .NewInitalizeEx OMX_COMPONENTTYPE_VPP => { g with nVPPInstances := g.nVPPInstances + n }
  | .NewInitalizeEx OMX_COMPONENTTYPE_IMAGE => { g with nImageInstances := g.nImageInstances + n }
  | .NewInitalizeEx OMX_COMPONENTTYPE_CAMERA =>
      { g with nCameraInstances := g.nCameraInstances + n }
  | .NewInitalizeEx OMX_COMPONENTTYPE_DISPLAY1 =>
    { g with nDisplay1Instances := g.nDisplay1Instances + n }
  | .NewInitalizeEx OMX_COMPONENTTYPE_DISPLAY2 =>
    { g with nDisplay2Instances := g.nDisplay2Instances + n }
  | .NewInitalizeEx OMX_COMPONENTTYPE_AUDIO => g
  | .NewInitalizeEx OMX_COMPONENTTYPE_unknown => g

/-- The initialisations that have a counter. -/
def Kind.counted : Kind → Bool
  | .NewInitalizeEx OMX_COMPONENTTYPE_AUDIO => false
  | .NewInitalizeEx OMX_COMPONENTTYPE_unknown => false
  | _ => true

/-- Which of the steps that start the thread succeed. -/
structure Steps where
  pipe : Bool
  calloc : Bool
  pthread_create : Bool
  deriving DecidableEq, Repr

def Steps.succeed (o : Steps) : Bool := o.pipe && o.calloc && o.pthread_create

/-- The part that both initialisations end with. -/
def Globals.startThread (g : Globals) (o : Steps) : OMX_ERRORTYPE × Globals :=
  if g.flag then (.OMX_ErrorNone, g)
  else if !o.pipe then (.OMX_ErrorInsufficientResources, g)
  else if !o.calloc then (.OMX_ErrorInsufficientResources, g)
  else if !o.pthread_create then (.OMX_ErrorInsufficientResources, g)
  else (.OMX_ErrorNone, { g with flag := true, thread := true })

def RMProxy_NewInitalize (g : Globals) (o : Steps) : OMX_ERRORTYPE × Globals :=
  if 8 < g.nInstances then
    (.OMX_ErrorInsufficientResources, { g with nInstances := g.nInstances - 1 })
  else
    match g.startThread o with
    | (.OMX_ErrorNone, g) => (.OMX_ErrorNone, { g with nInstances := g.nInstances + 1 })
    | failed => failed

/-- `MAX_VIDEO_INSTANCES` and its like. The first three exist only with `__VIDEO_EXHAUSTION__`. -/
def maxInstances (video_exhaustion : Bool) : OMX_LINUX_COMPONENTTYPE → Option Int
  | OMX_COMPONENTTYPE_VIDEO | OMX_COMPONENTTYPE_VPP | OMX_COMPONENTTYPE_IMAGE =>
    if video_exhaustion then some 2 else none
  | OMX_COMPONENTTYPE_CAMERA | OMX_COMPONENTTYPE_DISPLAY1 | OMX_COMPONENTTYPE_DISPLAY2 => some 1
  | OMX_COMPONENTTYPE_AUDIO | OMX_COMPONENTTYPE_unknown => none

/-- A counter is over its limit. -/
def exceeds (limit : Option Int) (n : Int) : Bool :=
  match limit with
  | some max => max < n
  | none => false

/-- The cases of `RMProxy_NewInitalizeEx`: one more of a family, taken back over the limit. -/
def Globals.countIn (g : Globals) (video_exhaustion : Bool)
    (componentType : OMX_LINUX_COMPONENTTYPE) : OMX_ERRORTYPE × Globals :=
  if componentType = OMX_COMPONENTTYPE_unknown then (.OMX_ErrorBadParameter, g)
  else
    let g := g.add 1 (.NewInitalizeEx componentType)
    if exceeds (maxInstances video_exhaustion componentType)
        (g.instances (.NewInitalizeEx componentType)) then
      (.OMX_ErrorInsufficientResources, g.add (-1) (.NewInitalizeEx componentType))
    else (.OMX_ErrorNone, g)

def RMProxy_NewInitalizeEx (video_exhaustion : Bool) (g : Globals)
    (componentType : OMX_LINUX_COMPONENTTYPE) (o : Steps) : OMX_ERRORTYPE × Globals :=
  match g.countIn video_exhaustion componentType with
  | (.OMX_ErrorNone, g) => g.startThread o
  | failed => failed

/-- All counters are zero. -/
def Globals.idle (g : Globals) : Bool :=
  g.nVideoInstances == 0 && g.nVPPInstances == 0 && g.nImageInstances == 0 &&
    g.nCameraInstances == 0 && g.nDisplay1Instances == 0 && g.nDisplay2Instances == 0 &&
    g.nInstances == 0

/-- The part that both deinitialisations end with: the thread is told to exit and joined. -/
def Globals.stopThread (g : Globals) : Globals :=
  if g.idle then { g with flag := false, thread := false } else g

def RMProxy_Deinitalize (g : Globals) : Globals :=
  Globals.stopThread { g with nInstances := g.nInstances - 1 }

def RMProxy_DeinitalizeEx (g : Globals) (componentType : OMX_LINUX_COMPONENTTYPE) : Globals :=
  if componentType = OMX_COMPONENTTYPE_unknown then g
  else (g.add (-1) (.NewInitalizeEx componentType)).stopThread

/-- A call of one of the four functions. -/
inductive Call where
  | init (kind : Kind) (o : Steps)
  | deinit (kind : Kind)
  deriving DecidableEq, Repr

/-- What a call returns, and what it does to the globals. -/
def Call.run (video_exhaustion : Bool) (g : Globals) : Call → OMX_ERRORTYPE × Globals
  | .init .NewInitalize o => RMProxy_NewInitalize g o
  | .init (.NewInitalizeEx componentType) o =>
      RMProxy_NewInitalizeEx video_exhaustion g componentType o
  | .deinit .NewInitalize => (.OMX_ErrorNone, RMProxy_Deinitalize g)
  | .deinit (.NewInitalizeEx componentType) =>
      (.OMX_ErrorNone, RMProxy_DeinitalizeEx g componentType)

/-- The globals and the successful initialisations that have not been undone. -/
structure Session where
  globals : Globals
  outstanding : List Kind
  deriving DecidableEq, Repr

def Session.start : Session := ⟨⟨0, 0, 0, 0, 0, 0, 0, false, false⟩, []⟩

def Session.step (video_exhaustion : Bool) (s : Session) (call : Call) : Session where
  globals := (call.run video_exhaustion s.globals).2
  outstanding :=
    match call with
    | .init kind _ =>
      if (call.run video_exhaustion s.globals).1 = .OMX_ErrorNone then kind :: s.outstanding
      else s.outstanding
    | .deinit kind => s.outstanding.erase kind

/-- A deinitialisation undoes an initialisation of its kind. -/
def Session.Matched (s : Session) : Call → Prop
  | .init _ _ => True
  | .deinit kind => kind ∈ s.outstanding

instance (s : Session) : DecidablePred s.Matched := fun call =>
  match call with
  | .init _ _ => isTrue trivial
  | .deinit kind => inferInstanceAs (Decidable (kind ∈ s.outstanding))

/-- The thread runs exactly while there is an initialisation to undo. -/
def Session.Lives (s : Session) : Prop := s.globals.thread = true ↔ s.outstanding ≠ []

/-- A call that fails leaves the counters as they were. -/
def Session.Undisturbed (video_exhaustion : Bool) (s : Session) (call : Call) : Prop :=
  (call.run video_exhaustion s.globals).1 ≠ .OMX_ErrorNone →
    ∀ kind, (call.run video_exhaustion s.globals).2.instances kind = s.globals.instances kind

/-- What the calls need. No `RMProxy_NewInitalize` comes on top of nine others, no initialisation
by family fails to start the thread, unless it has no counter, and the uncounted `AUDIO` is never
left alone. -/
def Session.Gentle (s : Session) : Call → Prop
  | .init .NewInitalize _ => s.globals.nInstances ≤ 8
  | .init (.NewInitalizeEx componentType) o =>
    s.globals.flag = true ∨ o.succeed = true ∨ (Kind.NewInitalizeEx componentType).counted = false
  | .deinit kind =>
    s.outstanding.erase kind = [] ∨
      ∃ other ∈ s.outstanding.erase kind, other ≠ .NewInitalizeEx OMX_COMPONENTTYPE_AUDIO

variable {video_exhaustion : Bool} {g : Globals} {s : Session} {call : Call} {kind : Kind}
  {o : Steps}

theorem instances_add_self (n : Int) (h : kind.counted) :
    (g.add n kind).instances kind = g.instances kind + n := by
  rcases kind with _ | componentType
  · rfl
  · cases componentType <;> first | rfl | cases h

theorem instances_add_of_ne (n : Int) {other : Kind} (h : other ≠ kind) :
    (g.add n kind).instances other = g.instances other := by
  rcases kind with _ | componentType <;> rcases other with _ | otherType
  · exact absurd rfl h
  · cases otherType <;> rfl
  · cases componentType <;> rfl
  · cases componentType <;> cases otherType <;> first | rfl | exact absurd rfl h

@[simp] theorem add_flag (n : Int) : (g.add n kind).flag = g.flag := by
  rcases kind with _ | componentType
  · rfl
  · cases componentType <;> rfl

@[simp] theorem add_thread (n : Int) : (g.add n kind).thread = g.thread := by
  rcases kind with _ | componentType
  · rfl
  · cases componentType <;> rfl

theorem idle_iff : g.idle ↔ ∀ kind, kind.counted → g.instances kind = 0 := by
  simp only [Globals.idle, Bool.and_eq_true, beq_iff_eq]
  constructor
  · rintro ⟨⟨⟨⟨⟨⟨hvideo, hvpp⟩, himage⟩, hcamera⟩, hdisplay1⟩, hdisplay2⟩, hplain⟩ kind hkind
    rcases kind with _ | componentType
    · exact hplain
    · cases componentType <;> first | assumption | cases hkind
  · intro h
    exact ⟨⟨⟨⟨⟨⟨h (.NewInitalizeEx OMX_COMPONENTTYPE_VIDEO) rfl,
      h (.NewInitalizeEx OMX_COMPONENTTYPE_VPP) rfl⟩,
      h (.NewInitalizeEx OMX_COMPONENTTYPE_IMAGE) rfl⟩,
      h (.NewInitalizeEx OMX_COMPONENTTYPE_CAMERA) rfl⟩,
      h (.NewInitalizeEx OMX_COMPONENTTYPE_DISPLAY1) rfl⟩,
      h (.NewInitalizeEx OMX_COMPONENTTYPE_DISPLAY2) rfl⟩, h .NewInitalize rfl⟩

/-- The thread is running already, it is started, or one of the steps fails. -/
theorem startThread_cases (g : Globals) (o : Steps) :
    (g.flag ∧ g.startThread o = (.OMX_ErrorNone, g)) ∨
      (g.flag = false ∧ o.succeed ∧
        g.startThread o = (.OMX_ErrorNone, { g with flag := true, thread := true })) ∨
      (g.flag = false ∧ o.succeed = false ∧
        g.startThread o = (.OMX_ErrorInsufficientResources, g)) := by
  obtain ⟨pipe, calloc, pthread_create⟩ := o
  unfold Globals.startThread Steps.succeed
  cases hflag : g.flag with
  | true => exact .inl ⟨rfl, rfl⟩
  | false =>
    right
    cases pipe <;> cases calloc <;> cases pthread_create <;> simp

/-- What every state of a session has in common as long as no failing call changes a counter. -/
structure Session.Accurate (s : Session) : Prop where
  flag : s.globals.flag = s.globals.thread
  counters : ∀ kind, kind.counted = true → s.globals.instances kind = s.outstanding.count kind
  known : Kind.NewInitalizeEx OMX_COMPONENTTYPE_unknown ∉ s.outstanding

theorem Session.Accurate.start : Session.start.Accurate where
  flag := rfl
  counters kind _ := by
    rcases kind with _ | componentType
    · rfl
    · cases componentType <;> rfl
  known h := nomatch h

/-- With accurate counters, the counters are all zero if only `AUDIO` is left. -/
theorem Session.Accurate.idle_iff (h : s.Accurate) : s.globals.idle ↔
    ∀ kind ∈ s.outstanding, kind = .NewInitalizeEx OMX_COMPONENTTYPE_AUDIO := by
  rw [ResourceManagerProxy.idle_iff]
  constructor
  · intro hzero kind hmem
    by_contra hne
    have hcounted : kind.counted := by
      rcases kind with _ | componentType
      · rfl
      · cases componentType with
        | OMX_COMPONENTTYPE_AUDIO => exact absurd rfl hne
        | OMX_COMPONENTTYPE_unknown => exact absurd hmem h.known
        | _ => rfl
    have hcount := h.counters kind hcounted
    rw [hzero kind hcounted] at hcount
    have hpos := count_pos_iff.mpr hmem
    omega
  · intro haudio kind hcounted
    rw [h.counters kind hcounted, count_eq_zero_of_not_mem]
    · rfl
    · intro hmem
      rw [haudio kind hmem] at hcounted
      cases hcounted

theorem add_neg_add (g : Globals) (kind : Kind) : (g.add 1 kind).add (-1) kind = g := by
  rcases kind with _ | componentType
  · simp only [Globals.add, Int.add_neg_cancel_right]
  · cases componentType <;> simp only [Globals.add, Int.add_neg_cancel_right]

/-- A limit is only exceeded by a second user. -/
theorem instances_pos_of_exceeds {componentType : OMX_LINUX_COMPONENTTYPE} {n : Int}
    (h : exceeds (maxInstances video_exhaustion componentType) (n + 1)) : 0 < n := by
  cases componentType <;> cases video_exhaustion <;> simp [maxInstances, exceeds] at h <;> omega

/-- An initialisation that starts the thread, or finds it running, is counted. -/
theorem startThread_counted (hflag : g.flag = g.thread) (h : (g.startThread o).1 = .OMX_ErrorNone) :
    g.startThread o = (.OMX_ErrorNone, { g with flag := true, thread := true }) := by
  rcases startThread_cases g o with ⟨hrunning, heq⟩ | ⟨-, -, heq⟩ | ⟨-, -, heq⟩
  · rw [heq]
    refine Prod.ext rfl ?_
    obtain ⟨plain, video, vpp, image, camera, display1, display2, flag, thread⟩ := g
    dsimp only at hrunning hflag ⊢
    rw [← hflag, hrunning]
  · exact heq
  · rw [heq] at h
    cases h

theorem startThread_failed (h : (g.startThread o).1 ≠ .OMX_ErrorNone) :
    g.startThread o = (.OMX_ErrorInsufficientResources, g) := by
  rcases startThread_cases g o with ⟨-, heq⟩ | ⟨-, -, heq⟩ | ⟨-, -, heq⟩
  · exact absurd (congrArg Prod.fst heq) h
  · exact absurd (congrArg Prod.fst heq) h
  · exact heq

/-- What an initialisation does: it is counted, it fails and changes nothing, or it fails and
leaves a counter changed. -/
theorem init_cases (video_exhaustion : Bool) (hflag : s.globals.flag = s.globals.thread)
    (kind : Kind) (o : Steps) :
    ((Call.init kind o).run video_exhaustion s.globals =
        (.OMX_ErrorNone, { s.globals.add 1 kind with flag := true, thread := true }) ∧
      kind ≠ .NewInitalizeEx OMX_COMPONENTTYPE_unknown ∧ s.Gentle (.init kind o)) ∨
    (((Call.init kind o).run video_exhaustion s.globals).1 ≠ .OMX_ErrorNone ∧
      ((Call.init kind o).run video_exhaustion s.globals).2 = s.globals ∧
      ((kind.counted → 0 < s.globals.instances kind → s.globals.flag) →
        s.Gentle (.init kind o))) ∨
    (((Call.init kind o).run video_exhaustion s.globals).1 ≠ .OMX_ErrorNone ∧
      kind.counted ∧ ¬s.Gentle (.init kind o) ∧ ∃ n : Int, n ≠ 0 ∧
        ((Call.init kind o).run video_exhaustion s.globals).2 = s.globals.add n kind) := by
  have hfail : OMX_ERRORTYPE.OMX_ErrorInsufficientResources ≠ .OMX_ErrorNone := by decide
  cases kind with
  | NewInitalize =>
    unfold Call.run RMProxy_NewInitalize
    dsimp only
    by_cases hmany : 8 < s.globals.nInstances
    · rw [if_pos hmany]
      exact .inr (.inr ⟨hfail, rfl, Int.not_le.mpr hmany, -1, by decide, rfl⟩)
    · rw [if_neg hmany]
      have hfew : s.globals.nInstances ≤ 8 := Int.not_lt.mp hmany
      by_cases hok : (s.globals.startThread o).1 = .OMX_ErrorNone
      · rw [startThread_counted hflag hok]
        exact .inl ⟨rfl, nofun, hfew⟩
      · rw [startThread_failed hok]
        exact .inr (.inl ⟨hfail, rfl, fun _ => hfew⟩)
  | NewInitalizeEx componentType =>
    unfold Call.run RMProxy_NewInitalizeEx Globals.countIn
    dsimp only
    by_cases hunknown : componentType = OMX_COMPONENTTYPE_unknown
    · rw [if_pos hunknown, hunknown]
      exact .inr (.inl ⟨nofun, rfl, fun _ => .inr (.inr rfl)⟩)
    rw [if_neg hunknown]
    by_cases hcounted : (Kind.NewInitalizeEx componentType).counted = true
    · rw [instances_add_self 1 hcounted]
      by_cases hlimit : exceeds (maxInstances video_exhaustion componentType)
          (s.globals.instances (.NewInitalizeEx componentType) + 1) = true
      · rw [if_pos hlimit]
        exact .inr (.inl ⟨hfail, add_neg_add s.globals _,
          fun hflag => .inl (hflag hcounted (instances_pos_of_exceeds hlimit))⟩)
      · rw [if_neg hlimit]
        dsimp only
        have hflag' : (s.globals.add 1 (.NewInitalizeEx componentType)).flag =
            (s.globals.add 1 (.NewInitalizeEx componentType)).thread := by
          rw [add_flag, add_thread, hflag]
        rcases startThread_cases (s.globals.add 1 (.NewInitalizeEx componentType)) o with
          ⟨hrunning, heq⟩ | ⟨-, hok, heq⟩ | ⟨hstopped, hnot, heq⟩
        · rw [startThread_counted hflag' (by rw [heq])]
          rw [add_flag] at hrunning
          exact .inl ⟨rfl, fun h => hunknown (Kind.NewInitalizeEx.inj h), .inl hrunning⟩
        · rw [heq]
          exact .inl ⟨rfl, fun h => hunknown (Kind.NewInitalizeEx.inj h), .inr (.inl hok)⟩
        · rw [heq]
          rw [add_flag] at hstopped
          refine .inr (.inr ⟨hfail, hcounted, ?_, 1, by decide, rfl⟩)
          rintro (hrunning | hok | huncounted)
          · rw [hstopped] at hrunning
            cases hrunning
          · rw [hnot] at hok
            cases hok
          · rw [hcounted] at huncounted
            cases huncounted
    · have haudio : componentType = OMX_COMPONENTTYPE_AUDIO := by
        cases componentType <;> first | rfl | exact absurd rfl hunknown | exact absurd rfl hcounted
      subst haudio
      have hgentle : s.Gentle (.init (.NewInitalizeEx OMX_COMPONENTTYPE_AUDIO) o) :=
        .inr (.inr rfl)
      show (s.globals.startThread o = _ ∧ _) ∨
        ((s.globals.startThread o).1 ≠ _ ∧ (s.globals.startThread o).2 = _ ∧ _) ∨ _
      by_cases hok : (s.globals.startThread o).1 = .OMX_ErrorNone
      · exact .inl ⟨startThread_counted hflag hok, nofun, hgentle⟩
      · rw [startThread_failed hok]
        exact .inr (.inl ⟨hfail, rfl, fun _ => hgentle⟩)

theorem instances_withFlag (g : Globals) (flag thread : Bool) (kind : Kind) :
    ({ g with flag := flag, thread := thread } : Globals).instances kind = g.instances kind := by
  rcases kind with _ | componentType
  · rfl
  · cases componentType <;> rfl

theorem instances_stopThread (g : Globals) (kind : Kind) :
    g.stopThread.instances kind = g.instances kind := by
  unfold Globals.stopThread
  split
  · exact instances_withFlag g false false kind
  · rfl

theorem deinit_run (video_exhaustion : Bool)
    (h : kind ≠ .NewInitalizeEx OMX_COMPONENTTYPE_unknown) :
    (Call.deinit kind).run video_exhaustion g = (.OMX_ErrorNone, (g.add (-1) kind).stopThread) := by
  cases kind with
  | NewInitalize => rfl
  | NewInitalizeEx componentType =>
    have hne : componentType ≠ OMX_COMPONENTTYPE_unknown := fun heq => h (congrArg _ heq)
    unfold Call.run RMProxy_DeinitalizeEx
    dsimp only
    rw [if_neg hne]

/-- One initialisation less, as far as the counters go. -/
theorem Session.Accurate.less (h : s.Accurate) (hmem : kind ∈ s.outstanding) :
    Session.Accurate ⟨s.globals.add (-1) kind, s.outstanding.erase kind⟩ where
  flag := by rw [add_flag, add_thread, h.flag]
  counters other hother := by
    by_cases heq : other = kind
    · subst heq
      have hpos := count_pos_iff.mpr hmem
      rw [instances_add_self _ hother, h.counters other hother, count_erase_self]
      omega
    · rw [instances_add_of_ne _ heq, h.counters other hother, count_erase_of_ne heq]
  known hin := h.known (mem_of_mem_erase hin)

/-- Counters stay accurate as long as no failing call changes one. -/
theorem Session.Accurate.step (h : s.Accurate) (hmatched : s.Matched call)
    (hundisturbed : s.Undisturbed video_exhaustion call) :
    (s.step video_exhaustion call).Accurate := by
  cases call with
  | init kind o =>
    rcases init_cases video_exhaustion h.flag kind o with
      ⟨hrun, hknown, -⟩ | ⟨hfail, hsame, -⟩ | ⟨hfail, hcounted, -, n, hn, hchanged⟩
    · unfold Session.step
      rw [hrun]
      dsimp only
      rw [if_pos rfl]
      refine ⟨rfl, fun other hother => ?_, fun hin => ?_⟩
      · rw [instances_withFlag]
        by_cases heq : other = kind
        · subst heq
          rw [instances_add_self _ hother, h.counters other hother, count_cons_self]
          omega
        · rw [instances_add_of_ne _ heq, h.counters other hother,
            count_cons_of_ne (Ne.symm heq)]
      · rcases mem_cons.mp hin with heq | hin
        · exact hknown heq.symm
        · exact h.known hin
    · unfold Session.step
      rw [hsame]
      dsimp only
      rw [if_neg hfail]
      exact h
    · have hkept := hundisturbed hfail kind
      rw [hchanged, instances_add_self n hcounted] at hkept
      omega
  | deinit kind =>
    have hknown : kind ≠ .NewInitalizeEx OMX_COMPONENTTYPE_unknown := fun heq =>
      h.known (heq ▸ hmatched)
    have hless := h.less hmatched
    unfold Session.step
    rw [deinit_run _ hknown]
    refine ⟨?_, fun other hother => ?_, hless.known⟩
    · unfold Globals.stopThread
      split
      · rfl
      · exact hless.flag
    · rw [instances_stopThread]
      exact hless.counters other hother

/-- Where the thread has run exactly while it was needed, a gentle call keeps it so, and no
other. -/
theorem Session.Accurate.gentle_iff (h : s.Accurate) (hlives : s.Lives)
    (hmatched : s.Matched call) :
    s.Gentle call ↔
      (s.step video_exhaustion call).Lives ∧ s.Undisturbed video_exhaustion call := by
  cases call with
  | init kind o =>
    rcases init_cases video_exhaustion h.flag kind o with
      ⟨hrun, hknown, hgentle⟩ | ⟨hfail, hsame, hgentle⟩ | ⟨hfail, hcounted, hnot, n, hn, hchanged⟩
    · refine iff_of_true hgentle ⟨?_, fun hfail => absurd (congrArg Prod.fst hrun) hfail⟩
      unfold Session.step Session.Lives
      rw [hrun]
      dsimp only
      rw [if_pos rfl]
      exact iff_of_true rfl (cons_ne_nil kind _)
    · refine iff_of_true (hgentle fun hcounted hpos => ?_) ⟨?_, fun _ other => by rw [hsame]⟩
      · rw [h.flag]
        refine hlives.mpr fun hnil => ?_
        rw [h.counters kind hcounted, hnil, count_nil] at hpos
        exact absurd hpos (by decide)
      · unfold Session.step Session.Lives
        rw [hsame]
        dsimp only
        rw [if_neg hfail]
        exact hlives
    · refine iff_of_false hnot fun hboth => ?_
      have hkept := hboth.2 hfail kind
      rw [hchanged, instances_add_self n hcounted] at hkept
      omega
  | deinit kind =>
    have hknown : kind ≠ .NewInitalizeEx OMX_COMPONENTTYPE_unknown := fun heq =>
      h.known (heq ▸ hmatched)
    have hless := h.less hmatched
    have hrun := deinit_run video_exhaustion (g := s.globals) hknown
    have hundisturbed : s.Undisturbed video_exhaustion (.deinit kind) := fun hfail =>
      absurd (congrArg Prod.fst hrun) hfail
    rw [and_iff_left hundisturbed]
    have hthread : s.globals.thread = true := hlives.mpr (ne_nil_of_mem hmatched)
    unfold Session.step Session.Lives Session.Gentle
    rw [hrun]
    dsimp only
    unfold Globals.stopThread
    split
    · rename_i hidle
      have haudio := hless.idle_iff.mp hidle
      rw [iff_false_left Bool.false_ne_true, not_ne_iff]
      refine or_iff_left ?_
      rintro ⟨other, hother, hne⟩
      exact hne (haudio other hother)
    · rename_i hbusy
      have hsome : ∃ other ∈ s.outstanding.erase kind,
        other ≠ .NewInitalizeEx OMX_COMPONENTTYPE_AUDIO := by
        by_contra hnone
        refine hbusy (hless.idle_iff.mpr fun other hother => ?_)
        by_contra hne
        exact hnone ⟨other, hother, hne⟩
      refine iff_of_true (.inr hsome) (iff_of_true ?_ ?_)
      · rw [add_thread]
        exact hthread
      · obtain ⟨other, hother, -⟩ := hsome
        exact ne_nil_of_mem hother

/-- Throughout a session the thread runs exactly while it is needed, and failing calls leave the
counters alone, if and only if all calls are gentle. -/
theorem proxy_lives_iff (video_exhaustion : Bool) (calls : List Call)
    (hmatched : Along (Session.step video_exhaustion) Session.Matched .start calls) :
    Along (Session.step video_exhaustion) Session.Gentle .start calls ↔
      Along (Session.step video_exhaustion)
        (fun s call => (s.step video_exhaustion call).Lives ∧ s.Undisturbed video_exhaustion call)
        .start calls := by
  refine Along.congr_invariant (I := fun s => s.Accurate ∧ s.Lives) hmatched
    ⟨Session.Accurate.start, by simp [Session.Lives, Session.start]⟩ ?_ ?_
  · rintro s call ⟨haccurate, hlives⟩ hcall
    exact haccurate.gentle_iff hlives hcall
  · rintro s call ⟨haccurate, -⟩ hcall ⟨hlives, hundisturbed⟩
    exact ⟨haccurate.step hcall hundisturbed, hlives⟩

/-- Users of two families, who leave in turn. -/
def twoUsers : List Call :=
  [.init (.NewInitalizeEx OMX_COMPONENTTYPE_VIDEO) ⟨true, true, true⟩,
    .init (.NewInitalizeEx OMX_COMPONENTTYPE_AUDIO) ⟨true, true, true⟩,
    .deinit (.NewInitalizeEx OMX_COMPONENTTYPE_AUDIO),
    .deinit (.NewInitalizeEx OMX_COMPONENTTYPE_VIDEO)]

theorem proxy_lives_once : Along (Session.step false)
    (fun s call => (s.step false call).Lives ∧ s.Undisturbed false call) .start twoUsers := by
  refine (proxy_lives_iff false twoUsers ⟨trivial, trivial, by decide, by decide, trivial⟩).mp ?_
  refine ⟨.inr (.inl rfl), .inr (.inl rfl), .inr ?_, .inl rfl, trivial⟩
  exact ⟨_, mem_cons_self, by decide⟩

/-- Two `AUDIO` users, one of which leaves. -/
def audioLeaves : List Call :=
  [.init (.NewInitalizeEx OMX_COMPONENTTYPE_AUDIO) ⟨true, true, true⟩,
    .init (.NewInitalizeEx OMX_COMPONENTTYPE_AUDIO) ⟨true, true, true⟩,
    .deinit (.NewInitalizeEx OMX_COMPONENTTYPE_AUDIO)]

theorem audio_user_left_alone :
    ¬∀ calls, Along (Session.step false) Session.Matched .start calls →
      Along (Session.step false)
        (fun s call => (s.step false call).Lives ∧ s.Undisturbed false call) .start calls := by
  intro hall
  have hmatched : Along (Session.step false) Session.Matched .start audioLeaves :=
    ⟨trivial, trivial, by decide, trivial⟩
  have hlives := (hall audioLeaves hmatched).2.2.1.1
  have hthread := hlives.mpr (by decide)
  exact absurd hthread (by decide)

end OmapHal.ResourceManagerProxy
