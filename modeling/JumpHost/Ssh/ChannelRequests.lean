import JumpHost.Library.OrdMap
import JumpHost.Library.Run

namespace JumpHost.ChannelRequests

section Sessions

structure Size where
  cols : Nat
  rows : Nat
  width : Nat
  height : Nat
deriving DecidableEq

structure Pty where
  term : String
  size : Size
deriving DecidableEq

def Pty.setWindow (size : Size) (pty : Pty) : Pty := { pty with size := size }

inductive Mode where
  | grammar
  | picker
deriving DecidableEq

inductive Phase where
  | idle
  | requested
  | chosen (taken : Option Pty)
  | opening (taken : Option Pty)
  | confirmed
  | piped
  | over
deriving DecidableEq

structure Upstream where
  pty : Option Pty
  env : OrdMap String String

inductive Request where
  | pty (info : Pty)
  | windowChange (size : Size)
deriving DecidableEq

structure Session where
  mode : Mode
  phase : Phase := .idle
  ready : Bool := false
  ptyInfo : Option Pty := none
  env : OrdMap String String := .empty
  upstream : Option Upstream := none
  sent : List Request := []
  accepted : OrdMap String String := .empty

inductive Event where
  | pty (info : Pty)
  | env (key val : String)
  | windowChange (size : Size)
  | shell
  | exec
  | choose
  | ready
  | call
  | confirm
  | callback

def onPty (s : Session) (info : Pty) : Session := { s with ptyInfo := some info, sent := s.sent ++ [.pty info] }

-- the picker listens to no env
def onEnv (s : Session) (key val : String) : Session :=
  match s.mode with
  | .grammar => { s with env := s.env.set key val }
  | .picker => s

def onWindowChange (s : Session) (size : Size) : Session :=
  match s.phase with
  | .piped =>
      let upstream := s.upstream.map fun up => { up with pty := up.pty.map (Pty.setWindow size) }
      { s with upstream := upstream, sent := s.sent ++ [.windowChange size] }
  | _ => { s with sent := s.sent ++ [.windowChange size] }

def onShell (s : Session) : Option Session :=
  match s.phase with
  | .idle => some { s with phase := .requested, accepted := s.env }
  | _ => none

def onExec (s : Session) : Option Session :=
  match s.mode with
  | .grammar => onShell s
  | .picker => match s.phase with
      | .idle | .requested => some { s with phase := .over }
      | _ => some s

def onChoose (s : Session) : Option Session :=
  match s.mode, s.phase with
  | .picker, .requested => some { s with phase := .chosen s.ptyInfo }
  | _, _ => none

def onReady (s : Session) : Option Session :=
  match s.mode, s.phase with
  | .grammar, _ | .picker, .chosen _ => some { s with ready := true }
  | _, _ => none

def onCall (s : Session) : Option Session :=
  match s.ready, s.mode, s.phase with
  | true, .grammar, .requested => some { s with phase := .opening s.ptyInfo }
  | true, .picker, .chosen taken => some { s with phase := .opening taken }
  | _, _, _ => none

-- the environment goes by reference, and is read when the channel is there
def Session.sendable (s : Session) : OrdMap String String :=
  match s.mode with
  | .grammar => s.env
  | .picker => .empty

def onConfirm (s : Session) : Option Session :=
  match s.phase with
  | .opening taken => some { s with phase := .confirmed, upstream := some ⟨taken,s.sendable⟩ }
  | _ => none

def onCallback (s : Session) : Option Session :=
  match s.phase with
  | .confirmed => some { s with phase := .piped }
  | _ => none

def step (s : Session) : Event → Option Session
  | .pty info => some (onPty s info)
  | .env key val => some (onEnv s key val)
  | .windowChange size => some (onWindowChange s size)
  | .shell => onShell s
  | .exec => onExec s
  | .choose => onChoose s
  | .ready => onReady s
  | .call => onCall s
  | .confirm => onConfirm s
  | .callback => onCallback s

def start (mode : Mode) : Session := { mode := mode }

end Sessions

section Terminals

variable {s t : Session} {e : Event}

def Request.apply (wanted : Option Pty) : Request → Option Pty
  | .pty info => some info
  | .windowChange size => wanted.map (Pty.setWindow size)

def wanted (sent : List Request) : Option Pty := sent.foldl Request.apply none

def Session.Served (s : Session) : Prop :=
  ∃ up, s.upstream = some up ∧ up.pty = wanted s.sent ∧
    ∀ key val, s.accepted.get? key = some val → up.env.get? key = some val

def Session.Faithful (s : Session) : Prop := s.phase = .piped → s.Served

def Phase.waiting : Phase → Bool
  | .idle | .requested => true
  | _ => false

def Phase.taken : Phase → Option (Option Pty)
  | .chosen taken | .opening taken => some taken
  | _ => none

def Phase.pending : Phase → Bool
  | .requested | .chosen _ | .opening _ => true
  | _ => false

def Phase.connected : Phase → Bool
  | .confirmed | .piped => true
  | _ => false

def Heard (s : Session) : Event → Prop
  | .pty info => s.phase.waiting = false → wanted s.sent = some info
  | .windowChange size => s.phase ≠ .piped → (wanted s.sent).map (Pty.setWindow size) = wanted s.sent
  | .env key val => s.phase.pending = true → ∀ val', s.accepted.get? key = some val' → val' = val
  | _ => True

theorem wanted_append (sent : List Request) (r : Request) : wanted (sent ++ [r]) = r.apply (wanted sent) := by
  simp [wanted]

def Session.Sendable (s : Session) : Prop :=
  ∀ key val, s.accepted.get? key = some val → s.sendable.get? key = some val

structure Session.Kept (s : Session) : Prop where
  bare : s.mode = .picker → s.env = .empty
  waiting : s.phase.waiting = true → s.ptyInfo = wanted s.sent
  taken : ∀ pty, s.phase.taken = some pty → pty = wanted s.sent
  sendable : s.phase.pending = true → s.Sendable
  served : s.phase.connected = true → s.Served

theorem waiting_of_taken {phase : Phase} {pty : Option Pty} (h : phase.taken = some pty) : phase.waiting = false := by
  cases phase <;> simp_all [Phase.taken, Phase.waiting]

theorem waiting_of_connected {phase : Phase} (h : phase.connected = true) : phase.waiting = false := by
  cases phase <;> simp_all [Phase.connected, Phase.waiting]

theorem kept_pty {info : Pty} (h : s.Kept) (hheard : Heard s (.pty info)) : (onPty s info).Kept := by
  have hwanted : wanted (s.sent ++ [.pty info]) = some info := wanted_append _ _
  refine ⟨h.bare,fun _ => hwanted.symm,fun pty hpty => ?_,h.sendable,fun hconnected => ?_⟩
  · exact ((h.taken pty hpty).trans (hheard (waiting_of_taken hpty))).trans hwanted.symm
  · obtain ⟨up,hup,hpty,henv⟩ := h.served hconnected
    exact ⟨up,hup,(hpty.trans (hheard (waiting_of_connected hconnected))).trans hwanted.symm,henv⟩

theorem kept_env {key val : String} (h : s.Kept) (hheard : Heard s (.env key val)) : (onEnv s key val).Kept := by
  unfold onEnv
  cases hmode : s.mode with
  | picker => exact h
  | grammar =>
    refine ⟨fun hpicker => (by simp at hpicker),h.waiting,h.taken,fun hpending key' val' haccepted => ?_,h.served⟩
    simp only [Session.sendable]
    by_cases hkey : key' = key
    · subst hkey
      rw [OrdMap.get?_set_self, hheard hpending val' haccepted]
    · have hsendable := h.sendable hpending key' val' haccepted
      simp only [Session.sendable, hmode] at hsendable
      rw [OrdMap.get?_set_of_ne val hkey, hsendable]

theorem kept_windowChange {size : Size} (h : s.Kept) (hheard : Heard s (.windowChange size)) :
    (onWindowChange s size).Kept := by
  have hwanted : wanted (s.sent ++ [.windowChange size]) = (wanted s.sent).map (Pty.setWindow size) :=
    wanted_append _ _
  unfold onWindowChange
  split
  · next hphase =>
    obtain ⟨up,hup,hpty,henv⟩ := h.served (by rw [hphase]; rfl)
    refine ⟨h.bare,fun hwaiting => by simp [hphase, Phase.waiting] at hwaiting,
      fun pty htaken => by simp [hphase, Phase.taken] at htaken,
      fun hpending => by simp [hphase, Phase.pending] at hpending,fun _ => ?_⟩
    exact ⟨{ up with pty := up.pty.map (Pty.setWindow size) },by simp [hup],by simp [hwanted, hpty],henv⟩
  · next hphase =>
    have hsame := hwanted.trans (hheard hphase)
    refine ⟨h.bare,fun hwaiting => (h.waiting hwaiting).trans hsame.symm,
      fun pty htaken => (h.taken pty htaken).trans hsame.symm,h.sendable,fun hconnected => ?_⟩
    obtain ⟨up,hup,hpty,henv⟩ := h.served hconnected
    exact ⟨up,hup,hpty.trans hsame.symm,henv⟩

theorem sendable_env (h : s.Kept) : s.sendable = s.env := by
  unfold Session.sendable
  cases hmode : s.mode with
  | grammar => rfl
  | picker => exact (h.bare hmode).symm

theorem kept_shell (h : s.Kept) (hstep : onShell s = some t) : t.Kept := by
  unfold onShell at hstep
  split at hstep
  · next hphase =>
    cases hstep
    refine ⟨h.bare,fun _ => h.waiting (by rw [hphase]; rfl),fun pty htaken => (by cases htaken),fun _ => ?_,
      fun hconnected => (by cases hconnected)⟩
    intro key val haccepted
    have hsendable := sendable_env h
    simp only [Session.sendable] at hsendable ⊢
    rw [hsendable]
    exact haccepted
  · cases hstep

theorem kept_over (h : s.Kept) : Session.Kept { s with phase := .over } :=
  ⟨h.bare,fun hwaiting => (by cases hwaiting),fun pty htaken => (by cases htaken),fun hpending => (by cases hpending),
    fun hconnected => (by cases hconnected)⟩

theorem kept_exec (h : s.Kept) (hstep : onExec s = some t) : t.Kept := by
  unfold onExec at hstep
  split at hstep
  · exact kept_shell h hstep
  · split at hstep <;> cases hstep
    · exact kept_over h
    · exact kept_over h
    · exact h

theorem kept_choose (h : s.Kept) (hstep : onChoose s = some t) : t.Kept := by
  unfold onChoose at hstep
  split at hstep
  · next hmode hphase =>
    cases hstep
    refine ⟨h.bare,fun hwaiting => (by cases hwaiting),fun pty htaken => ?_,
      fun _ => h.sendable (by rw [hphase]; rfl),fun hconnected => (by cases hconnected)⟩
    cases htaken
    exact h.waiting (by rw [hphase]; rfl)
  · cases hstep

theorem kept_ready (h : s.Kept) (hstep : onReady s = some t) : t.Kept := by
  unfold onReady at hstep
  split at hstep
  · cases hstep
    exact ⟨h.bare,h.waiting,h.taken,h.sendable,h.served⟩
  · cases hstep
    exact ⟨h.bare,h.waiting,h.taken,h.sendable,h.served⟩
  · cases hstep

theorem kept_opening {taken : Option Pty} (h : s.Kept) (hpending : s.phase.pending = true)
    (htaken : taken = wanted s.sent) : Session.Kept { s with phase := .opening taken } := by
  refine ⟨h.bare,fun hwaiting => (by cases hwaiting),fun pty hpty => ?_,fun _ => h.sendable hpending,
    fun hconnected => (by cases hconnected)⟩
  cases hpty
  exact htaken

theorem kept_call (h : s.Kept) (hstep : onCall s = some t) : t.Kept := by
  unfold onCall at hstep
  split at hstep
  · next hphase =>
    cases hstep
    exact kept_opening h (by rw [hphase]; rfl) (h.waiting (by rw [hphase]; rfl))
  · next taken _ _ hphase =>
    cases hstep
    exact kept_opening h (by rw [hphase]; rfl) (h.taken taken (by rw [hphase]; rfl))
  · cases hstep

theorem kept_confirm (h : s.Kept) (hstep : onConfirm s = some t) : t.Kept := by
  unfold onConfirm at hstep
  split at hstep
  · next taken hphase =>
    cases hstep
    refine ⟨h.bare,fun hwaiting => (by cases hwaiting),fun pty htaken => (by cases htaken),
      fun hpending => (by cases hpending),fun _ => ?_⟩
    exact ⟨⟨taken,s.sendable⟩,rfl,h.taken taken (by rw [hphase]; rfl),h.sendable (by rw [hphase]; rfl)⟩
  · cases hstep

theorem kept_callback (h : s.Kept) (hstep : onCallback s = some t) : t.Kept := by
  unfold onCallback at hstep
  split at hstep
  · next hphase =>
    cases hstep
    refine ⟨h.bare,fun hwaiting => (by cases hwaiting),fun pty htaken => (by cases htaken),
      fun hpending => (by cases hpending),fun _ => ?_⟩
    exact h.served (by rw [hphase]; rfl)
  · cases hstep

theorem kept_step : Run.Preserves step Heard Session.Kept := by
  intro s e t h hheard hstep
  cases e with
  | pty info =>
    cases hstep
    exact kept_pty h hheard
  | env key val =>
    cases hstep
    exact kept_env h hheard
  | windowChange size =>
    cases hstep
    exact kept_windowChange h hheard
  | shell => exact kept_shell h hstep
  | exec => exact kept_exec h hstep
  | choose => exact kept_choose h hstep
  | ready => exact kept_ready h hstep
  | call => exact kept_call h hstep
  | confirm => exact kept_confirm h hstep
  | callback => exact kept_callback h hstep

theorem kept_start (mode : Mode) : (start mode).Kept :=
  ⟨fun _ => rfl,fun _ => rfl,fun pty htaken => (by cases htaken),fun hpending => (by cases hpending),
    fun hconnected => (by cases hconnected)⟩

theorem early_requests {mode : Mode} {events : List Event} {t : Session}
    (hrun : Run.exec step (start mode) events = some t) (hheard : Run.Along step Heard (start mode) events) :
    t.Faithful :=
  fun hphase => (Run.invariant kept_step (kept_start mode) hheard hrun).served (by rw [hphase]; rfl)

def xterm : Pty := ⟨"xterm",⟨80,24,640,480⟩⟩

def large : Size := ⟨100,40,800,800⟩

def patient : List Event :=
  [.pty xterm,.env "LANG" "C",.shell,.ready,.call,.confirm,.callback,.windowChange large]

theorem early_requests_patient : ∃ t, Run.exec step (start .grammar) patient = some t ∧ t.Faithful ∧
    (t.upstream.bind Upstream.pty).map Pty.size = some large := by
  have hheard : Run.Along step Heard (start .grammar) patient := by
    refine ⟨fun h => (by cases h),fun h => (by cases h),trivial,trivial,trivial,trivial,trivial,fun h => ?_,trivial⟩
    exact absurd rfl h
  exact ⟨_,rfl,early_requests rfl hheard,by decide⟩

def resized : List Event := [.pty xterm,.shell,.windowChange large,.ready,.call,.confirm,.callback]

def resizedInPicker : List Event :=
  [.pty xterm,.shell,.windowChange large,.choose,.ready,.call,.confirm,.callback]

theorem resize_lost :
    (∃ t, Run.exec step (start .grammar) resized = some t ∧ t.upstream.bind Upstream.pty = some xterm ∧
      ¬ t.Faithful) ∧
    ∃ t, Run.exec step (start .picker) resizedInPicker = some t ∧ t.upstream.bind Upstream.pty = some xterm ∧
      ¬ t.Faithful := by
  refine ⟨⟨_,rfl,rfl,fun h => ?_⟩,⟨_,rfl,rfl,fun h => ?_⟩⟩
  · obtain ⟨up,hup,hpty,-⟩ := h rfl
    cases hup
    exact absurd hpty (by decide)
  · obtain ⟨up,hup,hpty,-⟩ := h rfl
    cases hup
    exact absurd hpty (by decide)

end Terminals

end JumpHost.ChannelRequests
