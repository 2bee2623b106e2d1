import JumpHost.Mesh.Freshness
import JumpHost.Library.SingleFlight

namespace JumpHost.Mesh.Passes

open SingleFlight (Unfinished Handed Ended Sound)

section Loop

variable {ρ : Type}

inductive Caller where
  | start
  | tick
  | post (request : Nat)
deriving DecidableEq

inductive Shown (ρ : Type) where
  | log (line : String)
  | error (line : String)
  | json (request : Nat) (result : ρ)
  | next (request : Nat) (err : String)
deriving DecidableEq

structure Loop (ρ : Type) where
  flight : SingleFlight.State Caller (Except String ρ) := {}
  timer : Option Num := none
  shown : List (Shown ρ) := []

inductive Event (ρ : Type) where
  | startMeshReconcile (intervalMs : Option Num)
  | stopMeshReconcile
  | tick
  | post (request : Nat)
  | settle (pass : Nat) (outcome : Except String ρ)
  | clear (pass : Nat)
  | deliver (call : Nat)

-- `Number(process.env.THETA_MESH_RECONCILE_MS || 60000)`
def RECONCILE_INTERVAL_MS (env : Value) : Num := if env.truthy then env.number else .int 60000

def skipping : String := "[mesh] reconcile already in progress — skipping this tick"

def runReconcile (l : Loop ρ) (caller : Caller) : Loop ρ :=
  { l with
    flight := SingleFlight.call l.flight caller
    shown := if l.flight.inFlight.isSome then l.shown ++ [.log skipping] else l.shown }

def startMeshReconcile (env : Value) (l : Loop ρ) (intervalMs : Option Num) : Loop ρ :=
  { runReconcile l .start with timer := some (intervalMs.getD (RECONCILE_INTERVAL_MS env)) }

def stopMeshReconcile (l : Loop ρ) : Loop ρ := { l with timer := none }

def reaction (caller : Caller) (outcome : Except String ρ) : List (Shown ρ) :=
  match caller, outcome with
  | .start, .ok _ => []
  | .start, .error err => [.error ("[mesh] initial reconcile failed: " ++ err)]
  | .tick, .ok _ => []
  | .tick, .error err => [.error ("[mesh] reconcile failed: " ++ err)]
  | .post request, .ok result => [.json request result]
  | .post request, .error err => [.next request err]

def heard : Option (SingleFlight.Call Caller (Except String ρ)) → List (Shown ρ)
  | some ⟨caller,_,some outcome⟩ => reaction caller outcome
  | some ⟨_,_,none⟩ => []
  | none => []

def Loop.fly (l : Loop ρ) (flight : SingleFlight.State Caller (Except String ρ)) : Loop ρ := { l with flight }

def deliver (l : Loop ρ) (k : Nat) : Option (Loop ρ) :=
  (SingleFlight.deliver l.flight k).map fun flight =>
    { l with flight, shown := l.shown ++ heard flight.calls[k]? }

def step (env : Value) (l : Loop ρ) : Event ρ → Option (Loop ρ)
  | .startMeshReconcile intervalMs => some (startMeshReconcile env l intervalMs)
  | .stopMeshReconcile => some (stopMeshReconcile l)
  | .tick => l.timer.map fun _ => runReconcile l .tick
  | .post request => some (runReconcile l (.post request))
  | .settle p outcome => (SingleFlight.settle l.flight p outcome).map l.fly
  | .clear p => (SingleFlight.clear l.flight p).map l.fly
  | .deliver k => deliver l k

def Event.caller : Event ρ → Option Caller
  | .startMeshReconcile _ => some .start
  | .tick => some .tick
  | .post request => some (.post request)
  | .stopMeshReconcile | .settle _ _ | .clear _ | .deliver _ => none

def Event.flight : Event ρ → Option (SingleFlight.Event Caller (Except String ρ))
  | .startMeshReconcile _ => some (.call .start)
  | .stopMeshReconcile => none
  | .tick => some (.call .tick)
  | .post request => some (.call (.post request))
  | .settle p outcome => some (.settle p outcome)
  | .clear p => some (.clear p)
  | .deliver k => some (.deliver k)

end Loop

section Simulation

variable {ρ : Type} {env : Value} {l l' : Loop ρ} {e : Event ρ} {es : List (Event ρ)} {caller : Caller}

@[simp] theorem flight_fly (l : Loop ρ) (flight : SingleFlight.State Caller (Except String ρ)) :
    (l.fly flight).flight = flight := rfl

theorem call_step (he : e.caller = some caller) (h : step env l e = some l') :
    l'.flight = SingleFlight.call l.flight caller := by
  cases e with
  | startMeshReconcile intervalMs =>
    obtain rfl := Option.some.inj he
    obtain rfl := Option.some.inj h
    rfl
  | tick =>
    obtain rfl := Option.some.inj he
    obtain ⟨interval,-,rfl⟩ := Option.map_eq_some_iff.mp h
    rfl
  | post request =>
    obtain rfl := Option.some.inj he
    obtain rfl := Option.some.inj h
    rfl
  | stopMeshReconcile => cases he
  | settle p outcome => cases he
  | clear p => cases he
  | deliver k => cases he

theorem flight_step (h : step env l e = some l') :
    Run.exec SingleFlight.step l.flight e.flight.toList = some l'.flight := by
  cases e with
  | startMeshReconcile intervalMs =>
    obtain rfl := Option.some.inj h
    rfl
  | stopMeshReconcile =>
    obtain rfl := Option.some.inj h
    rfl
  | tick =>
    obtain ⟨interval,-,rfl⟩ := Option.map_eq_some_iff.mp h
    rfl
  | post request =>
    obtain rfl := Option.some.inj h
    rfl
  | settle p outcome =>
    obtain ⟨flight,hflight,rfl⟩ := Option.map_eq_some_iff.mp h
    simp only [Event.flight, Option.toList_some, Run.exec, SingleFlight.step, hflight, flight_fly]
  | clear p =>
    obtain ⟨flight,hflight,rfl⟩ := Option.map_eq_some_iff.mp h
    simp only [Event.flight, Option.toList_some, Run.exec, SingleFlight.step, hflight, flight_fly]
  | deliver k =>
    obtain ⟨flight,hflight,rfl⟩ := Option.map_eq_some_iff.mp h
    simp only [Event.flight, Option.toList_some, Run.exec, SingleFlight.step, hflight]

theorem flight_run (h : Run.exec (step env) l es = some l') :
    Run.exec SingleFlight.step l.flight (es.filterMap Event.flight) = some l'.flight :=
  Run.simulates (fun _ _ _ hstep => flight_step hstep) h

theorem sound_run (h : Run.exec (step env) {} es = some l) : Sound l.flight :=
  SingleFlight.sound_run SingleFlight.sound_init (flight_run h)

theorem flight_cases (h : step env l e = some l') : l'.flight = l.flight ∨
    ∃ f, e.flight = some f ∧ SingleFlight.step l.flight f = some l'.flight := by
  have hstep := flight_step h
  cases hf : e.flight with
  | none =>
    rw [hf] at hstep
    exact .inl (Option.some.inj hstep).symm
  | some f =>
    rw [hf] at hstep
    obtain ⟨flight,hflight,hnil⟩ := Run.exec_cons hstep
    obtain rfl := Option.some.inj hnil
    exact .inr ⟨f,rfl,hflight⟩

theorem not_call {f : SingleFlight.Event Caller (Except String ρ)} (he : e.caller = none)
    (hf : e.flight = some f) (caller : Caller) : f ≠ .call caller := by
  cases e with
  | startMeshReconcile intervalMs => cases he
  | stopMeshReconcile => cases hf
  | tick => cases he
  | post request => cases he
  | settle p outcome =>
    obtain rfl := Option.some.inj hf
    exact nofun
  | clear p =>
    obtain rfl := Option.some.inj hf
    exact nofun
  | deliver k =>
    obtain rfl := Option.some.inj hf
    exact nofun

theorem clear_iff {p : Nat} : e.flight = some (.clear p) ↔ e = .clear p := by
  cases e with
  | startMeshReconcile intervalMs => simp [Event.flight]
  | stopMeshReconcile => simp [Event.flight]
  | tick => simp [Event.flight]
  | post request => simp [Event.flight]
  | settle q outcome => simp [Event.flight]
  | clear q => simp [Event.flight]
  | deliver k => simp [Event.flight]

end Simulation

section Serialized

variable {ρ : Type} {env : Value} {l l' : Loop ρ} {e : Event ρ} {es : List (Event ρ)} {caller : Caller} {p k : Nat}
  {outcome : Except String ρ}

def Reacted (l : Loop ρ) : Prop :=
  ∀ c ∈ l.flight.calls, ∀ outcome, c.answer = some outcome → reaction c.caller outcome ⊆ l.shown

theorem reacted_runReconcile (hl : Reacted l) (caller : Caller) : Reacted (runReconcile l caller) := by
  intro c hc outcome ho
  have hold := hl c (SingleFlight.call_answered hc ho) outcome ho
  unfold runReconcile
  dsimp only
  split
  · exact List.Subset.trans hold (List.subset_append_left _ _)
  · exact hold

theorem reacted_deliver (hl : Reacted l) (h : deliver l k = some l') : Reacted l' := by
  obtain ⟨flight,hflight,rfl⟩ := Option.map_eq_some_iff.mp h
  obtain ⟨caller,p,outcome,hcall,-,rfl⟩ := SingleFlight.deliver_some hflight
  have hnew : (l.flight.calls.set k ⟨caller,p,some outcome⟩)[k]? = some ⟨caller,p,some outcome⟩ :=
    List.getElem?_set_self (List.getElem?_eq_some_iff.mp hcall).1
  intro c hc outcome' ho
  rcases List.mem_or_eq_of_mem_set hc with hold | rfl
  · exact List.Subset.trans (hl c hold outcome' ho) (List.subset_append_left _ _)
  · obtain rfl := Option.some.inj ho
    simp only [hnew]
    exact List.subset_append_right _ _

theorem reacted_step (hl : Reacted l) (h : step env l e = some l') : Reacted l' := by
  cases e with
  | startMeshReconcile intervalMs =>
    obtain rfl := Option.some.inj h
    exact reacted_runReconcile hl .start
  | stopMeshReconcile =>
    obtain rfl := Option.some.inj h
    exact hl
  | tick =>
    obtain ⟨interval,-,rfl⟩ := Option.map_eq_some_iff.mp h
    exact reacted_runReconcile hl .tick
  | post request =>
    obtain rfl := Option.some.inj h
    exact reacted_runReconcile hl (.post request)
  | settle p outcome =>
    obtain ⟨flight,hflight,rfl⟩ := Option.map_eq_some_iff.mp h
    obtain ⟨-,rfl⟩ := SingleFlight.settle_some hflight
    exact hl
  | clear p =>
    obtain ⟨flight,hflight,rfl⟩ := Option.map_eq_some_iff.mp h
    obtain ⟨outcome,-,rfl⟩ := SingleFlight.clear_some hflight
    exact hl
  | deliver k => exact reacted_deliver hl h

theorem reacted_run (h : Run.exec (step env) {} es = some l) : Reacted l :=
  Run.invariant_of_mem (fun _ _ _ hl _ hstep => reacted_step hl hstep) (fun _ hc => by cases hc) h

abbrev Loop.stage (l : Loop ρ) (p : Nat) : Option (SingleFlight.Stage (Except String ρ)) := l.flight.passes[p]?

def Loop.Idle (l : Loop ρ) : Prop := ∀ p, ¬ Unfinished l.flight.passes p

structure Gets (env : Value) (l : Loop ρ) (k : Nat) (caller : Caller) (p : Nat) : Prop where
  kept : ∀ es l', Run.exec (step env) l es = some l' → Handed l'.flight k caller p
  answer : ∀ outcome, l.flight.calls[k]? = some ⟨caller,p,some outcome⟩ →
    l.stage p = some (.done outcome) ∧ reaction caller outcome ⊆ l.shown
  arrives : ∀ outcome, l.stage p = some (.done outcome) →
    l.flight.calls[k]? = some ⟨caller,p,some outcome⟩ ∨
      ∃ l', step env l (.deliver k) = some l' ∧ l'.flight.calls[k]? = some ⟨caller,p,some outcome⟩

structure Serialized (env : Value) (l : Loop ρ) : Prop where
  exclusive : ∀ p q, l.stage p = some .running → l.stage q = some .running → p = q
  joins : ∀ p e caller l', Unfinished l.flight.passes p → Event.caller e = some caller → step env l e = some l' →
    l'.flight.passes = l.flight.passes ∧ Handed l'.flight l.flight.calls.length caller p
  gets : ∀ k caller p, Handed l.flight k caller p → Gets env l k caller p
  ends : ∀ p outcome es l', Ended l.flight p outcome → Run.exec (step env) l es = some l' →
    Ended l'.flight p outcome
  clears : ∀ p outcome, l.stage p = some (.settled outcome) →
    ∃ l', step env l (.clear p) = some l' ∧ l'.stage p = some (.done outcome) ∧ l'.Idle
  waits : ∀ p outcome e l', l.stage p = some (.settled outcome) → e ≠ .clear p → step env l e = some l' →
    l'.stage p = some (.settled outcome)
  idles : ∀ e l', l.Idle → Event.caller e = none → step env l e = some l' → l'.Idle
  starts : ∀ e caller l', l.Idle → Event.caller e = some caller → step env l e = some l' →
    l'.flight.passes = l.flight.passes ++ [.running] ∧
      Handed l'.flight l.flight.calls.length caller l.flight.passes.length

theorem gets_of_handed (hs : Sound l.flight) (hl : Reacted l) (hk : Handed l.flight k caller p) :
    Gets env l k caller p := by
  refine ⟨fun es l' h => SingleFlight.handed_run hk (flight_run h),fun outcome hcall => ?_,fun outcome hdone => ?_⟩
  · have hmem := List.mem_of_getElem? hcall
    exact ⟨(hs.answers _ hmem).2 outcome rfl,hl _ hmem outcome rfl⟩
  · rcases SingleFlight.answered_or_deliverable hs hk hdone with hanswered | ⟨flight,hflight,hanswer⟩
    · exact .inl hanswered
    · exact .inr ⟨{ l with flight, shown := l.shown ++ heard flight.calls[k]? },by
        simp only [step, deliver, hflight, Option.map_some],hanswer⟩

theorem joins_unfinished (hs : Sound l.flight) (hp : Unfinished l.flight.passes p) (he : e.caller = some caller)
    (h : step env l e = some l') :
    l'.flight.passes = l.flight.passes ∧ Handed l'.flight l.flight.calls.length caller p := by
  rw [call_step he h, SingleFlight.call_joins hs hp]
  exact ⟨rfl,none,List.getElem?_concat_length⟩

theorem starts_idle (hs : Sound l.flight) (hidle : l.Idle) (he : e.caller = some caller)
    (h : step env l e = some l') : l'.flight.passes = l.flight.passes ++ [.running] ∧
      Handed l'.flight l.flight.calls.length caller l.flight.passes.length := by
  rw [call_step he h, SingleFlight.call_begins hs hidle]
  exact ⟨rfl,none,List.getElem?_concat_length⟩

theorem clears_settled (hs : Sound l.flight) (hsettled : l.stage p = some (.settled outcome)) :
    ∃ l', step env l (.clear p) = some l' ∧ l'.stage p = some (.done outcome) ∧ l'.Idle := by
  obtain ⟨flight,hflight,hdone,hidle⟩ := SingleFlight.clear_idles hs hsettled
  exact ⟨l.fly flight,by simp only [step, hflight, Option.map_some],hdone,hidle⟩

theorem stays_settled (hsettled : l.stage p = some (.settled outcome)) (he : e ≠ .clear p)
    (h : step env l e = some l') : l'.stage p = some (.settled outcome) := by
  rcases flight_cases h with hsame | ⟨f,hf,hstep⟩
  · rw [Loop.stage, hsame]
    exact hsettled
  · refine SingleFlight.settled_step hsettled ?_ hstep
    rintro rfl
    exact he (clear_iff.mp hf)

theorem stays_idle (hidle : l.Idle) (he : e.caller = none) (h : step env l e = some l') : l'.Idle := by
  have hsame : l'.flight.passes = l.flight.passes := by
    rcases flight_cases h with hsame | ⟨f,hf,hstep⟩
    · rw [hsame]
    · exact SingleFlight.idle_step hidle (not_call he hf) hstep
  rw [Loop.Idle, hsame]
  exact hidle

end Serialized

section Runs

variable {ρ : Type}

theorem one_pass_at_a_time (env : Value) (es : List (Event ρ)) (l : Loop ρ)
    (h : Run.exec (step env) {} es = some l) : Serialized env l := by
  have hs := sound_run h
  have hl := reacted_run h
  refine ⟨?exclusive,?joins,?gets,?ends,?clears,?waits,?idles,?starts⟩
  case exclusive => exact fun p q hp hq => hs.unique ⟨_,hp,rfl⟩ ⟨_,hq,rfl⟩
  case joins => exact fun p e caller l' hp he hstep => joins_unfinished hs hp he hstep
  case gets => exact fun k caller p hk => gets_of_handed hs hl hk
  case ends => exact fun p outcome es' l' hended hrun => SingleFlight.ended_run hended (flight_run hrun)
  case clears => exact fun p outcome hsettled => clears_settled hs hsettled
  case waits => exact fun p outcome e l' hsettled he hstep => stays_settled hsettled he hstep
  case idles => exact fun e l' hidle he hstep => stays_idle hidle he hstep
  case starts => exact fun e caller l' hidle he hstep => starts_idle hs hidle he hstep

def failedAndShared : List (Event Nat) :=
  [.startMeshReconcile none,.post 0,.settle 0 (.error "ECONNREFUSED"),.clear 0,.deliver 1,.deliver 0,.tick]

def retried : Loop Nat where
  flight :=
    { passes := [.done (.error "ECONNREFUSED"),.running]
      inFlight := some 1
      calls := [⟨.start,0,some (.error "ECONNREFUSED")⟩,⟨.post 0,0,some (.error "ECONNREFUSED")⟩,⟨.tick,1,none⟩] }
  timer := some (.int 60000)
  shown := [.log skipping,.next 0 "ECONNREFUSED",.error "[mesh] initial reconcile failed: ECONNREFUSED"]

theorem one_pass_at_a_time_retried :
    Run.exec (step .undefined) {} failedAndShared = some retried ∧ Serialized .undefined retried :=
  ⟨rfl,one_pass_at_a_time .undefined failedAndShared retried rfl⟩

theorem no_pass_before_the_callback : ¬ ∀ (es : List (Event Nat)) (l l' : Loop Nat) (e : Event Nat) (caller : Caller),
    Run.exec (step .undefined) {} es = some l → (∀ p, l.stage p ≠ some .running) →
    e.caller = some caller → step .undefined l e = some l' →
    l'.flight.passes = l.flight.passes ++ [.running] := by
  intro h
  have hended : ∀ p : Nat, [SingleFlight.Stage.settled (.ok 7 : Except String Nat)][p]? ≠ some .running := by
    intro p
    cases p with
    | zero => exact nofun
    | succ p => exact nofun
  have hnew := h [.post 0,.settle 0 (.ok 7)] _ _ (.post 1) (.post 1) rfl hended rfl rfl
  cases hnew

end Runs

section Service

variable {conf : MeshConf} {directory : Nat → (d : Doc) → d.Content} {s s' : Service} {e : Mesh.Event} {f f' : Flight}
  {flight flight' : SingleFlight.State Unit Outcome} {outcome : Outcome}

def passStage : Mesh.Stage → SingleFlight.Stage Outcome
  | .settled outcome => .settled outcome
  | .identity | .publish | .fetching _ _ _ | .applying => .running

structure Flies (s : Service) (flight : SingleFlight.State Unit Outcome) : Prop where
  sound : Sound flight
  idle : s.inFlight = none → flight.inFlight = none
  flying : ∀ f, s.inFlight = some f → ∃ p : Nat, flight.inFlight = some p ∧
    flight.passes[p]? = some (passStage f.stage)
  resolved : ∀ r ∈ s.resolved, ∃ p : Nat, flight.passes[p]? = some (SingleFlight.Stage.done r.outcome)

def Answered (s' : Service) (flight : SingleFlight.State Unit Outcome) : Prop :=
  ∃ fs flight', Run.exec SingleFlight.step flight fs = some flight' ∧ Flies s' flight'

theorem Flies.goesOn (h : Flies s flight) (hf : s.inFlight = some f) (hf' : s'.inFlight = some f')
    (hstage : passStage f'.stage = passStage f.stage) (hresolved : s'.resolved = s.resolved) : Answered s' flight := by
  refine ⟨[],flight,rfl,h.sound,fun hnone => ?_,fun g hg => ?_,fun r hr => h.resolved r (hresolved ▸ hr)⟩
  · rw [hf'] at hnone
    cases hnone
  · obtain rfl := Option.some.inj (hf'.symm.trans hg)
    rw [hstage]
    exact h.flying f hf

theorem Flies.after {c : SingleFlight.Event Unit Outcome} {p : Nat} (h : Flies s flight)
    (hstep : SingleFlight.step flight c = some flight') (hf' : s'.inFlight = some f')
    (hp : flight'.inFlight = some p) (hstage : flight'.passes[p]? = some (passStage f'.stage))
    (hresolved : s'.resolved = s.resolved) : Answered s' flight := by
  refine ⟨[c],flight',by simp only [Run.exec, hstep],SingleFlight.sound_step h.sound hstep,fun hnone => ?_,
    fun g hg => ?_,fun r hr => ?_⟩
  · rw [hf'] at hnone
    cases hnone
  · obtain rfl := Option.some.inj (hf'.symm.trans hg)
    exact ⟨p,hp,hstage⟩
  · obtain ⟨q,hq⟩ := h.resolved r (hresolved ▸ hr)
    exact ⟨q,(SingleFlight.kept_step hstep).2 q r.outcome hq⟩

theorem Flies.settles (h : Flies s flight) (hf : s.inFlight = some f) (hrunning : passStage f.stage = .running)
    (hf' : s'.inFlight = some f') (hsettled : f'.stage = .settled outcome) (hresolved : s'.resolved = s.resolved) :
    Answered s' flight := by
  obtain ⟨p,hp,hstage⟩ := h.flying f hf
  rw [hrunning] at hstage
  have hstep : SingleFlight.step flight (.settle p outcome) =
      some { flight with passes := flight.passes.set p (.settled outcome) } := by
    simp only [SingleFlight.step, SingleFlight.settle, hstage]
  refine h.after hstep hf' hp ?_ hresolved
  rw [hsettled]
  exact List.getElem?_set_self (List.getElem?_eq_some_iff.mp hstage).1

theorem Flies.calls (h : Flies s flight) (hf' : s'.inFlight = some (Mesh.runReconcile s))
    (hresolved : s'.resolved = s.resolved) : Answered s' flight := by
  cases hs : s.inFlight with
  | some f =>
    obtain ⟨p,hp,hstage⟩ := h.flying f hs
    have hcall : SingleFlight.step flight (.call ()) = some { flight with calls := flight.calls ++ [⟨(),p,none⟩] } := by
      simp only [SingleFlight.step, SingleFlight.call, hp]
    refine h.after hcall hf' hp ?_ hresolved
    rw [Mesh.runReconcile, hs]
    exact hstage
  | none =>
    have hidle := (SingleFlight.idle_iff h.sound).mp (h.idle hs)
    have hcall : SingleFlight.step flight (.call ()) = some _ :=
      congrArg some (SingleFlight.call_begins h.sound hidle ())
    refine h.after hcall hf' rfl ?_ hresolved
    rw [Mesh.runReconcile, hs]
    exact List.getElem?_concat_length

theorem Flies.finishes {calls : List Mesh.Call} {reads : Reads} (h : Flies s flight)
    (hf : s.inFlight = some ⟨.settled outcome,calls,reads⟩) (hnone : s'.inFlight = none)
    (hresolved : s'.resolved = s.resolved ++ calls.map fun call => ⟨call,outcome,reads⟩) : Answered s' flight := by
  obtain ⟨p,hp,hstage⟩ := h.flying _ hf
  obtain ⟨flight',hclear,hdone,hidle⟩ := SingleFlight.clear_idles h.sound hstage
  have hstep : SingleFlight.step flight (.clear p) = some flight' := hclear
  have hsound := SingleFlight.sound_step h.sound hstep
  refine ⟨[.clear p],flight',by simp only [Run.exec, hstep],hsound,fun _ => (SingleFlight.idle_iff hsound).mpr hidle,
    fun g hg => ?_,fun r hr => ?_⟩
  · rw [hnone] at hg
    cases hg
  · rw [hresolved] at hr
    rcases List.mem_append.mp hr with hold | hnew
    · obtain ⟨q,hq⟩ := h.resolved r hold
      exact ⟨q,(SingleFlight.kept_step hstep).2 q r.outcome hq⟩
    · obtain ⟨call,-,rfl⟩ := List.mem_map.mp hnew
      exact ⟨p,hdone⟩

theorem flies_step (h : Flies s flight) (hstep : serviceStep conf directory s e = some s') : Answered s' flight := by
  cases Service.moves_of_step hstep with
  | change => exact ⟨[],flight,rfl,h.sound,h.idle,h.flying,h.resolved⟩
  | tick => exact h.calls rfl rfl
  | post => exact h.calls rfl rfl
  | @identified ok calls reads hf =>
    cases ok with
    | true => exact h.goesOn hf rfl rfl rfl
    | false => exact h.settles hf rfl rfl rfl rfl
  | published hf => exact h.goesOn hf rfl rfl rfl
  | @replied d requestedAt revision calls reads response written readable hf =>
    obtain ⟨d',-,heq,-⟩ | ⟨outcome,-,heq⟩ | ⟨-,heq⟩ := afterReply_cases requestedAt revision
    · exact h.goesOn hf rfl (Eq.trans (congrArg passStage heq) rfl) rfl
    · exact h.settles hf rfl rfl heq rfl
    · exact h.goesOn hf rfl (Eq.trans (congrArg passStage heq) rfl) rfl
  | applied hf => exact h.settles hf rfl rfl rfl rfl
  | finished hf => exact h.finishes hf rfl rfl

theorem service_flies (contents : (d : Doc) → Option d.Content) {es : List Mesh.Event}
    (h : Run.exec (serviceStep conf directory) (started contents) es = some s) : Answered s {} :=
  Run.forward (fun _ _ _ _ hflies hstep => flies_step hflies hstep)
    ⟨SingleFlight.sound_init,fun _ => rfl,fun _ hf => (by cases hf),fun _ hr => (by cases hr)⟩ h

end Service

end JumpHost.Mesh.Passes
