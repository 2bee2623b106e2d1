import JumpHost.Library.Run
import JumpHost.Mesh.Outage

namespace JumpHost.Mesh

open Cached (Entry)

inductive Outcome where
  | rejected
  | notReady
  | ready (stale : Bool)
deriving DecidableEq

inductive Stage where
  | identity
  | publish
  | fetching (d : Doc) (requestedAt revision : Nat)
  | applying
  | settled (outcome : Outcome)
deriving DecidableEq

def Stage.beforePeers : Stage → Bool
  | .identity | .publish => true
  | _ => false

structure Call where
  calledAt : Nat
  revision : Nat
  found : Option Stage
deriving DecidableEq

def Call.InTime (c : Call) : Prop := ∀ stage, c.found = some stage → stage.beforePeers = true

structure Flight where
  stage : Stage := .identity
  calls : List Call
  reads : Reads := fun _ => none

structure Resolved where
  call : Call
  outcome : Outcome
  reads : Reads

structure Service where
  clock : Nat := 1
  revision : Nat := 0
  cache : Cache
  inFlight : Option Flight := none
  resolved : List Resolved := []

inductive Event where
  | change
  | tick
  | post
  | identified (ok : Bool)
  | published
  | replied (response : Except String Nat) (written readable : Bool)
  | applied (ok : Bool)
  | finished

section Step

variable (conf : MeshConf) (directory : Nat → (d : Doc) → d.Content)

def runReconcile (s : Service) : Flight :=
  match s.inFlight with
  | some flight => { flight with calls := flight.calls ++ [⟨s.clock,s.revision,some flight.stage⟩] }
  | none => { calls := [⟨s.clock,s.revision,none⟩] }

def Reads.set (r : Reads) (d : Doc) (res : Fetched (Entry d.Content)) : Reads := Function.update r d (some res)

def Reads.stale (r : Reads) : Bool := (r .peers).all Fetched.stale

def afterReply (s : Service) (d : Doc) (reads : Reads) : Stage :=
  match d with
  | .peers => if (reads.used .peers).isSome then .fetching .site_clients s.clock s.revision else .settled .notReady
  | .site_clients => .fetching .roster s.clock s.revision
  | .roster => match reads.planned conf with
      | .error _ => .settled .rejected
      | .ok (.notReady _) => .settled .notReady
      | .ok (.ready _) => .applying

def Service.mayAnswer (s : Service) (revision : Nat) : Except String Nat → Bool
  | .error _ => true
  | .ok answered => revision ≤ answered && answered ≤ s.revision

def Service.reply (s : Service) (flight : Flight) (d : Doc) (requestedAt : Nat) (reply : Reply d.Content) :
    Service :=
  let reads := flight.reads.set d (reply.fetched requestedAt (s.cache d))
  { s with
    cache := Function.update s.cache d (reply.cached requestedAt (s.cache d))
    inFlight := some { flight with reads := reads, stage := afterReply conf s d reads } }

def Service.react (s : Service) : Event → Option Service
  | .change => some { s with revision := s.revision + 1 }
  | .tick | .post => some { s with inFlight := some (runReconcile s) }
  | .identified ok => match s.inFlight with
      | some ⟨.identity,calls,reads⟩ =>
          some { s with inFlight := some ⟨if ok then .publish else .settled .rejected,calls,reads⟩ }
      | _ => none
  | .published => match s.inFlight with
      | some ⟨.publish,calls,reads⟩ =>
          some { s with inFlight := some ⟨.fetching .peers s.clock s.revision,calls,reads⟩ }
      | _ => none
  | .replied response written readable => match s.inFlight with
      | some ⟨.fetching d requestedAt revision,calls,reads⟩ =>
          if s.mayAnswer revision response then
            some (s.reply conf ⟨.fetching d requestedAt revision,calls,reads⟩ d requestedAt
              ⟨response.map fun answered => directory answered d,written,readable⟩)
          else none
      | _ => none
  | .applied ok => match s.inFlight with
      | some ⟨.applying,calls,reads⟩ =>
          some { s with inFlight := some ⟨.settled (if ok then .ready reads.stale else .rejected),calls,reads⟩ }
      | _ => none
  | .finished => match s.inFlight with
      | some ⟨.settled outcome,calls,reads⟩ =>
          some { s with
            inFlight := none
            resolved := s.resolved ++ calls.map fun call => ⟨call,outcome,reads⟩ }
      | _ => none

def serviceStep (s : Service) (e : Event) : Option Service :=
  (s.react conf directory e).map fun t => { t with clock := t.clock + 1 }

inductive Service.Moves (s : Service) : Event → Service → Prop where
  | change : Service.Moves s .change { s with revision := s.revision + 1, clock := s.clock + 1 }
  | tick : Service.Moves s .tick { s with inFlight := some (runReconcile s), clock := s.clock + 1 }
  | post : Service.Moves s .post { s with inFlight := some (runReconcile s), clock := s.clock + 1 }
  | identified {ok : Bool} {calls : List Call} {reads : Reads} (hf : s.inFlight = some ⟨.identity,calls,reads⟩) :
      Service.Moves s (.identified ok) { s with
        inFlight := some ⟨if ok then .publish else .settled .rejected,calls,reads⟩
        clock := s.clock + 1 }
  | published {calls : List Call} {reads : Reads} (hf : s.inFlight = some ⟨.publish,calls,reads⟩) :
      Service.Moves s .published { s with
        inFlight := some ⟨.fetching .peers s.clock s.revision,calls,reads⟩
        clock := s.clock + 1 }
  | replied {d : Doc} {requestedAt revision : Nat} {calls : List Call} {reads : Reads}
      {response : Except String Nat} {written readable : Bool}
      (hf : s.inFlight = some ⟨.fetching d requestedAt revision,calls,reads⟩)
      (hmay : ∀ answered, response = .ok answered → revision ≤ answered ∧ answered ≤ s.revision) :
      Service.Moves s (.replied response written readable) { s.reply conf
        ⟨.fetching d requestedAt revision,calls,reads⟩ d requestedAt
        ⟨response.map fun answered => directory answered d,written,readable⟩ with clock := s.clock + 1 }
  | applied {ok : Bool} {calls : List Call} {reads : Reads} (hf : s.inFlight = some ⟨.applying,calls,reads⟩) :
      Service.Moves s (.applied ok) { s with
        inFlight := some ⟨.settled (if ok then .ready reads.stale else .rejected),calls,reads⟩
        clock := s.clock + 1 }
  | finished {outcome : Outcome} {calls : List Call} {reads : Reads}
      (hf : s.inFlight = some ⟨.settled outcome,calls,reads⟩) :
      Service.Moves s .finished { s with
        inFlight := none
        resolved := s.resolved ++ calls.map fun call => ⟨call,outcome,reads⟩
        clock := s.clock + 1 }

variable {conf directory}

theorem Service.moves_of_step {s t : Service} {e : Event} (h : serviceStep conf directory s e = some t) :
    s.Moves conf directory e t := by
  obtain ⟨u,hreact,rfl⟩ := Option.map_eq_some_iff.mp h
  cases e <;> simp only [Service.react] at hreact
  case change =>
    cases hreact
    exact .change
  case tick =>
    cases hreact
    exact .tick
  case post =>
    cases hreact
    exact .post
  case identified ok =>
    split at hreact <;> cases hreact
    next hf => exact .identified hf
  case published =>
    split at hreact <;> cases hreact
    next hf => exact .published hf
  case replied response written readable =>
    split at hreact
    · next hf =>
      split at hreact
      · next hmay =>
        cases hreact
        refine .replied hf fun answered hanswered => ?_
        subst hanswered
        simpa [Service.mayAnswer] using hmay
      · cases hreact
    · cases hreact
  case applied ok =>
    split at hreact <;> cases hreact
    next hf => exact .applied hf
  case finished =>
    split at hreact <;> cases hreact
    next hf => exact .finished hf

end Step

section Reads

variable {r : Reads} {d : Doc} {u : Entry d.Content}

def Reads.fallback (r : Reads) (d : Doc) : Option (Entry d.Content) :=
  (r d).bind fun res => if res.stale then res.value else none

theorem used_cases (h : r.used d = some u) : r.fresh d = some u ∨ r.fallback d = some u := by
  unfold Reads.used Reads.fresh Reads.fallback at *
  cases hr : r d with
  | none =>
    rw [hr] at h
    cases h
  | some res =>
    rw [hr] at h
    cases hstale : res.stale with
    | false => exact .inl (by simpa [hstale] using h)
    | true => exact .inr (by simpa [hstale] using h)

theorem used_of_fresh (h : r.fresh d = some u) : r.used d = some u := by
  obtain ⟨res,hres,hvalue⟩ := Option.bind_eq_some_iff.mp h
  rw [Reads.used, hres]
  split at hvalue
  · cases hvalue
  · exact hvalue

theorem used_of_fallback (h : r.fallback d = some u) : r.used d = some u := by
  obtain ⟨res,hres,hvalue⟩ := Option.bind_eq_some_iff.mp h
  rw [Reads.used, hres]
  split at hvalue
  · exact hvalue
  · cases hvalue

theorem fresh_peers (h : r.stale = false) (hsome : (r.used .peers).isSome = true) : ∃ u, r.fresh .peers = some u := by
  obtain ⟨u,hu⟩ := Option.isSome_iff_exists.mp hsome
  obtain ⟨res,hres,hvalue⟩ := Option.bind_eq_some_iff.mp hu
  have hstale : res.stale = false := by simpa [Reads.stale, hres] using h
  exact ⟨u,by simp [Reads.fresh, hres, hstale, hvalue]⟩

variable {requestedAt : Nat} {reply : Reply d.Content} {cached : Option (Entry d.Content)}

theorem fallback_peers (h : r.stale = false) : r.fallback .peers = none := by
  unfold Reads.stale at h
  unfold Reads.fallback
  cases hr : r .peers with
  | none => rfl
  | some res =>
    rw [hr] at h
    have hstale : res.stale = false := by simpa using h
    simp [hstale]

theorem set_self (r : Reads) (d : Doc) (res : Fetched (Entry d.Content)) : r.set d res d = some res := by
  simp [Reads.set]

theorem set_of_ne {d' : Doc} (h : d' ≠ d) (res : Fetched (Entry d.Content)) : r.set d res d' = r d' := by
  simp [Reads.set, h]

theorem fresh_set (h : (r.set d (reply.fetched requestedAt cached)).fresh d = some u) :
    ∃ value, reply.response = .ok value ∧ u = ⟨requestedAt,value⟩ := by
  obtain ⟨response,written,readable⟩ := reply
  rw [Reads.fresh, set_self] at h
  cases response with
  | ok value =>
    cases h
    exact ⟨value,rfl,rfl⟩
  | error err => cases readable <;> cases cached <;> cases h

theorem fallback_set (h : (r.set d (reply.fetched requestedAt cached)).fallback d = some u) :
    cached = some u ∧ reply.readable = true ∧ ∃ err, reply.response = .error err := by
  obtain ⟨response,written,readable⟩ := reply
  rw [Reads.fallback, set_self] at h
  cases response with
  | ok value => cases h
  | error err =>
    cases readable with
    | false => cases h
    | true =>
      cases cached with
      | none => cases h
      | some entry => exact ⟨h,rfl,err,rfl⟩

theorem cached_reply {e : Entry d.Content} (h : reply.cached requestedAt cached = some e) :
    e.stamp = requestedAt ∨ cached = some e := by
  obtain ⟨response,written,readable⟩ := reply
  cases response with
  | error err => exact .inr h
  | ok value =>
    cases written with
    | false => exact .inr h
    | true =>
      cases h
      exact .inl rfl

theorem fresh_set_of_ne {d' : Doc} (h : d' ≠ d) (res : Fetched (Entry d.Content)) :
    (r.set d res).fresh d' = r.fresh d' := by
  rw [Reads.fresh, set_of_ne h, Reads.fresh]

theorem fallback_set_of_ne {d' : Doc} (h : d' ≠ d) (res : Fetched (Entry d.Content)) :
    (r.set d res).fallback d' = r.fallback d' := by
  rw [Reads.fallback, set_of_ne h, Reads.fallback]

theorem used_set_of_ne {d' : Doc} (h : d' ≠ d) (res : Fetched (Entry d.Content)) :
    (r.set d res).used d' = r.used d' := by
  rw [Reads.used, set_of_ne h, Reads.used]

end Reads

section Calls

variable {conf : MeshConf} {directory : Nat → (d : Doc) → d.Content} {s t : Service} {f : Flight} {c : Call}

def Stage.ahead : Stage → Doc → Prop
  | .identity, _ | .publish, _ | .fetching .peers _ _, _ => True
  | .fetching .site_clients _ _, d => d ≠ .peers
  | .fetching .roster _ _, d => d = .roster
  | _, _ => False

structure Orderly (s : Service) (f : Flight) : Prop where
  reads : ∀ d u, f.reads.used d = some u → u.stamp < s.clock
  ahead : ∀ d, f.stage.ahead d → f.reads d = none
  asked : ∀ d requestedAt revision, f.stage = .fetching d requestedAt revision → requestedAt < s.clock
  planned : f.stage = .applying → (f.reads.used .peers).isSome = true
  ready : ∀ stale, f.stage = .settled (.ready stale) →
    f.reads.stale = stale ∧ (f.reads.used .peers).isSome = true

structure Follows (directory : Nat → (d : Doc) → d.Content) (s : Service) (f : Flight) (c : Call) : Prop where
  called : c.calledAt < s.clock
  revised : c.revision ≤ s.revision
  inTime : f.stage.beforePeers = true → c.InTime
  unread : ∀ d, f.reads d = none → ∀ e, s.cache d = some e → e.stamp < c.calledAt
  fallback : ∀ d u, f.reads.fallback d = some u → u.stamp < c.calledAt
  fresh : c.InTime → ∀ d u, f.reads.fresh d = some u →
    c.calledAt ≤ u.stamp ∧ ∃ n, c.revision ≤ n ∧ u.value = directory n d
  late : ¬ c.InTime → ∀ u, f.reads.fresh .peers = some u → u.stamp < c.calledAt
  asked : c.InTime → ∀ d requestedAt revision, f.stage = .fetching d requestedAt revision →
    c.calledAt ≤ requestedAt ∧ c.revision ≤ revision
  askedLate : ¬ c.InTime → ∀ requestedAt revision, f.stage = .fetching .peers requestedAt revision →
    requestedAt < c.calledAt

structure UpToDate (directory : Nat → (d : Doc) → d.Content) (r : Resolved) : Prop where
  requested : ∀ d u, r.reads.used d = some u → r.call.calledAt ≤ u.stamp
  reflected : ∀ d u, r.reads.used d = some u → ∃ n, r.call.revision ≤ n ∧ u.value = directory n d

def Resolved.Exact (directory : Nat → (d : Doc) → d.Content) (r : Resolved) : Prop :=
  r.outcome = .ready false →
    (UpToDate directory r ↔ r.call.InTime ∧ ∀ d, d ≠ .peers → r.reads.fallback d = none)

structure Tracked (directory : Nat → (d : Doc) → d.Content) (s : Service) : Prop where
  cached : ∀ d e, s.cache d = some e → e.stamp < s.clock
  orderly : ∀ f, s.inFlight = some f → Orderly s f
  follows : ∀ f, s.inFlight = some f → ∀ c ∈ f.calls, Follows directory s f c
  exact : ∀ r ∈ s.resolved, r.Exact directory

theorem Follows.exact (h : Follows directory s f c) (horderly : Orderly s f) {outcome : Outcome}
    (hstage : f.stage = .settled outcome) : Resolved.Exact directory ⟨c,outcome,f.reads⟩ := by
  intro hready
  have houtcome : outcome = .ready false := hready
  rw [houtcome] at hstage
  obtain ⟨hstale,hsome⟩ := horderly.ready false hstage
  constructor
  · rintro ⟨hrequested,-⟩
    refine ⟨?_,fun d _ => Option.eq_none_iff_forall_ne_some.mpr fun u hu => ?_⟩
    · by_contra hlate
      obtain ⟨u,hu⟩ := fresh_peers hstale hsome
      exact absurd (hrequested .peers u (used_of_fresh hu)) (Nat.not_le_of_lt (h.late hlate u hu))
    · exact absurd (hrequested d u (used_of_fallback hu)) (Nat.not_le_of_lt (h.fallback d u hu))
  · rintro ⟨hinTime,hnone⟩
    have hfresh : ∀ d u, f.reads.used d = some u →
        c.calledAt ≤ u.stamp ∧ ∃ n, c.revision ≤ n ∧ u.value = directory n d := by
      intro d u hu
      rcases used_cases hu with hu | hu
      · exact h.fresh hinTime d u hu
      · by_cases hd : d = .peers
        · subst hd
          exact absurd hu (by simp [fallback_peers hstale])
        · exact absurd hu (by simp [hnone d hd])
    exact ⟨fun d u hu => (hfresh d u hu).1,fun d u hu => (hfresh d u hu).2⟩

theorem Follows.mono (h : Follows directory s f c) (hclock : s.clock ≤ t.clock) (hrevision : s.revision ≤ t.revision)
    (hcache : t.cache = s.cache) : Follows directory t f c :=
  { h with
    called := Nat.lt_of_lt_of_le h.called hclock
    revised := Nat.le_trans h.revised hrevision
    unread := fun d hd e he => h.unread d hd e (hcache ▸ he) }

theorem Orderly.mono (h : Orderly s f) (hclock : s.clock ≤ t.clock) : Orderly t f :=
  { h with
    reads := fun d u hu => Nat.lt_of_lt_of_le (h.reads d u hu) hclock
    asked := fun d requestedAt revision hstage => Nat.lt_of_lt_of_le (h.asked d requestedAt revision hstage) hclock }

theorem Follows.move (h : Follows directory s f c) (stage : Stage) (hinTime : stage.beforePeers = true → c.InTime)
    (hnow : ∀ d requestedAt revision, stage = .fetching d requestedAt revision →
      requestedAt = s.clock ∧ revision = s.revision)
    (hpeers : ∀ requestedAt revision, stage = .fetching .peers requestedAt revision → c.InTime) :
    Follows directory s { f with stage := stage } c where
  called := h.called
  revised := h.revised
  inTime := hinTime
  unread := h.unread
  fallback := h.fallback
  fresh := h.fresh
  late := h.late
  asked := fun _ d requestedAt revision hstage => by
    obtain ⟨rfl,rfl⟩ := hnow d requestedAt revision hstage
    exact ⟨Nat.le_of_lt h.called,h.revised⟩
  askedLate := fun hlate requestedAt revision hstage => absurd (hpeers requestedAt revision hstage) hlate

section AfterReply

variable {d d' : Doc} {reads : Reads} {requestedAt revision : Nat}

theorem afterReply_cases (requestedAt revision : Nat) :
    (∃ d' ≠ .peers, afterReply conf s d reads = .fetching d' s.clock s.revision ∧
      ∀ later, (Stage.fetching d' s.clock s.revision).ahead later →
        (Stage.fetching d requestedAt revision).ahead later ∧ later ≠ d) ∨
    (∃ outcome, (∀ stale, outcome ≠ .ready stale) ∧ afterReply conf s d reads = .settled outcome) ∨
    ((reads.used .peers).isSome = true ∧ afterReply conf s d reads = .applying) := by
  cases d with
  | peers =>
    simp only [afterReply]
    split
    · exact .inl ⟨.site_clients,nofun,rfl,fun later hlater => ⟨trivial,hlater⟩⟩
    · exact .inr (.inl ⟨.notReady,fun _ => nofun,rfl⟩)
  | site_clients =>
    refine .inl ⟨.roster,nofun,rfl,fun later hlater => ?_⟩
    obtain rfl : later = .roster := hlater
    exact ⟨nofun,nofun⟩
  | roster =>
    simp only [afterReply]
    split
    · exact .inr (.inl ⟨.rejected,fun _ => nofun,rfl⟩)
    · exact .inr (.inl ⟨.notReady,fun _ => nofun,rfl⟩)
    · next hplan =>
      obtain ⟨peersDoc,hpeers,-⟩ := planned_peers hplan
      obtain ⟨u,hu,-⟩ := Option.map_eq_some_iff.mp hpeers
      exact .inr (.inr ⟨by rw [hu]; rfl,rfl⟩)

theorem afterReply_ahead (h : (afterReply conf s d reads).ahead d') :
    (Stage.fetching d requestedAt revision).ahead d' ∧ d' ≠ d := by
  obtain ⟨d'',-,heq,hlater⟩ | ⟨outcome,-,heq⟩ | ⟨-,heq⟩ := afterReply_cases requestedAt revision
  · exact hlater d' (heq ▸ h)
  · rw [heq] at h
    cases h
  · rw [heq] at h
    cases h

theorem afterReply_asked (h : afterReply conf s d reads = .fetching d' requestedAt revision) :
    d' ≠ .peers ∧ requestedAt = s.clock ∧ revision = s.revision := by
  obtain ⟨d'',hne,heq,-⟩ | ⟨outcome,-,heq⟩ | ⟨-,heq⟩ := afterReply_cases requestedAt revision
  · rw [heq] at h
    cases h
    exact ⟨hne,rfl,rfl⟩
  · rw [heq] at h
    cases h
  · rw [heq] at h
    cases h

theorem afterReply_applying (h : afterReply conf s d reads = .applying) : (reads.used .peers).isSome = true := by
  obtain ⟨d'',-,heq,-⟩ | ⟨outcome,-,heq⟩ | ⟨hpeers,-⟩ := afterReply_cases 0 0
  · rw [heq] at h
    cases h
  · rw [heq] at h
    cases h
  · exact hpeers

theorem afterReply_settled {outcome : Outcome} (h : afterReply conf s d reads = .settled outcome) (stale : Bool) :
    outcome ≠ .ready stale := by
  obtain ⟨d'',-,heq,-⟩ | ⟨outcome',hnot,heq⟩ | ⟨-,heq⟩ := afterReply_cases 0 0
  · rw [heq] at h
    cases h
  · rw [heq] at h
    cases h
    exact hnot stale
  · rw [heq] at h
    cases h

theorem afterReply_beforePeers : (afterReply conf s d reads).beforePeers = false := by
  obtain ⟨d',-,heq,-⟩ | ⟨outcome,-,heq⟩ | ⟨-,heq⟩ := afterReply_cases 0 0
  · rw [heq]
    rfl
  · rw [heq]
    rfl
  · rw [heq]
    rfl

end AfterReply

section Replied

variable {d : Doc} {requestedAt revision : Nat} {reply : Reply d.Content}

def Service.given (s : Service) (d : Doc) (requestedAt : Nat) (reply : Reply d.Content) : Service :=
  { s with cache := Function.update s.cache d (reply.cached requestedAt (s.cache d)) }

theorem given_self (s : Service) : (s.given d requestedAt reply).cache d = reply.cached requestedAt (s.cache d) := by
  simp [Service.given]

theorem given_of_ne {d' : Doc} (h : d' ≠ d) (s : Service) : (s.given d requestedAt reply).cache d' = s.cache d' := by
  simp [Service.given, h]

theorem Follows.given (h : Follows directory s f c) (hstage : f.stage = .fetching d requestedAt revision)
    (hnone : f.reads d = none) (hanswer : ∀ value, reply.response = .ok value →
      ∃ n, revision ≤ n ∧ value = directory n d) :
    Follows directory (s.given d requestedAt reply)
      { f with reads := f.reads.set d (reply.fetched requestedAt (s.cache d)) } c where
  called := h.called
  revised := h.revised
  inTime := h.inTime
  unread := fun d' hd' e he => by
    have hne : d' ≠ d := by
      rintro rfl
      cases (set_self _ _ _).symm.trans hd'
    rw [given_of_ne hne] at he
    exact h.unread d' ((set_of_ne hne _).symm.trans hd') e he
  fallback := fun d' u hu => by
    by_cases hd' : d' = d
    · subst hd'
      exact h.unread d' hnone u (fallback_set hu).1
    · rw [fallback_set_of_ne hd'] at hu
      exact h.fallback d' u hu
  fresh := fun hinTime d' u hu => by
    by_cases hd' : d' = d
    · subst hd'
      obtain ⟨value,hvalue,rfl⟩ := fresh_set hu
      obtain ⟨hcalled,hrevised⟩ := h.asked hinTime d' requestedAt revision hstage
      obtain ⟨n,hn,rfl⟩ := hanswer value hvalue
      exact ⟨hcalled,n,Nat.le_trans hrevised hn,rfl⟩
    · rw [fresh_set_of_ne hd'] at hu
      exact h.fresh hinTime d' u hu
  late := fun hlate u hu => by
    by_cases hd : .peers = d
    · subst hd
      obtain ⟨value,-,rfl⟩ := fresh_set hu
      exact h.askedLate hlate requestedAt revision hstage
    · rw [fresh_set_of_ne hd] at hu
      exact h.late hlate u hu
  asked := h.asked
  askedLate := h.askedLate

theorem Orderly.given (conf : MeshConf) (reply : Reply d.Content) (h : Orderly s f)
    (hstage : f.stage = .fetching d requestedAt revision)
    (hcached : ∀ e, s.cache d = some e → e.stamp < s.clock) :
    Orderly { s with clock := s.clock + 1 } { f with
      reads := f.reads.set d (reply.fetched requestedAt (s.cache d))
      stage := afterReply conf s d (f.reads.set d (reply.fetched requestedAt (s.cache d))) } where
  reads := fun d' u hu => by
    by_cases hd' : d' = d
    · subst hd'
      rcases used_cases hu with hu | hu
      · obtain ⟨value,-,rfl⟩ := fresh_set hu
        exact Nat.lt_succ_of_lt (h.asked d' requestedAt revision hstage)
      · exact Nat.lt_succ_of_lt (hcached u (fallback_set hu).1)
    · rw [used_set_of_ne hd'] at hu
      exact Nat.lt_succ_of_lt (h.reads d' u hu)
  ahead := fun d' hahead => by
    obtain ⟨hahead,hne⟩ := afterReply_ahead hahead
    rw [← hstage] at hahead
    exact (set_of_ne hne _).trans (h.ahead d' hahead)
  asked := fun d' requestedAt revision hnext => by
    obtain ⟨-,rfl,-⟩ := afterReply_asked hnext
    exact Nat.lt_succ_self s.clock
  planned := afterReply_applying
  ready := fun stale hnext => absurd rfl (afterReply_settled hnext stale)

end Replied

theorem Tracked.joins (h : Tracked directory s) (hf : s.inFlight = some f) :
    Follows directory { s with clock := s.clock + 1 } f ⟨s.clock,s.revision,some f.stage⟩ where
  called := Nat.lt_succ_self s.clock
  revised := Nat.le_refl s.revision
  inTime := fun hstage _ heq => Option.some.inj heq ▸ hstage
  unread := fun d _ e he => h.cached d e he
  fallback := fun d u hu => (h.orderly f hf).reads d u (used_of_fallback hu)
  fresh := fun hinTime d u hu => by
    have hahead : f.stage.ahead d := by
      have hbefore := hinTime f.stage rfl
      cases hstage : f.stage <;> simp_all [Stage.beforePeers, Stage.ahead]
    rw [Reads.fresh, (h.orderly f hf).ahead d hahead] at hu
    cases hu
  late := fun _ u hu => (h.orderly f hf).reads .peers u (used_of_fresh hu)
  asked := fun hinTime d requestedAt revision hstage => by
    have hbefore := hinTime f.stage rfl
    rw [hstage] at hbefore
    cases hbefore
  askedLate := fun _ requestedAt revision hstage => (h.orderly f hf).asked .peers requestedAt revision hstage

theorem Tracked.starts (h : Tracked directory s) :
    Follows directory { s with clock := s.clock + 1 } { calls := [⟨s.clock,s.revision,none⟩] }
      ⟨s.clock,s.revision,none⟩ where
  called := Nat.lt_succ_self s.clock
  revised := Nat.le_refl s.revision
  inTime := fun _ _ heq => (by cases heq)
  unread := fun d _ e he => h.cached d e he
  fallback := fun _ _ hu => (by cases hu)
  fresh := fun _ _ _ hu => (by cases hu)
  late := fun _ _ hu => (by cases hu)
  asked := fun _ _ _ _ hstage => (by cases hstage)
  askedLate := fun _ _ _ hstage => (by cases hstage)

theorem Tracked.tick (h : Tracked directory s) :
    Tracked directory { s with inFlight := some (runReconcile s), clock := s.clock + 1 } where
  cached := fun d e he => Nat.lt_succ_of_lt (h.cached d e he)
  orderly := fun f hf => by
    obtain rfl : runReconcile s = f := Option.some.inj hf
    unfold runReconcile
    cases hflight : s.inFlight with
    | none => exact ⟨nofun,fun _ _ => rfl,nofun,nofun,nofun⟩
    | some flight =>
      have horderly := h.orderly flight hflight
      exact ⟨fun d u hu => Nat.lt_succ_of_lt (horderly.reads d u hu),horderly.ahead,
        fun d requestedAt revision hstage => Nat.lt_succ_of_lt (horderly.asked d requestedAt revision hstage),
        horderly.planned,horderly.ready⟩
  follows := fun f hf => by
    obtain rfl : runReconcile s = f := Option.some.inj hf
    unfold runReconcile
    cases hflight : s.inFlight with
    | none =>
      intro c hc
      obtain rfl := List.mem_singleton.mp hc
      exact { h.starts with }
    | some flight =>
      intro c hc
      rcases List.mem_append.mp hc with hc | hc
      · have hold := (h.follows flight hflight c hc).mono
          (t := { s with clock := s.clock + 1 }) (Nat.le_succ s.clock) (Nat.le_refl s.revision) rfl
        exact { hold with }
      · obtain rfl := List.mem_singleton.mp hc
        exact { h.joins hflight with }
  exact := h.exact

theorem Tracked.move (h : Tracked directory s) (hf : s.inFlight = some f) {stage : Stage}
    (hbefore : stage.beforePeers = true → f.stage.beforePeers = true)
    (hahead : ∀ d, stage.ahead d → f.stage.ahead d)
    (hfetch : ∀ d requestedAt revision, stage = .fetching d requestedAt revision →
      requestedAt = s.clock ∧ revision = s.revision ∧ f.stage.beforePeers = true)
    (happlying : stage ≠ .applying)
    (hready : ∀ stale, stage = .settled (.ready stale) → f.stage = .applying ∧ f.reads.stale = stale) :
    Tracked directory { s with inFlight := some { f with stage := stage }, clock := s.clock + 1 } where
  cached := fun d e he => Nat.lt_succ_of_lt (h.cached d e he)
  orderly := fun f' hf' => by
    obtain rfl := Option.some.inj hf'
    have horderly := h.orderly f hf
    refine ⟨fun d u hu => Nat.lt_succ_of_lt (horderly.reads d u hu),fun d hd => horderly.ahead d (hahead d hd),
      fun d requestedAt revision hstage => ?_,fun hstage => absurd hstage happlying,fun stale hstage => ?_⟩
    · obtain ⟨rfl,-,-⟩ := hfetch d requestedAt revision hstage
      exact Nat.lt_succ_self s.clock
    · obtain ⟨hf,hstale⟩ := hready stale hstage
      exact ⟨hstale,horderly.planned hf⟩
  follows := fun f' hf' c hc => by
    obtain rfl := Option.some.inj hf'
    have hc' := h.follows f hf c hc
    have hmoved := hc'.move stage (fun hstage => hc'.inTime (hbefore hstage))
      (fun d requestedAt revision hstage => by
        obtain ⟨hclock,hrevision,-⟩ := hfetch d requestedAt revision hstage
        exact ⟨hclock,hrevision⟩)
      (fun requestedAt revision hstage => hc'.inTime (hfetch .peers requestedAt revision hstage).2.2)
    exact { hmoved.mono (t := { s with clock := s.clock + 1 }) (Nat.le_succ s.clock) (Nat.le_refl s.revision) rfl with }
  exact := h.exact

theorem Tracked.given (h : Tracked directory s) (hf : s.inFlight = some f) {d : Doc} {requestedAt revision : Nat}
    (hstage : f.stage = .fetching d requestedAt revision) {reply : Reply d.Content}
    (hanswer : ∀ value, reply.response = .ok value → ∃ n, revision ≤ n ∧ value = directory n d) :
    Tracked directory { s.reply conf f d requestedAt reply with clock := s.clock + 1 } where
  cached := fun d' e he => by
    have he' : (s.given d requestedAt reply).cache d' = some e := he
    by_cases hd' : d' = d
    · subst hd'
      rw [given_self] at he'
      rcases cached_reply he' with rfl | hold
      · exact Nat.lt_succ_of_lt ((h.orderly f hf).asked d' e.stamp revision hstage)
      · exact Nat.lt_succ_of_lt (h.cached d' e hold)
    · rw [given_of_ne hd'] at he'
      exact Nat.lt_succ_of_lt (h.cached d' e he')
  orderly := fun f' hf' => by
    obtain rfl := Option.some.inj hf'
    have horderly := (h.orderly f hf).given conf reply hstage (h.cached d)
    exact { horderly with }
  follows := fun f' hf' c hc => by
    obtain rfl := Option.some.inj hf'
    have hnone : f.reads d = none := (h.orderly f hf).ahead d (by rw [hstage]; cases d <;> simp [Stage.ahead])
    have hgiven := (h.follows f hf c hc).given hstage hnone hanswer
    have hmoved := hgiven.move (afterReply conf s d (f.reads.set d (reply.fetched requestedAt (s.cache d))))
      (fun hbefore => by
        rw [afterReply_beforePeers] at hbefore
        cases hbefore)
      (fun d' requestedAt revision hnext => (afterReply_asked hnext).2)
      (fun requestedAt revision hnext => absurd rfl (afterReply_asked hnext).1)
    exact { hmoved.mono (t := { s.given d requestedAt reply with clock := s.clock + 1 }) (Nat.le_succ s.clock)
      (Nat.le_refl s.revision) rfl with }
  exact := h.exact

theorem Tracked.finish (h : Tracked directory s) (hf : s.inFlight = some f) {outcome : Outcome}
    (hstage : f.stage = .settled outcome) :
    Tracked directory { s with
      inFlight := none
      resolved := s.resolved ++ f.calls.map fun call => ⟨call,outcome,f.reads⟩
      clock := s.clock + 1 } where
  cached := fun d e he => Nat.lt_succ_of_lt (h.cached d e he)
  orderly := fun _ hf => (by cases hf)
  follows := fun _ hf => (by cases hf)
  exact := fun r hr => by
    rcases List.mem_append.mp hr with hr | hr
    · exact h.exact r hr
    · obtain ⟨c,hc,rfl⟩ := List.mem_map.mp hr
      exact (h.follows f hf c hc).exact (h.orderly f hf) hstage

end Calls

section Runs

variable {conf : MeshConf} {directory : Nat → (d : Doc) → d.Content} {s t : Service}

def started (contents : (d : Doc) → Option d.Content) : Service := { cache := leftover contents }

structure Prompted (s : Service) : Prop where
  calls : ∀ f, s.inFlight = some f → ∀ c ∈ f.calls, c.InTime
  reads : ∀ f, s.inFlight = some f → ∀ d, d ≠ .peers → f.reads.fallback d = none
  resolved : ∀ r ∈ s.resolved, r.call.InTime ∧ ∀ d, d ≠ .peers → r.reads.fallback d = none

theorem Prompted.move {f : Flight} (h : Prompted s) (hf : s.inFlight = some f) (stage : Stage) :
    Prompted { s with inFlight := some { f with stage := stage }, clock := s.clock + 1 } where
  calls := fun f' hf' c hc => by
    obtain rfl := Option.some.inj hf'
    exact h.calls f hf c hc
  reads := fun f' hf' d hd => by
    obtain rfl := Option.some.inj hf'
    exact h.reads f hf d hd
  resolved := h.resolved

theorem Prompted.tick (h : Prompted s) (hprompt : ∀ f, s.inFlight = some f → f.stage.beforePeers = true) :
    Prompted { s with inFlight := some (runReconcile s), clock := s.clock + 1 } where
  calls := fun f hf => by
    obtain rfl : runReconcile s = f := Option.some.inj hf
    unfold runReconcile
    cases hflight : s.inFlight with
    | none =>
      intro c hc stage hstage
      obtain rfl := List.mem_singleton.mp hc
      cases hstage
    | some flight =>
      intro c hc
      rcases List.mem_append.mp hc with hc | hc
      · exact h.calls flight hflight c hc
      · obtain rfl := List.mem_singleton.mp hc
        exact fun stage hstage => Option.some.inj hstage ▸ hprompt flight hflight
  reads := fun f hf d hd => by
    obtain rfl : runReconcile s = f := Option.some.inj hf
    unfold runReconcile
    cases hflight : s.inFlight with
    | none => rfl
    | some flight => exact h.reads flight hflight d hd
  resolved := h.resolved

theorem Prompted.given {f : Flight} {d : Doc} {requestedAt : Nat} {reply : Reply d.Content} (h : Prompted s)
    (hf : s.inFlight = some f) (hprompt : d ≠ .peers → ∀ err, reply.response = .error err →
      ¬ (reply.readable = true ∧ (s.cache d).isSome = true)) :
    Prompted { s.reply conf f d requestedAt reply with clock := s.clock + 1 } where
  calls := fun f' hf' c hc => by
    obtain rfl := Option.some.inj hf'
    exact h.calls f hf c hc
  reads := fun f' hf' d' hd' => by
    obtain rfl := Option.some.inj hf'
    by_cases heq : d' = d
    · subst heq
      refine Option.eq_none_iff_forall_ne_some.mpr fun u hu => ?_
      obtain ⟨hcached,hreadable,err,herr⟩ := fallback_set hu
      exact hprompt hd' err herr ⟨hreadable,by rw [hcached]; rfl⟩
    · exact (fallback_set_of_ne heq _).trans (h.reads f hf d' hd')
  resolved := h.resolved

theorem Prompted.finish {f : Flight} {outcome : Outcome} (h : Prompted s) (hf : s.inFlight = some f) :
    Prompted { s with
      inFlight := none
      resolved := s.resolved ++ f.calls.map fun call => ⟨call,outcome,f.reads⟩
      clock := s.clock + 1 } where
  calls := fun _ hf => (by cases hf)
  reads := fun _ hf => (by cases hf)
  resolved := fun r hr => by
    rcases List.mem_append.mp hr with hr | hr
    · exact h.resolved r hr
    · obtain ⟨c,hc,rfl⟩ := List.mem_map.mp hr
      exact ⟨h.calls f hf c hc,h.reads f hf⟩

end Runs

section OneChange

end OneChange

end JumpHost.Mesh
