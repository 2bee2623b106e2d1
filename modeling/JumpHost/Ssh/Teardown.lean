import JumpHost.Ssh.Gateway

namespace JumpHost.Session

open Keys Auth TargetMatch Connect

def Stage.live : Stage → Bool
  | .marking | .counting | .bridging | .wired => true
  | _ => false

variable {parseKey : String → Option PublicKey} {env : Env parseKey}

structure Aside (c c' : Connection) : Prop where
  upstream : c'.upstream = c.upstream
  client : c'.client = c.client
  closing : c'.closing = c.closing
  records : c'.records = c.records
  stays : c.stage.live = true → c'.stage = c.stage
  waits : c.stage.live = false → c'.stage.live = false

theorem aside_resumePick (env : Env parseKey) (c : Connection) : Aside c (c.resumePick env) := by
  unfold Connection.resumePick
  split
  · next h =>
    split <;> constructor <;> simp [Connection.throw, h, Stage.live]
  · constructor <;> simp

theorem aside_choose (c : Connection) (choice : Option Host) : Aside c (c.choose env choice) :=
  { aside_resumePick env _ with }

theorem aside_afterHosts {c : Connection} (hs : List Host) (h : c.stage = .directory) :
    Aside c (c.afterHosts env hs) := by
  unfold Connection.afterHosts
  split
  · have ha := aside_resumePick env
      { c with stage := .picking, picker := { c.picker with hosts := some hs } }
    exact { ha with stays := by simp [h, Stage.live], waits := fun _ => ha.waits rfl }
  · split <;> constructor <;> simp [Connection.throw, h, Stage.live]

theorem aside_afterProvision {c : Connection} (answers : Provision)
    (h : c.stage = .provisioning) : Aside c (c.afterProvision env answers) := by
  unfold Connection.afterProvision
  split <;> constructor <;> simp [Connection.throw, h, Stage.live]

def Connection.wires (c : Connection) : Event → Bool
  | .settle => c.stage == .bridging || (c.stage == .counting && !c.tui)
  | .fail _ => c.stage == .bridging
  | _ => false

def wiresInTime (_count : Nat) (c : Connection) (e : Event) : Bool :=
  (!c.wires e || (c.client != .closed && c.upstream != some .closed)) &&
    match e with
    | .fail _ => c.stage != .marking && c.stage != .counting
    | _ => true

def Held (c : Connection) (registered : Bool) : Prop :=
  match c.stage with
  | .marking | .counting | .bridging =>
      (c.upstream = some .opened ∨ c.upstream = some .closed) ∧ registered = true
  | .wired => (c.upstream = some .opened ∧ c.client ≠ .closed) ∨ c.upstream = some .ending ∨
      (c.upstream = some .closed ∧ registered = false)
  | _ => c.upstream = none ∧ registered = false

theorem held_of_not_live {c : Connection} {registered : Bool} (h : c.stage.live = false) :
    Held c registered ↔ c.upstream = none ∧ registered = false := by
  unfold Held
  cases hs : c.stage <;> simp_all [Stage.live]

theorem held_aside {c c' : Connection} {registered : Bool} (ha : Aside c c')
    (h : Held c registered) : Held c' registered := by
  cases hl : c.stage.live with
  | false =>
    rw [held_of_not_live hl] at h
    rw [held_of_not_live (ha.waits hl), ha.upstream]
    exact h
  | true => simpa only [Held, ha.stays hl, ha.upstream, ha.client] using h

theorem held_settle {c c' : Connection} {op : RegistryOp} {registered : Bool} {count : Nat}
    (h : Held c registered) (hg : wiresInTime count c .settle = true)
    (hs : c.onSettle = some (c',op)) : Held c' (op.after registered) := by
  unfold Connection.onSettle at hs
  split at hs <;> cases hs <;>
    simp_all [Held, RegistryOp.after, wiresInTime, Connection.wires]
  all_goals grind

theorem held_fail {c c' : Connection} {op : RegistryOp} {registered : Bool} {count : Nat}
    {message : String} (h : Held c registered) (hg : wiresInTime count c (.fail message) = true)
    (hs : c.onFail message = some (c',op)) : Held c' (op.after registered) := by
  unfold Connection.onFail at hs
  split at hs <;> cases hs <;>
    simp_all [Held, RegistryOp.after, wiresInTime, Connection.wires, Connection.abort,
      Connection.throw]
  all_goals grind

theorem held_clientClose {c : Connection} {registered : Bool} (h : Held c registered) :
    Held { c with
      client := .closed
      upstream := if c.stage = .wired then c.upstream.map Wire.end else c.upstream } registered := by
  by_cases hw : c.stage = .wired
  · simp only [Held, hw] at h ⊢
    rcases h with ⟨ho,-⟩ | he | ⟨hc,hr⟩
    · simp [ho, Wire.end]
    · simp [he, Wire.end]
    · simp [hc, hr, Wire.end]
  · unfold Held at h ⊢
    cases hs : c.stage <;> simp_all

theorem held_unheard {c : Connection} {registered : Bool} (hs : c.stage ≠ .wired)
    (hup : c.upstream.all (· == .closed) = false) (h : Held c registered) :
    Held { c with upstream := some .closed } registered := by
  unfold Held at h ⊢
  cases hst : c.stage <;> simp_all

theorem held_step (count : Nat) (c : Connection) (e : Event) (c' : Connection) (op : RegistryOp)
    (registered : Bool) (h : Held c registered) (hg : wiresInTime count c e = true)
    (hs : c.step env count e = some (c',op)) : Held c' (op.after registered) := by
  cases Connection.moves_of_step hs with
  | settle hsettle => exact held_settle h hg hsettle
  | fail hfail => exact held_fail h hg hfail
  | clientClose => exact held_clientClose h
  | unregister hstage => simp [Held, hstage, RegistryOp.after]
  | unheard hstage hup => exact held_unheard hstage hup h
  | exec | subsystem | emptyTimer | pick => exact held_aside (aside_choose _ _) h
  | hosts hd => exact held_aside (aside_afterHosts _ hd) h
  | provisioned hp => exact held_aside (aside_afterProvision _ hp) h
  | attempt hstage =>
    simp only [Held, hstage] at h
    split <;> simpa [Held, RegistryOp.after] using h
  | refuse hstage | ready hstage | session hstage => simpa [Held, hstage, RegistryOp.after] using h
  | asks | shell | hostKey | channel | written | writeFailed | finished | finishFailed => exact h

def Stage.idle : Stage → Bool
  | .authenticating | .authenticated | .refused | .admitted | .picking | .wired | .settled => true
  | _ => false

theorem quiescent_of_idle {c : Connection} (hstage : c.stage.idle = true)
    (hclient : c.client = .closed) (hupstream : c.upstream ≠ some .ending)
    (htimer : c.picker.timer = false) (hclosing : c.closing = false) (hwriting : c.writing = false) :
    c.Quiescent env := by
  intro e he count
  cases e with
  | emptyTimer => simp [Connection.step, htimer]
  | hosts hs =>
    have hne : c.stage ≠ .directory := fun h => by simp [h, Stage.idle] at hstage
    simp [Connection.step, hne]
  | provisioned answers =>
    have hne : c.stage ≠ .provisioning := fun h => by simp [h, Stage.idle] at hstage
    simp [Connection.step, hne]
  | settle => cases hs : c.stage <;> simp_all [Connection.step, Connection.onSettle, Stage.idle]
  | fail message => cases hs : c.stage <;> simp_all [Connection.step, Connection.onFail, Stage.idle]
  | clientClose => simp [Connection.step, hclient]
  | upstreamClose => exact absurd he hupstream
  | finished | finishFailed => simp [Connection.step, hclosing]
  | written | writeFailed => simp [Connection.step, hwriting]
  | attempt a => exact he.elim
  | ready | session | shell | exec | subsystem | hostKey | channel => exact he.elim
  | pick choice => exact he.elim

theorem released_of_quiescent {c : Connection} {registered : Bool} (h : Held c registered)
    (hclient : c.client = .closed) (hq : c.Quiescent env) :
    registered = false ∧ c.upstream ≠ some .opened := by
  have hsettle := hq .settle trivial 0
  simp only [Connection.step] at hsettle
  unfold Held at h
  cases hs : c.stage <;> simp only [hs] at h
  case marking | counting | bridging => simp [Connection.onSettle, hs] at hsettle
  case wired =>
    rcases h with ⟨-,hne⟩ | hending | ⟨hclosed,hr⟩
    · exact absurd hclient hne
    · have hclose := hq .upstreamClose hending 0
      simp [Connection.step, hs, hending] at hclose
    · exact ⟨hr,by simp [hclosed]⟩
  all_goals exact ⟨h.2,by simp [h.1]⟩

def Released (env : Env parseKey) (g : Gateway) (i : Nat) : Prop :=
  ∀ c, g.connections[i]? = some c → c.client = .closed → c.Quiescent env →
    g.registry.has i = false ∧ c.upstream ≠ some .opened

theorem no_leaked_session {i : Nat} {inputs : List Input} {g : Gateway}
    (hg : Run.Along (Gateway.step env) (Guarding wiresInTime i · ·) .start inputs)
    (h : Gateway.run env inputs = some g) : Released env g i := by
  intro c hc hclient hq
  have hheld : Held c (g.registry.has i) :=
    keeps_run (fun ip => ⟨rfl,rfl⟩) held_step hg h hc
  exact released_of_quiescent hheld hclient hq

section OneSlot

def toMark (i : Nat) : List Input :=
  .connect (some "10.0.0.9") :: toReady i ++ toDial i ++ [.on i .settle]

def servedRun : List Input :=
  toMark 0 ++ [.on 0 .settle,.on 0 .settle,.on 0 .clientClose,.on 0 .upstreamClose,.on 0 .finished]

theorem no_leaked_session_served :
    ∃ g c, Gateway.run oneSlot servedRun = some g ∧ g.connections[0]? = some c ∧
      c.Quiescent oneSlot ∧ g.registry.has 0 = false ∧ c.upstream ≠ some .opened := by
  have hg : Run.Along (Gateway.step oneSlot) (Guarding wiresInTime 0 · ·) .start servedRun := by
    decide
  refine ⟨_,_,rfl,rfl,quiescent_of_idle rfl rfl (by decide) rfl rfl rfl,?_⟩
  exact no_leaked_session hg rfl _ rfl rfl (quiescent_of_idle rfl rfl (by decide) rfl rfl rfl)

def lateUpstream : List Input :=
  toMark 0 ++ [.on 0 .upstreamClose,.on 0 .settle,.on 0 .settle,.on 0 .clientClose]

def lateClient : List Input :=
  toMark 0 ++ [.on 0 .clientClose,.on 0 .settle,.on 0 .settle]

theorem leaked_session :
    (∃ g, Gateway.run oneSlot lateUpstream = some g ∧ g.registry.has 0 = true ∧
      ¬ Released oneSlot g 0) ∧
    ∃ g c, Gateway.run oneSlot lateClient = some g ∧ g.connections[0]? = some c ∧
      c.upstream = some .opened ∧ ¬ Released oneSlot g 0 := by
  constructor
  · refine ⟨_,rfl,rfl,fun h => ?_⟩
    have hfree := (h _ rfl rfl (quiescent_of_idle rfl rfl (by decide) rfl rfl rfl)).1
    exact absurd hfree (by decide)
  · refine ⟨_,_,rfl,rfl,rfl,fun h => ?_⟩
    exact (h _ rfl rfl (quiescent_of_idle rfl rfl (by decide) rfl rfl rfl)).2 rfl

end OneSlot

end JumpHost.Session
