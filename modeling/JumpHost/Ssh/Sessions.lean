import JumpHost.Ssh.Teardown

namespace JumpHost.Session

open Keys Auth TargetMatch Connect

def Connection.bridged (c : Connection) : Bool :=
  match c.stage with
  | .marking | .counting | .bridging => true
  | .wired => c.upstream != some .closed
  | _ => false

def Connection.session (c : Connection) : Option Desc := if c.bridged then some c.desc else none

def RegistryOp.entry (session : Option Desc) : RegistryOp → Option Desc
  | .keep => session
  | .add desc => some desc
  | .remove => none

theorem get?_apply (registry : Registry) (i j : Nat) (op : RegistryOp) :
    (op.apply registry i).get? j = if j = i then op.entry (registry.get? i) else registry.get? j := by
  by_cases h : j = i
  · subst h
    cases op with
    | keep => simp [RegistryOp.apply, RegistryOp.entry]
    | add desc => simp [RegistryOp.apply, RegistryOp.entry, Registry.add, OrdMap.get?_set_self]
    | remove =>
      have hnone : (registry.delete j).get? j = none :=
        OrdMap.get?_eq_none_iff.mpr fun hmem => (OrdMap.mem_keys_delete.mp hmem).2 rfl
      simp [RegistryOp.apply, RegistryOp.entry, Registry.remove, hnone]
  · cases op with
    | keep => simp [RegistryOp.apply, h]
    | add desc => simp [RegistryOp.apply, Registry.add, OrdMap.get?_set_of_ne desc h, h]
    | remove => simp [RegistryOp.apply, Registry.remove, OrdMap.get?_delete_of_ne h, h]

variable {parseKey : String → Option PublicKey} {env : Env parseKey} {c c' : Connection} {op : RegistryOp}

theorem session_of_not_live (h : c.stage.live = false) : c.session = none := by
  unfold Connection.session Connection.bridged
  cases hs : c.stage <;> simp_all [Stage.live]

theorem session_of_live (h : c.stage.live = true) (hup : c.stage = .wired → c.upstream ≠ some .closed) :
    c.session = some c.desc := by
  unfold Connection.session Connection.bridged
  cases hs : c.stage <;> simp_all [Stage.live]

theorem session_resumePick (c : Connection) : (c.resumePick env).session = c.session := by
  unfold Connection.resumePick
  split
  · next hs =>
    have hnone : c.session = none := session_of_not_live (by rw [hs]; rfl)
    rw [hnone]
    split
    · exact hnone
    · rfl
    · rfl
  · rfl

theorem session_afterHosts (hs : List Host) : (c.afterHosts env hs).session = none := by
  unfold Connection.afterHosts
  split
  · rw [session_resumePick]
    rfl
  · split <;> rfl

theorem session_afterProvision (answers : Provision) : (c.afterProvision env answers).session = none := by
  unfold Connection.afterProvision
  split <;> rfl

theorem upstream_of_wires {count : Nat} {e : Event} (hg : wiresInTime count c e = true) (hwires : c.wires e = true) :
    c.upstream ≠ some .closed := by
  simp only [wiresInTime, hwires, Bool.not_true, Bool.false_or, Bool.and_eq_true, bne_iff_ne] at hg
  exact hg.1.2

theorem session_onSettle {count : Nat} (hg : wiresInTime count c .settle = true) (h : c.onSettle = some (c',op)) :
    c'.session = op.entry c.session := by
  have hwired := upstream_of_wires hg
  unfold Connection.onSettle at h
  split at h
  case h_9 => cases h
  case h_1 hs | h_2 hs | h_7 hs | h_8 hs =>
    cases h
    exact (session_of_not_live (by rw [hs]; rfl)).symm
  case h_3 hs =>
    cases h
    rfl
  case h_4 hs =>
    cases h
    exact (session_of_live (by rw [hs]; rfl) (by simp [hs])).symm
  case h_5 hs =>
    cases h
    have hbefore : c.session = some c.desc := session_of_live (by rw [hs]; rfl) (by simp [hs])
    rw [RegistryOp.entry, hbefore]
    cases ht : c.tui with
    | true => rfl
    | false => exact session_of_live rfl fun _ => hwired (by simp [Connection.wires, hs, ht])
  case h_6 hs =>
    cases h
    have hbefore : c.session = some c.desc := session_of_live (by rw [hs]; rfl) (by simp [hs])
    rw [RegistryOp.entry, hbefore]
    exact session_of_live rfl fun _ => hwired (by simp [Connection.wires, hs])

theorem session_onFail {count : Nat} {message : String} (hg : wiresInTime count c (.fail message) = true)
    (h : c.onFail message = some (c',op)) : c'.session = op.entry c.session := by
  have hwired := upstream_of_wires hg
  unfold Connection.onFail at h
  split at h
  case h_10 => cases h
  case h_4 hs | h_5 hs => simp [wiresInTime, hs] at hg
  case h_1 hs | h_2 hs | h_6 hs | h_8 hs | h_9 hs =>
    cases h
    exact (session_of_not_live (by rw [hs]; rfl)).symm
  case h_3 hs =>
    cases h
    rw [RegistryOp.entry, session_of_not_live (c := c) (by rw [hs]; rfl)]
    split <;> rfl
  case h_7 hs =>
    cases h
    have hbefore : c.session = some c.desc := session_of_live (by rw [hs]; rfl) (by simp [hs])
    rw [RegistryOp.entry, hbefore]
    exact session_of_live rfl fun _ => hwired (by simp [Connection.wires, hs])

theorem session_clientClose : Connection.session { c with
    client := .closed
    upstream := if c.stage = .wired then c.upstream.map Wire.end else c.upstream } = c.session := by
  by_cases hw : c.stage = .wired
  · have hend : (c.upstream.map Wire.end != some .closed) = (c.upstream != some .closed) := by
      rcases c.upstream with _ | _ | _ | _ <;> rfl
    simp [Connection.session, Connection.bridged, Connection.desc, Connection.slug, hw, hend]
  · simp only [if_neg hw]
    rfl

theorem session_unheard (hs : c.stage ≠ .wired) :
    Connection.session { c with upstream := some .closed } = c.session := by
  unfold Connection.session Connection.bridged
  cases hst : c.stage <;> first | rfl | exact absurd hst hs

theorem session_step {count : Nat} {e : Event} (hg : wiresInTime count c e = true)
    (h : c.step env count e = some (c',op)) : c'.session = op.entry c.session := by
  cases Connection.moves_of_step h with
  | settle hs => exact session_onSettle hg hs
  | fail hs => exact session_onFail hg hs
  | exec | subsystem | emptyTimer | pick => exact session_resumePick _
  | hosts hd => rw [session_afterHosts, RegistryOp.entry, session_of_not_live (c := c) (by rw [hd]; rfl)]
  | provisioned hp => rw [session_afterProvision, RegistryOp.entry, session_of_not_live (c := c) (by rw [hp]; rfl)]
  | clientClose => exact session_clientClose
  | unheard hs => exact session_unheard hs
  | unregister hs => simp [Connection.session, Connection.bridged, hs, RegistryOp.entry]
  | attempt hs =>
    rw [RegistryOp.entry, session_of_not_live (c := c) (by rw [hs]; rfl)]
    exact session_of_not_live (by split <;> rfl)
  | refuse hs | ready hs | session hs => exact (session_of_not_live (c := c) (by rw [hs]; rfl)).symm
  | asks | shell | hostKey | channel | written | writeFailed | finished | finishFailed => rfl

def Lists (g : Gateway) : Prop := ∀ i, g.registry.get? i = g.connections[i]?.bind Connection.session

theorem lists_step : Run.Preserves (Gateway.step env) (Guards wiresInTime · ·) Lists := by
  rintro g (ip | ⟨j,e⟩) g' hg hguard h
  · obtain ⟨-,rfl⟩ := Gateway.step_connect h
    intro i
    rw [hg i]
    rcases Nat.lt_trichotomy i g.connections.length with hlt | heq | hgt
    · simp [List.getElem?_append_left hlt]
    · subst heq
      simp [Connection.start, Connection.session, Connection.bridged]
    · have hle : g.connections.length ≤ i := Nat.le_of_lt hgt
      simp [List.getElem?_append_right hle, List.getElem?_eq_none hle, Nat.sub_ne_zero_of_lt hgt]
  · obtain ⟨c,c',op,hc,hs,rfl⟩ := Gateway.step_on h
    have hstep := session_step (by simpa [Guards, hc] using hguard) hs
    have hlt := (List.getElem?_eq_some_iff.mp hc).1
    have hentry : g.registry.get? j = c.session := by rw [hg j, hc, Option.bind_some]
    intro i
    by_cases hi : i = j
    · subst hi
      rw [get?_apply, if_pos rfl, hentry, ← hstep]
      simp [hlt]
    · have hne : j ≠ i := fun heq => hi heq.symm
      rw [get?_apply, if_neg hi, hg i]
      simp [List.getElem?_set_ne hne]

def Dialling (env : Env parseKey) (c : Connection) (_registered : Bool) : Prop :=
  c.stage = .dialing ∨ c.stage.live = true →
    ∃ credential, c.dialled =
      some (dialArgs env.keys.clientKey (c.inbound.state.uid.getD "") c.host c.endpoint credential)

theorem dialling_resumePick (registered : Bool) (h : Dialling env c registered) :
    Dialling env (c.resumePick env) registered := by
  unfold Connection.resumePick
  split
  · split
    · exact h
    · exact fun hlate => by simp [Connection.throw, Stage.live] at hlate
    · exact fun hlate => by simp [Stage.live] at hlate
  · exact h

theorem dialling_onSettle {registered registered' : Bool} (h : Dialling env c registered)
    (hs : c.onSettle = some (c',op)) :
    Dialling env c' registered' := by
  unfold Connection.onSettle at hs
  split at hs
  case h_9 => cases hs
  case h_1 | h_2 | h_7 | h_8 =>
    cases hs
    exact fun hlate => by simp [Stage.live] at hlate
  case h_3 hstage =>
    cases hs
    exact fun _ => h (.inl hstage)
  case h_4 hstage | h_5 hstage | h_6 hstage =>
    cases hs
    exact fun _ => h (.inr (by rw [hstage]; rfl))

theorem dialling_onFail {registered registered' : Bool} {message : String} (h : Dialling env c registered)
    (hs : c.onFail message = some (c',op)) : Dialling env c' registered' := by
  unfold Connection.onFail at hs
  split at hs
  case h_10 => cases hs
  case h_7 hstage =>
    cases hs
    exact fun _ => h (.inr (by rw [hstage]; rfl))
  case h_3 | h_4 | h_5 =>
    cases hs
    intro hlate
    split at hlate <;> simp [Connection.throw, Connection.abort, Stage.live] at hlate
  all_goals
    cases hs
    exact fun hlate => by simp [Connection.throw, Connection.abort, Stage.live] at hlate

theorem dialling_step (count : Nat) (c : Connection) (e : Event) (c' : Connection) (op : RegistryOp)
    (registered : Bool) (h : Dialling env c registered)
    (hs : c.step env count e = some (c',op)) : Dialling env c' (op.after registered) := by
  cases Connection.moves_of_step hs with
  | settle hsettle => exact dialling_onSettle h hsettle
  | fail hfail => exact dialling_onFail h hfail
  | exec | subsystem | emptyTimer | pick => exact dialling_resumePick _ h
  | hosts hd =>
    unfold Connection.afterHosts
    split
    · exact dialling_resumePick _ fun hlate => by simp [Stage.live] at hlate
    · split <;> exact fun hlate => by simp [Connection.throw, Stage.live] at hlate
  | provisioned hp =>
    unfold Connection.afterProvision
    split
    · exact fun hlate => by simp [Connection.throw, Stage.live] at hlate
    · exact fun _ => ⟨_,rfl⟩
  | attempt hstage =>
    intro hlate
    split at hlate <;> simp [Stage.live] at hlate
  | refuse | ready | session => exact fun hlate => by simp [Stage.live] at hlate
  | asks | shell | hostKey | channel | written | writeFailed => exact h
  | clientClose | unregister | unheard | finished | finishFailed => exact h

structure Gateway.Shows (env : Env parseKey) (g : Gateway) : Prop where
  sessions : ∀ i desc, g.registry.get? i = some desc ↔
    ∃ c, g.connections[i]? = some c ∧ c.bridged = true ∧ desc = c.desc
  dialled : ∀ (i : Nat) (c : Connection), g.connections[i]? = some c → c.bridged = true → ∃ credential, c.dialled =
    some (dialArgs env.keys.clientKey (c.inbound.state.uid.getD "") c.host c.endpoint credential)

variable {inputs : List Input} {g : Gateway}

theorem listed_run (hg : Run.Along (Gateway.step env) (Guards wiresInTime · ·) .start inputs)
    (h : Gateway.run env inputs = some g) (i : Nat) (desc : Desc) : g.registry.get? i = some desc ↔
      ∃ c, g.connections[i]? = some c ∧ c.bridged = true ∧ desc = c.desc := by
  have hlists : Lists g := Run.invariant lists_step (fun _ => rfl) hg h
  rw [hlists i, Option.bind_eq_some_iff]
  refine exists_congr fun c => and_congr_right fun _ => ?_
  rw [Connection.session, Option.ite_none_right_eq_some]
  exact and_congr_right fun _ => ⟨fun hdesc => (Option.some.inj hdesc).symm,fun hdesc => congrArg some hdesc.symm⟩

theorem sessions_shown (hg : Run.Along (Gateway.step env) (Guards wiresInTime · ·) .start inputs)
    (h : Gateway.run env inputs = some g) : g.Shows env := by
  refine ⟨listed_run hg h,fun i c hc hbridged => ?_⟩
  have hlive : c.stage.live = true := by
    cases hl : c.stage.live with
    | true => rfl
    | false =>
      have hnone := session_of_not_live hl
      simp [Connection.session, hbridged] at hnone
  have hdialling : Dialling env c (g.registry.has i) :=
    keeps_always (fun _ hlate => by simp [Connection.start, Stage.live] at hlate)
      dialling_step h hc
  exact hdialling (.inr hlive)

section OneSlot

def wiredRun : List Input := toMark 0 ++ [.on 0 .settle,.on 0 .settle]

theorem sessions_shown_wired : ∃ g, Gateway.run oneSlot wiredRun = some g ∧ g.registry.count = 1 ∧ g.Shows oneSlot := by
  have hg : Run.Along (Gateway.step oneSlot) (Guards wiresInTime · ·) .start wiredRun := by decide
  exact ⟨_,rfl,rfl,sessions_shown hg rfl⟩

end OneSlot

end JumpHost.Session
