import JumpHost.Ssh.Gateway

namespace JumpHost.Session

open Keys Auth TargetMatch Connect

def Picker.mayPick (p : Picker) (client : Wire) : Bool :=
  match p.chosen with
  | some choice => choice.isSome
  | none => client != .closed

def Connection.mayRegister (c : Connection) : Bool :=
  match c.stage with
  | .admitted => c.client != .closed
  | .creating | .directory => !c.tui || c.picker.mayPick c.client
  | .picking => c.picker.mayPick c.client && (c.picker.chosen.isSome || c.picker.hosts != some [])
  | .targeting | .provisioning | .dialing => true
  | _ => false

def Gateway.reserved (g : Gateway) : Nat := g.connections.countP Connection.mayRegister

def RegistryOp.added : RegistryOp → Nat
  | .add _ => 1
  | _ => 0

theorem size_apply_le (registry : Registry) (i : Nat) (op : RegistryOp) :
    (op.apply registry i).size ≤ registry.size + op.added := by
  cases op with
  | keep => exact Nat.le_refl _
  | add desc => exact OrdMap.size_set_le registry i desc
  | remove => exact OrdMap.size_delete_le registry i

variable {parseKey : String → Option PublicKey} {env : Env parseKey}

theorem mayRegister_resumePick {c : Connection} (h : (c.resumePick env).mayRegister = true) :
    c.mayRegister = true := by
  unfold Connection.resumePick at h
  split at h
  · next hs =>
    split at h
    · exact h
    · simp [Connection.throw, Connection.mayRegister] at h
    · next hchosen => simp [Connection.mayRegister, Picker.mayPick, hs, hchosen]
  · exact h

theorem mayRegister_choose {c : Connection} {choice : Option Host}
    (hpick : choice.isSome = true → c.client ≠ .closed ∧ c.picker.hosts ≠ some [])
    (h : (c.choose env choice).mayRegister = true) : c.mayRegister = true := by
  have h' := mayRegister_resumePick h
  unfold Connection.mayRegister at h' ⊢
  cases hs : c.stage <;> simp only [hs] at h' ⊢ <;>
    cases hc : c.picker.chosen <;> simp_all [Picker.mayPick]
  all_goals exact h'.imp_right fun hchoice => (hpick hchoice).1

theorem mayRegister_afterHosts {c : Connection} {hs : List Host} (hd : c.stage = .directory)
    (h : (c.afterHosts env hs).mayRegister = true) : c.mayRegister = true := by
  unfold Connection.afterHosts at h
  split at h
  · have h' := mayRegister_resumePick h
    simp_all [Connection.mayRegister, Picker.mayPick]
  · next ht => simp [Connection.mayRegister, hd, ht]

theorem mayRegister_clientClose {c : Connection} {upstream : Option Wire}
    (h : Connection.mayRegister { c with client := .closed, upstream := upstream } = true) :
    c.mayRegister = true := by
  unfold Connection.mayRegister at h ⊢
  cases hs : c.stage <;> simp only [hs] at h ⊢ <;> cases hc : c.picker.chosen <;>
    simp_all [Picker.mayPick]

theorem mayRegister_settle {c c' : Connection} {op : RegistryOp}
    (hs : c.onSettle = some (c',op)) :
    op.added + c'.mayRegister.toNat ≤ c.mayRegister.toNat := by
  unfold Connection.onSettle at hs
  split at hs <;> cases hs <;> cases ht : c.tui <;>
    simp_all [Connection.mayRegister, RegistryOp.added, Picker.mayPick]

theorem mayRegister_fail {c c' : Connection} {op : RegistryOp} {message : String}
    (hs : c.onFail message = some (c',op)) : op = .keep ∧ c'.mayRegister = false := by
  unfold Connection.onFail at hs
  split at hs <;> cases hs <;> cases ht : c.tui <;>
    simp [Connection.mayRegister, Connection.abort, Connection.throw]

theorem mayRegister_step {count : Nat} {c c' : Connection} {e : Event} {op : RegistryOp}
    (hready : e = .ready → maxSessions env.conf ≤ count)
    (hs : c.step env count e = some (c',op)) :
    op.added + c'.mayRegister.toNat ≤ c.mayRegister.toNat := by
  have hkeep : op = .keep → (c'.mayRegister = true → c.mayRegister = true) →
      op.added + c'.mayRegister.toNat ≤ c.mayRegister.toNat := by
    rintro rfl h
    cases hc' : c'.mayRegister with
    | false => simp [RegistryOp.added]
    | true => simp [RegistryOp.added, h hc']
  cases Connection.moves_of_step hs with
  | settle hsettle => exact mayRegister_settle hsettle
  | fail hfail =>
    obtain ⟨rfl,hc'⟩ := mayRegister_fail hfail
    simp [RegistryOp.added, hc']
  | ready hstage hopen hfree => exact absurd (hready rfl) (Nat.not_le.mpr hfree)
  | refuse => exact hkeep rfl (by simp [Connection.mayRegister])
  | attempt => exact hkeep rfl (by split <;> simp [Connection.mayRegister])
  | session hstage hopen => exact hkeep rfl fun _ => by simpa [Connection.mayRegister, hstage] using hopen
  | hosts hd => exact hkeep rfl (mayRegister_afterHosts hd)
  | provisioned hp => exact hkeep rfl fun _ => by simp [Connection.mayRegister, hp]
  | pick hasked hnone hopen hlisted hne =>
    exact hkeep rfl (mayRegister_choose fun _ => ⟨hopen,by simp [hlisted, hne]⟩)
  | exec | subsystem | emptyTimer => exact hkeep rfl (mayRegister_choose (by simp))
  | clientClose => exact hkeep rfl mayRegister_clientClose
  | unregister hstage => simp [RegistryOp.added, Connection.mayRegister, hstage]
  | asks | shell | hostKey | channel | written | writeFailed | unheard | finished | finishFailed =>
    exact hkeep rfl id

def withinReserve (env : Env parseKey) (g : Gateway) : Input → Bool
  | .on _ .ready => maxSessions env.conf ≤ g.registry.count ||
      g.registry.count + g.reserved < maxSessions env.conf
  | _ => true

def Capped (env : Env parseKey) (g : Gateway) : Prop :=
  g.registry.count + g.reserved ≤ maxSessions env.conf

theorem reserved_set {g : Gateway} {i : Nat} {c : Connection} (c' : Connection)
    (hc : g.connections[i]? = some c) :
    Gateway.reserved { g with connections := g.connections.set i c' } + c.mayRegister.toNat =
      g.reserved + c'.mayRegister.toNat := by
  obtain ⟨hlt,hci⟩ := List.getElem?_eq_some_iff.mp hc
  have hpos : c.mayRegister = true → 0 < g.reserved := fun hm =>
    List.countP_pos_iff.mpr ⟨c,List.mem_of_getElem? hc,hm⟩
  simp only [Gateway.reserved] at hpos ⊢
  rw [List.countP_set hlt, hci]
  cases hm : c.mayRegister <;> cases c'.mayRegister <;> simp_all

theorem ready_keeps {count : Nat} {c c' : Connection} {op : RegistryOp}
    (hs : c.step env count .ready = some (c',op)) : op = .keep := by
  cases Connection.moves_of_step hs <;> rfl

theorem capped_step : Run.Preserves (Gateway.step env) (withinReserve env · ·) (Capped env) := by
  rintro g (ip | ⟨i,e⟩) g' hg hguard h
  · obtain ⟨-,rfl⟩ := Gateway.step_connect h
    simpa [Capped, Gateway.reserved, Connection.mayRegister, Connection.start] using hg
  · obtain ⟨c,c',op,hc,hs,rfl⟩ := Gateway.step_on h
    have hsize := size_apply_le g.registry i op
    have hreserved := reserved_set c' hc
    by_cases hfull : e = .ready → maxSessions env.conf ≤ g.registry.count
    · have hslot := mayRegister_step hfull hs
      simp only [Capped, Registry.count, Gateway.reserved] at hg hreserved ⊢
      omega
    · simp only [Classical.not_imp, Nat.not_le] at hfull
      obtain ⟨rfl,hfree⟩ := hfull
      have hop := ready_keeps hs
      have hone := Bool.toNat_le c'.mayRegister
      simp only [withinReserve, Nat.not_le.mpr hfree, decide_false, Bool.false_or,
        decide_eq_true_eq] at hguard
      simp only [Capped, hop, RegistryOp.apply, Gateway.reserved] at hguard hreserved ⊢
      omega

theorem session_cap {inputs : List Input} {g : Gateway}
    (hg : Run.Along (Gateway.step env) (withinReserve env · ·) .start inputs)
    (h : Gateway.run env inputs = some g) : g.registry.count ≤ maxSessions env.conf := by
  have hcapped : Capped env g := Run.invariant capped_step (Nat.zero_le _) hg h
  exact Nat.le_trans (Nat.le_add_right _ _) hcapped

section OneSlot

def twoReady : List Input :=
  [.connect (some "10.0.0.9"),.connect (some "10.0.0.9")] ++ toReady 0 ++ toReady 1

def oneAfterTheOther : List Input :=
  [.connect (some "10.0.0.9"),.connect (some "10.0.0.9")] ++ toReady 0 ++ toDial 0 ++
    [.on 0 .settle] ++ toReady 1

theorem session_cap_one :
    ∃ g, Gateway.run oneSlot oneAfterTheOther = some g ∧ g.registry.count ≤ 1 := by
  have hg : Run.Along (Gateway.step oneSlot) (withinReserve oneSlot · ·) .start
      oneAfterTheOther := by decide
  exact ⟨_,rfl,session_cap hg rfl⟩

theorem session_cap_exceeded :
    ∃ g, Gateway.run oneSlot (twoReady ++ toDial 0 ++ toDial 1 ++ [.on 0 .settle,.on 1 .settle]) =
      some g ∧ maxSessions oneSlot.conf < g.registry.count :=
  ⟨_,rfl,by decide⟩

end OneSlot

end JumpHost.Session
