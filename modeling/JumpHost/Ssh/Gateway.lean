import JumpHost.Ssh.Session

namespace JumpHost.Session

open Keys Auth TargetMatch Connect

abbrev Registry := OrdMap Nat Desc

def Registry.add (registry : Registry) (id : Nat) (desc : Desc) : Registry := registry.set id desc

def Registry.remove (registry : Registry) (id : Nat) : Registry := registry.delete id

def Registry.count (registry : Registry) : Nat := registry.size

def RegistryOp.apply (registry : Registry) (id : Nat) : RegistryOp → Registry
  | .keep => registry
  | .add desc => registry.add id desc
  | .remove => registry.remove id

structure Gateway where
  registry : Registry
  connections : List Connection
  ended : Bool := false

inductive Input where
  | connect (clientIp : Option String)
  | on (i : Nat) (e : Event)

def Connection.start (clientIp : Option String) : Connection := { inbound := .start clientIp }

def Gateway.start : Gateway := ⟨OrdMap.empty,[],false⟩

variable {parseKey : String → Option PublicKey} (env : Env parseKey)

def Gateway.step (g : Gateway) : Input → Option Gateway
  | .connect clientIp =>
      if g.ended then none else some { g with connections := g.connections ++ [.start clientIp] }
  | .on i e => if g.ended then none else match g.connections[i]? with
      | none => none
      | some c => match c.step env g.registry.count e with
          | none => none
          | some (c',op) => some ⟨op.apply g.registry i,g.connections.set i c',c'.unhandled⟩

def Gateway.run (inputs : List Input) : Option Gateway := Run.exec (Gateway.step env) .start inputs

def Guarding (guard : Nat → Connection → Event → Bool) (i : Nat) (g : Gateway) : Input → Bool
  | .connect _ => true
  | .on j e => j != i || g.connections[i]?.all fun c => guard g.registry.count c e

def Guards (guard : Nat → Connection → Event → Bool) (g : Gateway) : Input → Bool
  | .connect _ => true
  | .on i e => g.connections[i]?.all fun c => guard g.registry.count c e

def RegistryOp.after (registered : Bool) : RegistryOp → Bool
  | .keep => registered
  | .add _ => true
  | .remove => false

theorem has_apply (registry : Registry) (i j : Nat) (op : RegistryOp) :
    (op.apply registry i).has j = if j = i then op.after (registry.has i) else registry.has j := by
  cases op with
  | keep => by_cases h : j = i <;> simp [RegistryOp.apply, RegistryOp.after, h]
  | add desc =>
    by_cases h : j = i <;>
      simp [RegistryOp.apply, RegistryOp.after, Registry.add, OrdMap.has_set, h]
  | remove =>
    by_cases h : j = i <;>
      simp [RegistryOp.apply, RegistryOp.after, Registry.remove, OrdMap.has_delete, h]

def Watching {O : Type} (see : Nat → Connection → Event → O → O) (i : Nat) (g : Gateway) : Input → O → O
  | .connect _, o => o
  | .on j e, o => if j = i then g.connections[i]?.elim o fun c => see g.registry.count c e o else o

def Keeps {O : Type} (o₀ : O) (P : O → Connection → Bool → Prop) (i : Nat) (g : Gateway) (o : O) : Prop :=
  (g.connections.length ≤ i → g.registry.has i = false ∧ o = o₀) ∧
    ∀ c, g.connections[i]? = some c → P o c (g.registry.has i)

variable {env}

theorem Gateway.step_connect {g g' : Gateway} {clientIp : Option String}
    (h : g.step env (.connect clientIp) = some g') :
    g.ended = false ∧ g' = { g with connections := g.connections ++ [.start clientIp] } := by
  simp only [Gateway.step] at h
  cases hended : g.ended with
  | true => simp [hended] at h
  | false => exact ⟨rfl,by simpa [hended] using h.symm⟩

theorem Gateway.step_on {g g' : Gateway} {i : Nat} {e : Event}
    (h : g.step env (.on i e) = some g') :
    ∃ c c' op, g.connections[i]? = some c ∧ c.step env g.registry.count e = some (c',op) ∧
      g' = ⟨op.apply g.registry i,g.connections.set i c',c'.unhandled⟩ := by
  simp only [Gateway.step] at h
  cases hended : g.ended with
  | true => simp [hended] at h
  | false =>
    cases hc : g.connections[i]? with
    | none => simp [hended, hc] at h
    | some c =>
      cases hs : c.step env g.registry.count e with
      | none => simp [hended, hc, hs] at h
      | some p => exact ⟨c,p.1,p.2,rfl,hs,by simpa [hended, hc, hs] using h.symm⟩

theorem keeps_step {O : Type} {o₀ : O} {guard : Nat → Connection → Event → Bool}
    {see : Nat → Connection → Event → O → O} {P : O → Connection → Bool → Prop}
    (hstart : ∀ ip, P o₀ (.start ip) false)
    (hstep : ∀ count c e c' op registered o, P o c registered → guard count c e = true →
      c.step env count e = some (c',op) → P (see count c e o) c' (op.after registered)) (i : Nat)
    (g : Gateway) (input : Input) (g' : Gateway) (o : O) (hP : Keeps o₀ P i g o)
    (hg : Guarding guard i g input = true) (h : g.step env input = some g') :
    Keeps o₀ P i g' (Watching see i g input o) := by
  obtain ⟨hnew,hold⟩ := hP
  rcases input with ip | ⟨j,e⟩
  · obtain ⟨-,rfl⟩ := Gateway.step_connect h
    refine ⟨fun hle => hnew (by simp at hle; omega),?_⟩
    intro c hc
    rcases Nat.lt_trichotomy i g.connections.length with hlt | heq | hgt
    · exact hold c (by simpa [List.getElem?_append_left hlt] using hc)
    · subst heq
      obtain ⟨hfree,ho⟩ := hnew (Nat.le_refl _)
      have hcs : c = .start ip := by simpa using hc.symm
      rw [hcs, hfree]
      exact ho ▸ hstart ip
    · rw [List.getElem?_append_right (by omega)] at hc
      simp [Nat.sub_ne_zero_of_lt hgt] at hc
  · obtain ⟨c,c',op,hc,hs,rfl⟩ := Gateway.step_on h
    by_cases hj : j = i
    · subst hj
      have hlt : j < g.connections.length := (List.getElem?_eq_some_iff.mp hc).1
      refine ⟨fun hle => absurd hlt (by simpa using hle),?_⟩
      intro d hd
      obtain rfl : c' = d := by simpa [hlt] using hd
      have hgc : guard g.registry.count c e = true := by simpa [Guarding, hc] using hg
      simpa [has_apply, Watching, hc] using
        hstep g.registry.count c e c' op (g.registry.has j) o (hold c hc) hgc hs
    · have hij : i ≠ j := fun he => hj he.symm
      refine ⟨fun hle => ?_,?_⟩
      · simpa [has_apply, hij, Watching, hj] using hnew (by simpa using hle)
      · intro d hd
        simpa [has_apply, hij, Watching, hj] using hold d (by simpa [List.getElem?_set_ne hj] using hd)

theorem keeps_observed {O : Type} (o₀ : O) {guard : Nat → Connection → Event → Bool}
    (see : Nat → Connection → Event → O → O) (P : O → Connection → Bool → Prop)
    (hstart : ∀ ip, P o₀ (.start ip) false)
    (hstep : ∀ count c e c' op registered o, P o c registered → guard count c e = true →
      c.step env count e = some (c',op) → P (see count c e o) c' (op.after registered))
    {i : Nat} {inputs : List Input} {g : Gateway} {c : Connection}
    (hg : Run.Along (Gateway.step env) (Guarding guard i · ·) .start inputs)
    (h : Gateway.run env inputs = some g) (hc : g.connections[i]? = some c) :
    P (Run.observe (Gateway.step env) (Watching see i) .start o₀ inputs) c (g.registry.has i) := by
  have h0 : Keeps o₀ P i .start o₀ :=
    ⟨fun _ => ⟨by simp [Gateway.start, OrdMap.has],rfl⟩,by simp [Gateway.start]⟩
  exact (Run.observe_invariant (keeps_step hstart hstep i) h0 hg h).2 c hc

theorem keeps_run {guard : Nat → Connection → Event → Bool} {P : Connection → Bool → Prop}
    (hstart : ∀ ip, P (.start ip) false)
    (hstep : ∀ count c e c' op registered, P c registered → guard count c e = true →
      c.step env count e = some (c',op) → P c' (op.after registered))
    {i : Nat} {inputs : List Input} {g : Gateway} {c : Connection}
    (hg : Run.Along (Gateway.step env) (Guarding guard i · ·) .start inputs)
    (h : Gateway.run env inputs = some g) (hc : g.connections[i]? = some c) :
    P c (g.registry.has i) :=
  keeps_observed () (fun _ _ _ o => o) (fun _ c registered => P c registered) hstart
    (fun count c e c' op registered _ => hstep count c e c' op registered) hg h hc

theorem keeps_always {P : Connection → Bool → Prop} (hstart : ∀ ip, P (.start ip) false)
    (hstep : ∀ count c e c' op registered, P c registered → c.step env count e = some (c',op) →
      P c' (op.after registered))
    {i : Nat} {inputs : List Input} {g : Gateway} {c : Connection}
    (h : Gateway.run env inputs = some g) (hc : g.connections[i]? = some c) : P c (g.registry.has i) := by
  have hg : Run.Along (Gateway.step env) (Guarding (fun _ _ _ => true) i · ·) .start inputs :=
    Run.along_of_forall (fun _ input _ => by cases input <;> simp [Guarding]) _
  exact keeps_run hstart (fun count c e c' op registered hP _ hs => hstep count c e c' op registered hP hs) hg h hc

section OneSlot

def oneSlot : Env demoParseKey := ⟨demoKeys,demoVerify,{ maxSessions := 1 },asciiJs⟩

def aliceLogin : Attempt :=
  ⟨⟨"alice",.publickey ⟨"ssh-ed25519",[7]⟩ [0] (some [7]) none⟩,demoDirectory⟩

def toReady (i : Nat) : List Input := [.on i (.attempt aliceSigned),.on i .ready]

def toDial (i : Nat) : List Input :=
  [.on i .session,.on i .settle,.on i (.hosts [db01,web01]),.on i .settle,
    .on i (.provisioned ⟨.ok "cert",.ok true⟩)]

end OneSlot

end JumpHost.Session
