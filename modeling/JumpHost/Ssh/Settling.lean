import JumpHost.Ssh.Teardown

namespace JumpHost.Session

open Keys Auth TargetMatch Connect

def Stage.debt : Stage → Nat
  | .creating => 13
  | .directory => 12
  | .picking => 11
  | .targeting => 10
  | .provisioning => 9
  | .dialing => 8
  | .marking => 7
  | .counting => 6
  | .finishing => 5
  | .failCounting => 4
  | .bridging => 2
  | .authenticating | .authenticated | .refused | .admitted | .wired | .settled => 0

def Wire.debt (w : Wire) (ending : Nat) : Nat := if w = .ending then ending else 0

def Picker.debt (p : Picker) : Nat := if p.chosen.isNone then 1 else 0

-- a client's close may end the upstream, and the upstream's close sets off `finish`
def Connection.debt (c : Connection) : Nat :=
  c.stage.debt +
    (c.picker.debt + c.client.debt 3 + (c.upstream.elim 0 (·.debt 2)) + c.closing.toNat + c.writing.toNat)

def Gateway.debt (g : Gateway) : Nat := g.connections.foldr (fun c n => c.debt + n) 0

variable {parseKey : String → Option PublicKey} {env : Env parseKey} {c c' : Connection}

theorem Wire.debt_le (w : Wire) (n : Nat) : w.debt n ≤ n := by
  cases w <;> simp [Wire.debt]

theorem Connection.debt_le (c : Connection) : c.debt ≤ 21 := by
  have hstage : c.stage.debt ≤ 13 := by cases c.stage <;> decide
  have hpicker : c.picker.debt ≤ 1 := by
    unfold Picker.debt
    split <;> omega
  have hclient := Wire.debt_le c.client 3
  have hupstream : c.upstream.elim 0 (·.debt 2) ≤ 2 := by
    cases c.upstream with
    | none => simp
    | some w => exact Wire.debt_le w 2
  have hclosing : c.closing.toNat ≤ 1 := Bool.toNat_le c.closing
  have hwriting : c.writing.toNat ≤ 1 := Bool.toNat_le c.writing
  unfold Connection.debt
  omega

def Gateway.internal (g : Gateway) : Input → Prop
  | .connect _ => False
  | .on i e => ∃ c, g.connections[i]? = some c ∧ e.internal c

theorem Gateway.debt_le (g : Gateway) : g.debt ≤ 21 * g.connections.length := by
  unfold Gateway.debt
  induction g.connections with
  | nil => exact Nat.le_refl _
  | cons c cs ih =>
    have hc := c.debt_le
    simp only [List.foldr_cons, List.length_cons]
    omega

structure Connection.AwaitsPeer (c : Connection) : Prop where
  stage : c.stage.idle = true
  client : c.client ≠ .ending
  upstream : c.upstream ≠ some .ending
  closing : c.closing = false
  writing : c.writing = false
  picking : c.stage = .picking → c.picker.chosen = none ∧ (c.picker.requested → c.picker.hosts ≠ some [])

def Gateway.Settles (env : Env parseKey) (g : Gateway) : Prop :=
  (∀ es g', Run.Along (Gateway.step env) Gateway.internal g es → Run.exec (Gateway.step env) g es = some g' →
    es.length ≤ 21 * g.connections.length ∧ (Run.AtRest (Gateway.step env) Gateway.internal g' →
      g'.ended = true ∨ ∀ c ∈ g'.connections, c.AwaitsPeer)) ∧
  ∃ es g', Run.Along (Gateway.step env) Gateway.internal g es ∧
    Run.exec (Gateway.step env) g es = some g' ∧ Run.AtRest (Gateway.step env) Gateway.internal g'

section OneSlot

end OneSlot

end JumpHost.Session
