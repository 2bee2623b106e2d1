import JumpHost.Library.Run

namespace JumpHost.Bridging

section Wiring

abbrev Bytes : Type := List UInt8

inductive Exit where
  | code (n : Nat)
  | signal (name : String)
deriving DecidableEq

inductive Wiring where
  | attached
  | picked
deriving DecidableEq

-- what the exit listener tells the client: `code == null ? 0 : code`, and behind `!signal` in attachSession
def reported : Wiring → Exit → Option Exit
  | _, .code n => some (.code n)
  | .attached, .signal _ => none
  | .picked, .signal _ => some (.code 0)

structure Counter where
  held : List Bytes := []
  bytes : Nat := 0

def Counter.transform (c : Counter) (chunk : Bytes) : Counter := ⟨c.held ++ [chunk],c.bytes + chunk.length⟩

structure Ends where
  sentOut : Bytes := []
  sentErr : Bytes := []
  sentIn : Bytes := []
  exited : Option Exit := none
  clientOut : Bytes := []
  clientErr : Bytes := []
  clientExit : Option Exit := none
  upstreamIn : Bytes := []

structure Bridge where
  out : Counter := {}
  into : Counter := {}
  ends : Ends := {}
  upstreamOpen : Bool := true
  writable : Bool := true
  clientOpen : Bool := true
  audit : Option (Nat × Nat) := none

inductive Event where
  | stdout (chunk : Bytes)
  | stderr (chunk : Bytes)
  | input (chunk : Bytes)
  | drainOut
  | drainIn
  | exit (e : Exit)
  | upstreamClose
  | clientClose

def onStdout (b : Bridge) (chunk : Bytes) : Option Bridge :=
  if b.upstreamOpen then
    some { b with out := b.out.transform chunk, ends := { b.ends with sentOut := b.ends.sentOut ++ chunk } }
  else none

-- nothing listens to the upstream channel's stderr
def onStderr (b : Bridge) (chunk : Bytes) : Option Bridge :=
  if b.upstreamOpen then some { b with ends := { b.ends with sentErr := b.ends.sentErr ++ chunk } } else none

def onInput (b : Bridge) (chunk : Bytes) : Option Bridge :=
  if b.clientOpen then
    some { b with into := b.into.transform chunk, ends := { b.ends with sentIn := b.ends.sentIn ++ chunk } }
  else none

def onDrainOut (b : Bridge) : Option Bridge :=
  match b.out.held with
  | [] => none
  | chunk :: held =>
      if b.clientOpen then
        some { b with
          out := { b.out with held := held }
          ends := { b.ends with clientOut := b.ends.clientOut ++ chunk } }
      else none

def onDrainIn (b : Bridge) : Option Bridge :=
  match b.into.held with
  | [] => none
  | chunk :: held =>
      if b.writable then
        some { b with
          into := { b.into with held := held }
          ends := { b.ends with upstreamIn := b.ends.upstreamIn ++ chunk } }
      else none

def onExit (w : Wiring) (b : Bridge) (e : Exit) : Option Bridge :=
  if b.upstreamOpen then
    let clientExit := if b.clientOpen then (reported w e).or b.ends.clientExit else b.ends.clientExit
    some { b with ends := { b.ends with exited := some e, clientExit := clientExit } }
  else none

def onUpstreamClose (b : Bridge) : Option Bridge :=
  if b.upstreamOpen then
    some { b with
      upstreamOpen := false
      writable := false
      clientOpen := false
      audit := some (b.into.bytes,b.out.bytes) }
  else none

def onClientClose (b : Bridge) : Option Bridge :=
  if b.clientOpen then some { b with clientOpen := false, writable := false } else none

def step (w : Wiring) (b : Bridge) : Event → Option Bridge
  | .stdout chunk => onStdout b chunk
  | .stderr chunk => onStderr b chunk
  | .input chunk => onInput b chunk
  | .drainOut => onDrainOut b
  | .drainIn => onDrainIn b
  | .exit e => onExit w b e
  | .upstreamClose => onUpstreamClose b
  | .clientClose => onClientClose b

end Wiring

section Transparency

variable {w : Wiring} {b b' : Bridge} {chunk : Bytes}

structure Transparent (b : Bridge) : Prop where
  out : b.ends.clientOut <+: b.ends.sentOut
  err : b.ends.clientErr <+: b.ends.sentErr
  into : b.ends.upstreamIn <+: b.ends.sentIn
  client : b.clientOpen = false → b.ends.clientOut = b.ends.sentOut ∧ b.ends.clientErr = b.ends.sentErr ∧
    b.ends.clientExit = b.ends.exited
  upstream : b.writable = false → b.ends.upstreamIn = b.ends.sentIn
  counts : ∀ bytesIn bytesOut, b.audit = some (bytesIn,bytesOut) →
    bytesIn = b.ends.upstreamIn.length ∧ bytesOut = b.ends.clientOut.length

def Counter.empty (c : Counter) : Prop := c.held.flatten = []

def Carried (b : Bridge) : Event → Prop
  | .stdout chunk => chunk = [] ∨ b.clientOpen = true
  | .stderr chunk => chunk = []
  | .exit e => (∃ n, e = .code n) ∧ b.clientOpen = true
  | .upstreamClose | .clientClose => b.out.empty ∧ b.into.empty
  | _ => True

structure Kept (b : Bridge) : Prop where
  out : b.ends.sentOut = b.ends.clientOut ++ b.out.held.flatten
  err : b.ends.sentErr = b.ends.clientErr
  into : b.ends.sentIn = b.ends.upstreamIn ++ b.into.held.flatten
  exit : b.ends.clientExit = b.ends.exited
  bytesOut : b.out.bytes = b.ends.sentOut.length
  bytesIn : b.into.bytes = b.ends.sentIn.length
  clientClosed : b.clientOpen = false → b.out.empty
  unwritable : b.writable = false → b.into.empty ∧ b.clientOpen = false
  audited : ∀ bytesIn bytesOut, b.audit = some (bytesIn,bytesOut) → b.upstreamOpen = false ∧ b.writable = false ∧
    bytesIn = b.ends.sentIn.length ∧ bytesOut = b.ends.sentOut.length

theorem Kept.transparent (h : Kept b) : Transparent b := by
  have hclient (hclosed : b.clientOpen = false) : b.ends.sentOut = b.ends.clientOut := by
    rw [h.out, h.clientClosed hclosed, List.append_nil]
  have hupstream (hclosed : b.writable = false) : b.ends.sentIn = b.ends.upstreamIn := by
    rw [h.into, (h.unwritable hclosed).1, List.append_nil]
  refine ⟨h.out ▸ List.prefix_append _ _,h.err ▸ List.prefix_rfl,h.into ▸ List.prefix_append _ _,fun hclosed => ?_,
    fun hclosed => (hupstream hclosed).symm,fun bytesIn bytesOut haudit => ?_⟩
  · exact ⟨(hclient hclosed).symm,h.err.symm,h.exit⟩
  · obtain ⟨-,hclosed,rfl,rfl⟩ := h.audited bytesIn bytesOut haudit
    rw [hupstream hclosed, hclient (h.unwritable hclosed).2]
    exact ⟨rfl,rfl⟩

theorem kept_empty : Kept {} := by
  refine ⟨rfl,rfl,rfl,rfl,rfl,rfl,fun _ => rfl,fun hclosed => ?_,fun bytesIn bytesOut haudit => ?_⟩
  · exact absurd hclosed (by decide)
  · exact absurd haudit (by simp)

theorem Counter.transform_flatten (c : Counter) (chunk : Bytes) :
    (c.transform chunk).held.flatten = c.held.flatten ++ chunk := by
  simp [Counter.transform]

theorem kept_stdout (h : Kept b) (hcarried : chunk = [] ∨ b.clientOpen = true) (hs : onStdout b chunk = some b') :
    Kept b' := by
  obtain ⟨hup,⟨⟩⟩ := Option.ite_none_right_eq_some.mp hs
  refine ⟨?_,h.err,h.into,h.exit,?_,h.bytesIn,fun hclosed => ?_,h.unwritable,fun bytesIn bytesOut haudit => ?_⟩
  · rw [Counter.transform_flatten, ← List.append_assoc, h.out]
  · simp [Counter.transform, h.bytesOut]
  · have hchunk : chunk = [] := hcarried.resolve_right (by simpa using hclosed)
    rw [Counter.empty, Counter.transform_flatten, h.clientClosed hclosed, hchunk, List.append_nil]
  · have hdown := (h.audited bytesIn bytesOut haudit).1
    simp [hup] at hdown

theorem kept_stderr (h : Kept b) (hcarried : chunk = []) (hs : onStderr b chunk = some b') : Kept b' := by
  obtain ⟨-,⟨⟩⟩ := Option.ite_none_right_eq_some.mp hs
  refine ⟨h.out,?_,h.into,h.exit,h.bytesOut,h.bytesIn,h.clientClosed,h.unwritable,h.audited⟩
  rw [hcarried, List.append_nil, h.err]

theorem kept_input (h : Kept b) (hs : onInput b chunk = some b') : Kept b' := by
  obtain ⟨hopen,⟨⟩⟩ := Option.ite_none_right_eq_some.mp hs
  have hwritable (hclosed : b.writable = false) : False := by
    simp [(h.unwritable hclosed).2] at hopen
  refine ⟨h.out,h.err,?_,h.exit,h.bytesOut,?_,h.clientClosed,fun hclosed => (hwritable hclosed).elim,
    fun bytesIn bytesOut haudit => (hwritable (h.audited bytesIn bytesOut haudit).2.1).elim⟩
  · rw [Counter.transform_flatten, ← List.append_assoc, h.into]
  · simp [Counter.transform, h.bytesIn]

theorem kept_drainOut (h : Kept b) (hs : onDrainOut b = some b') : Kept b' := by
  cases hheld : b.out.held with
  | nil => simp [onDrainOut, hheld] at hs
  | cons chunk held =>
    simp only [onDrainOut, hheld] at hs
    obtain ⟨hopen,⟨⟩⟩ := Option.ite_none_right_eq_some.mp hs
    refine ⟨?_,h.err,h.into,h.exit,h.bytesOut,h.bytesIn,fun hclosed => ?_,h.unwritable,h.audited⟩
    · rw [h.out, hheld, List.flatten_cons, List.append_assoc]
    · simp [hopen] at hclosed

theorem kept_drainIn (h : Kept b) (hs : onDrainIn b = some b') : Kept b' := by
  cases hheld : b.into.held with
  | nil => simp [onDrainIn, hheld] at hs
  | cons chunk held =>
    simp only [onDrainIn, hheld] at hs
    obtain ⟨hopen,⟨⟩⟩ := Option.ite_none_right_eq_some.mp hs
    refine ⟨h.out,h.err,?_,h.exit,h.bytesOut,h.bytesIn,h.clientClosed,fun hclosed => ?_,h.audited⟩
    · rw [h.into, hheld, List.flatten_cons, List.append_assoc]
    · simp [hopen] at hclosed

theorem kept_exit {n : Nat} (h : Kept b) (hopen : b.clientOpen = true) (hs : onExit w b (.code n) = some b') :
    Kept b' := by
  obtain ⟨-,⟨⟩⟩ := Option.ite_none_right_eq_some.mp hs
  refine ⟨h.out,h.err,h.into,?_,h.bytesOut,h.bytesIn,h.clientClosed,h.unwritable,h.audited⟩
  simp [hopen, reported]

theorem kept_upstreamClose (h : Kept b) (hout : b.out.empty) (hinto : b.into.empty)
    (hs : onUpstreamClose b = some b') : Kept b' := by
  obtain ⟨-,⟨⟩⟩ := Option.ite_none_right_eq_some.mp hs
  refine ⟨h.out,h.err,h.into,h.exit,h.bytesOut,h.bytesIn,fun _ => hout,fun _ => ⟨hinto,rfl⟩,
    fun bytesIn bytesOut haudit => ?_⟩
  simp only [Option.some.injEq, Prod.mk.injEq] at haudit
  exact ⟨rfl,rfl,haudit.1 ▸ h.bytesIn,haudit.2 ▸ h.bytesOut⟩

theorem kept_clientClose (h : Kept b) (hout : b.out.empty) (hinto : b.into.empty)
    (hs : onClientClose b = some b') : Kept b' := by
  obtain ⟨-,⟨⟩⟩ := Option.ite_none_right_eq_some.mp hs
  refine ⟨h.out,h.err,h.into,h.exit,h.bytesOut,h.bytesIn,fun _ => hout,fun _ => ⟨hinto,rfl⟩,
    fun bytesIn bytesOut haudit => ?_⟩
  obtain ⟨hup,-,hcounts⟩ := h.audited bytesIn bytesOut haudit
  exact ⟨hup,rfl,hcounts⟩

theorem kept_step : Run.Preserves (step w) Carried Kept := by
  intro b e b' h hcarried hs
  cases e with
  | stdout chunk => exact kept_stdout h hcarried hs
  | stderr chunk => exact kept_stderr h hcarried hs
  | input chunk => exact kept_input h hs
  | drainOut => exact kept_drainOut h hs
  | drainIn => exact kept_drainIn h hs
  | exit e =>
    obtain ⟨⟨n,rfl⟩,hopen⟩ := hcarried
    exact kept_exit h hopen hs
  | upstreamClose => exact kept_upstreamClose h hcarried.1 hcarried.2 hs
  | clientClose => exact kept_clientClose h hcarried.1 hcarried.2 hs

theorem transparency {events : List Event} {t : Bridge} (hcarried : Run.Along (step w) Carried {} events)
    (hrun : Run.exec (step w) {} events = some t) : Transparent t :=
  (Run.invariant kept_step kept_empty hcarried hrun).transparent

def answered : List Event :=
  [.input [108,115],.drainIn,.stdout [104,105],.drainOut,.exit (.code 3),.upstreamClose]

theorem transparency_answered : ∃ t, Run.exec (step .attached) {} answered = some t ∧ Transparent t ∧
    t.ends.clientOut = [104,105] ∧ t.ends.clientExit = some (.code 3) ∧ t.audit = some (2,2) := by
  have hcarried : Run.Along (step .attached) Carried {} answered :=
    ⟨trivial,trivial,.inr rfl,trivial,⟨⟨3,rfl⟩,rfl⟩,⟨rfl,rfl⟩,trivial⟩
  exact ⟨_,rfl,transparency hcarried rfl,rfl,rfl,rfl⟩

theorem stderr_lost : ∃ t,
    Run.exec (step .attached) {} [.stderr [101],.exit (.code 1),.upstreamClose] = some t ∧ ¬ Transparent t := by
  refine ⟨_,rfl,fun h => ?_⟩
  have herr := (h.client rfl).2.1
  simp at herr

end Transparency

section Losses

variable {w : Wiring} {b b' : Bridge}

structure Unheard (b : Bridge) : Prop where
  err : b.ends.clientErr = []
  exit : ∀ name, b.ends.clientExit ≠ some (.signal name)

theorem reported_ne_signal (w : Wiring) (e : Exit) (name : String) : reported w e ≠ some (.signal name) := by
  cases w <;> cases e <;> simp [reported]

theorem unheard_of_eq (h : Unheard b) (herr : b'.ends.clientErr = b.ends.clientErr)
    (hexit : b'.ends.clientExit = b.ends.clientExit) : Unheard b' :=
  ⟨herr.trans h.err,fun name => hexit ▸ h.exit name⟩

theorem unheard_exit {e : Exit} (h : Unheard b) (hs : onExit w b e = some b') : Unheard b' := by
  obtain ⟨-,⟨⟩⟩ := Option.ite_none_right_eq_some.mp hs
  refine ⟨h.err,fun name => ?_⟩
  have hreported := reported_ne_signal w e name
  have hexit := h.exit name
  cases hw : reported w e with
  | none => simpa [hw] using hexit
  | some told =>
    rw [hw] at hreported
    by_cases hopen : b.clientOpen = true
    · simpa [hopen] using hreported
    · simpa [hopen] using hexit

theorem unheard_step : Run.Preserves (step w) (fun _ _ => True) Unheard := by
  intro b e b' h _ hs
  cases e with
  | stdout | stderr | input | upstreamClose | clientClose =>
    obtain ⟨-,⟨⟩⟩ := Option.ite_none_right_eq_some.mp hs
    exact unheard_of_eq h rfl rfl
  | drainOut =>
    cases hheld : b.out.held with
    | nil => simp [step, onDrainOut, hheld] at hs
    | cons chunk held =>
      simp only [step, onDrainOut, hheld] at hs
      obtain ⟨-,⟨⟩⟩ := Option.ite_none_right_eq_some.mp hs
      exact unheard_of_eq h rfl rfl
  | drainIn =>
    cases hheld : b.into.held with
    | nil => simp [step, onDrainIn, hheld] at hs
    | cons chunk held =>
      simp only [step, onDrainIn, hheld] at hs
      obtain ⟨-,⟨⟩⟩ := Option.ite_none_right_eq_some.mp hs
      exact unheard_of_eq h rfl rfl
  | exit e => exact unheard_exit h hs

theorem unheard {events : List Event} {t : Bridge} (hrun : Run.exec (step w) {} events = some t) : Unheard t :=
  Run.invariant unheard_step ⟨rfl,by simp⟩ (Run.along_of_forall (fun _ _ _ => trivial) _) hrun

end Losses

end JumpHost.Bridging
