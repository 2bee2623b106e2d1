import JumpHost.Mesh.Frame

namespace JumpHost.Mesh

open Effect

theorem filter_eraseP {α : Type} {p q : α → Bool} {l : List α} (h : ∀ a, p a = true → q a = false) :
    (l.eraseP p).filter q = l.filter q := by
  induction l with
  | nil => rfl
  | cons a l ih =>
    by_cases hp : p a = true
    · rw [List.eraseP_cons_of_pos hp, List.filter_cons_of_neg (by simp [h a hp])]
    · rw [List.eraseP_cons_of_neg hp]
      by_cases hq : q a = true
      · rw [List.filter_cons_of_pos hq, List.filter_cons_of_pos hq, ih]
      · rw [List.filter_cons_of_neg hq, List.filter_cons_of_neg hq, ih]

theorem filter_erase {α : Type} [BEq α] [LawfulBEq α] {q : α → Bool} {l : List α} {a : α} (h : q a = false) :
    (l.erase a).filter q = l.filter q := by
  rw [List.erase_eq_eraseP']
  refine filter_eraseP fun b hb => ?_
  rw [eq_of_beq hb, h]

structure Calm (w : World) : Prop where
  faults : w.faults = fun _ _ => none
  iptables : ∀ missing, w.toolCache = some missing → "iptables" ∉ missing

structure Quiet (w : World) : Prop where
  faults : w.faults = fun _ _ => none

theorem Calm.quiet {w : World} (h : Calm w) : Quiet w := ⟨h.faults⟩

theorem tryRun_quiet {w : World} (hw : Quiet w) {c : Cmd} {b : Box} (h : w.box.step c = .ok b) :
    tryRun c w = .ok (.ok ()) { w with box := b } := by
  have hnone : w.faults 0 c = none := by rw [hw.faults]
  rw [tryRun_ok hnone h, hw.faults]

theorem tryRun_refused {w : World} (hw : Quiet w) {c : Cmd} {failed : Failed}
    (h : w.box.step c = .error failed) : tryRun c w = .ok (.error failed) w := by
  have hnone : w.faults 0 c = none := by rw [hw.faults]
  obtain ⟨box,faults,toolCache,kernelSupport,probes,pid⟩ := w
  have hfaults := hw.faults
  subst hfaults
  simp [tryRun, World.issue, h]

structure Still (P : World → Prop) : Prop where
  quiet : ∀ w, P w → Quiet w
  box : ∀ w box, P w → P { w with box }

theorem calm_still : Still Calm := ⟨fun _ => Calm.quiet,fun _ _ hw => ⟨hw.faults,hw.iptables⟩⟩

theorem quiet_still : Still Quiet := ⟨fun _ hw => hw,fun _ _ hw => ⟨hw.faults⟩⟩

theorem missingTools_cached {w : World} {missing : List String} (h : w.toolCache = some missing) :
    missingTools w = .ok missing w := by
  have hget : (get : Shell World) w = .ok w w := rfl
  unfold missingTools
  rw [bind_of_ok hget]
  simp only [h]
  rfl

theorem missingTools_found {w : World} (hcache : w.toolCache = none)
    (hanswers : ∀ n tool, w.faults n (.version tool) = none) : missingTools w =
      .ok [] { w with faults := fun n => w.faults (n + 2), toolCache := some [] } := by
  have hget : (get : Shell World) w = .ok w w := rfl
  let later : World := { w with faults := fun n => w.faults (n + 1) }
  have hfirst : ∀ tool, tryRun (.version tool) w = .ok (.ok ()) later := fun tool => tryRun_ok (hanswers 0 tool) rfl
  have hsecond : ∀ tool, tryRun (.version tool) later =
      .ok (.ok ()) { later with faults := fun n => later.faults (n + 1) } := fun tool => tryRun_ok (hanswers 1 tool) rfl
  unfold missingTools
  rw [bind_of_ok hget]
  simp only [hcache, TOOLS, List.foldlM_cons, List.foldlM_nil, bind_apply, hfirst, hsecond, pure_apply]
  rfl

theorem missingTools_calm {w : World} (hw : Calm w) :
    ∃ missing w', missingTools w = .ok missing w' ∧ "iptables" ∉ missing ∧ Calm w' ∧
      w'.box = w.box := by
  cases hcache : w.toolCache with
  | some missing => exact ⟨missing,w,missingTools_cached hcache,hw.iptables missing hcache,hw,rfl⟩
  | none =>
    have hrun := missingTools_found hcache fun n tool => by rw [hw.faults]
    refine ⟨[],_,hrun,by simp,⟨by rw [hw.faults],?_⟩,rfl⟩
    rintro missing h
    obtain rfl : [] = missing := Option.some.inj h
    simp

theorem stable_calm (C : Cmd → Prop) : Stable Calm C where
  issue w c _ hw := by
    refine ⟨?_,?_⟩
    · rw [faults_issue, hw.faults]
    · rw [toolCache_issue]
      exact hw.iptables
  remember w kernelSupport probes hw := ⟨hw.faults,hw.iptables⟩
  ends w d _ hw := ⟨hw.faults,hw.iptables⟩
  tools w hw := by
    obtain ⟨missing,w',hrun,-,hw',-⟩ := missingTools_calm hw
    rw [hrun]
    exact hw'

theorem stable_quiet (C : Cmd → Prop) : Stable Quiet C := by
  have hfaults := stable_faults (Q := fun faults => faults = fun _ _ => none) (fun _ h => by rw [h]) C
  exact ⟨fun w c hc hw => ⟨hfaults.issue w c hc hw.faults⟩,fun w _ _ hw => ⟨hw.faults⟩,fun w _ _ hw => ⟨hw.faults⟩,
    fun w hw => ⟨hfaults.tools w hw.faults⟩⟩

section Commands

variable {P : World → Prop} {b b' : Box}

theorem Still.gives_tryRun (hP : Still P) {c : Cmd} (h : b.step c = .ok b') :
    Gives P World.box (tryRun c) b (.ok ()) b' := by
  rintro w hw rfl
  exact ⟨_,tryRun_quiet (hP.quiet w hw) h,hP.box w _ hw,rfl⟩

theorem Still.gives_refused (hP : Still P) {c : Cmd} {failed : Failed}
    (h : b.step c = .error failed) : Gives P World.box (tryRun c) b (.error failed) b := by
  rintro w hw rfl
  exact ⟨w,tryRun_refused (hP.quiet w hw) h,hw,rfl⟩

theorem gives_tryRun {c : Cmd} (h : b.step c = .ok b') :
    Gives Calm World.box (tryRun c) b (.ok ()) b' := calm_still.gives_tryRun h

theorem gives_refused {c : Cmd} {failed : Failed} (h : b.step c = .error failed) :
    Gives Calm World.box (tryRun c) b (.error failed) b := calm_still.gives_refused h

theorem gives_query {α : Type} {c : Cmd} {output : Box → α} (h : b.step c = .ok b) :
    Gives Calm World.box (query c output) b (.ok (output b)) b := by
  refine (gives_tryRun h).bind ?_
  rintro w hw rfl
  exact ⟨w,rfl,hw,rfl⟩

theorem gives_haveIptables : Gives Calm World.box haveIptables b true b := by
  rintro w hw rfl
  obtain ⟨missing,w',hrun,hmissing,hw',hbox⟩ := missingTools_calm hw
  refine ⟨w',?_,hw',hbox⟩
  unfold haveIptables
  rw [bind_of_ok hrun, pure_apply]
  simp [hmissing]

theorem takes_noting {α : Type} {step : Shell α} (h : Takes Calm World.box step b b')
    (failed : List Failure) (label : String) :
    Takes Calm World.box (noting failed label step) b b' := by
  unfold noting
  exact h.caught failed fun err => failed ++ [Failure.mk label err]

end Commands

section Rules

def Box.ensure (b : Box) (e : IptEntry) : Box :=
  if e ∈ b.iptables then b else { b with iptables := b.iptables ++ [e] }

@[irreducible] def eraseCopies (e : IptEntry) : Nat → List IptEntry → List IptEntry
  | 0, es => es
  | n + 1, es => eraseCopies e n (es.erase e)

def Box.withdraw (b : Box) (e : IptEntry) : Box :=
  { b with iptables := eraseCopies e 33 b.iptables }

def Box.claim (b : Box) (net : Net) : Box :=
  if b.routes.any fun r => r.table = LOCAL ∧ r.net = net then b
  else { b with routes := b.routes ++ [⟨LOCAL,net,"lo"⟩] }

def Box.unclaim (b : Box) (net : Net) : Box :=
  { b with routes := b.routes.erase ⟨LOCAL,net,"lo"⟩ }

def Box.record (b : Box) (member : String) : Box :=
  if b.applied.contains member then b else { b with applied := b.applied ++ [member] }

def Box.forget (b : Box) (member : String) : Box :=
  { b with applied := b.applied.filter (· != member) }

variable {b : Box} {e : IptEntry} {table : Table} {chain : String} {rule : IptRule String}
  {rule' : IptRule Net}

theorem iptables_present (hrule : rule.parse = some rule')
    (h : ⟨table,chain,rule'⟩ ∈ b.iptables) :
    b.step (.iptables .check table chain rule) = .ok b ∧
      b.step (.iptables .delete table chain rule) =
        .ok { b with iptables := b.iptables.erase ⟨table,chain,rule'⟩ } := by
  simp [Box.step, Box.iptablesOp, hrule, h]

theorem iptables_absent (hrule : rule.parse = some rule') (h : ⟨table,chain,rule'⟩ ∉ b.iptables) :
    (∃ failed, b.step (.iptables .check table chain rule) = .error failed) ∧
      b.step (.iptables .append table chain rule) =
        .ok { b with iptables := b.iptables ++ [⟨table,chain,rule'⟩] } := by
  simp [Box.step, Box.iptablesOp, hrule, h, Box.refuse]

theorem takes_ensureRule (hrule : rule.parse = some rule') :
    Takes Calm World.box (ensureRule table chain rule true) b (b.ensure ⟨table,chain,rule'⟩) := by
  refine gives_haveIptables.takes_bind ?_
  by_cases h : ⟨table,chain,rule'⟩ ∈ b.iptables
  · obtain ⟨hcheck,-⟩ := iptables_present hrule h
    rw [Box.ensure, if_pos h]
    exact (gives_tryRun hcheck).takes_bind (takes_pure _)
  · obtain ⟨⟨failed,hcheck⟩,happend⟩ := iptables_absent hrule h
    rw [Box.ensure, if_neg h]
    exact (gives_refused hcheck).takes_bind ((gives_tryRun happend).takes_bind (takes_pure _))

theorem fails_ensureRule (hrule : rule.parse = none) :
    Fails Calm World.box (ensureRule table chain rule true) b := by
  have hrefused : ∀ op, ∃ failed, b.step (.iptables op table chain rule) = .error failed := by
    intro op
    simp [Box.step, Box.iptablesOp, hrule, Box.refuse]
  obtain ⟨failed,hcheck⟩ := hrefused .check
  obtain ⟨failed',happend⟩ := hrefused .append
  refine gives_haveIptables.fails_bind ((gives_refused hcheck).fails_bind ?_)
  refine (gives_refused happend).fails_bind fun w hw hbox => ?_
  exact ⟨_,w,rfl,hw,hbox⟩

theorem takes_countRule {changed : Nat} (hrule : rule.parse = some rule') :
    Takes Calm World.box (countRule changed (table,chain,rule)) b
      (b.ensure ⟨table,chain,rule'⟩) := by
  refine (takes_ensureRule hrule).bind fun added => ?_
  cases added <;> exact takes_pure _

theorem eraseCopies_of_not_mem {e : IptEntry} {es : List IptEntry} (h : e ∉ es) (n : Nat) :
    eraseCopies e n es = es := by
  induction n with
  | zero => rw [eraseCopies]
  | succ n ih => rw [eraseCopies, List.erase_of_not_mem h, ih]

theorem gives_removeCopies (hrule : rule.parse = some rule') (left removed : Nat) (b : Box) :
    Gives Calm World.box (removeCopies table chain rule left removed) b
      (removed + min left (b.iptables.count ⟨table,chain,rule'⟩))
      { b with iptables := eraseCopies ⟨table,chain,rule'⟩ left b.iptables } := by
  induction left generalizing removed b with
  | zero =>
    rw [eraseCopies, Nat.zero_min]
    exact gives_pure _
  | succ left ih =>
    by_cases h : ⟨table,chain,rule'⟩ ∈ b.iptables
    · obtain ⟨hcheck,hdelete⟩ := iptables_present hrule h
      have hpos : 0 < b.iptables.count ⟨table,chain,rule'⟩ := List.count_pos_iff.mpr h
      have hcount : removed + min (left + 1) (b.iptables.count ⟨table,chain,rule'⟩) =
          removed + 1 + min left ((b.iptables.erase ⟨table,chain,rule'⟩).count ⟨table,chain,rule'⟩) := by
        rw [List.count_erase_self]
        omega
      rw [eraseCopies, hcount]
      exact (gives_tryRun hcheck).bind ((gives_tryRun hdelete).bind (ih _ _))
    · obtain ⟨⟨failed,hcheck⟩,-⟩ := iptables_absent hrule h
      rw [eraseCopies_of_not_mem h, List.count_eq_zero_of_not_mem h, Nat.min_zero]
      exact (gives_refused hcheck).bind (gives_pure _)

theorem gives_removeRule (hrule : rule.parse = some rule') : Gives Calm World.box (removeRule table chain rule) b
    (min 33 (b.iptables.count ⟨table,chain,rule'⟩)) (b.withdraw ⟨table,chain,rule'⟩) := by
  refine gives_haveIptables.bind ?_
  have hcopies : Gives Calm World.box (removeCopies table chain rule 33 0) b
      (0 + min 33 (b.iptables.count ⟨table,chain,rule'⟩)) (b.withdraw ⟨table,chain,rule'⟩) :=
    gives_removeCopies hrule 33 0 b
  rwa [Nat.zero_add] at hcopies

end Rules

section Netmaps

variable {b : Box} {iface shadow physical : String} {s p : Net}

theorem takes_claimLocally (hs : Net.parse shadow = some s) :
    Takes Calm World.box (claimLocally shadow) b (b.claim s) := by
  have hshow : b.step (.localShow shadow) = .ok b := by simp [Box.step, Box.onNet, hs]
  have hto : b.routesTo LOCAL shadow = b.routes.filter fun r => r.table = LOCAL ∧ r.net = s := by
    simp [Box.routesTo, hs, eq_comm]
  refine (gives_query hshow).takes_bind ?_
  rw [hto]
  cases hfound : b.routes.filter fun r => r.table = LOCAL ∧ r.net = s with
  | nil =>
    have hnone : (b.routes.any fun r => r.table = LOCAL ∧ r.net = s) = false := by
      simpa using hfound
    have hadd : b.step (.localAdd shadow) = .ok (b.claim s) := by
      simp only [Box.step, Box.onNet, hs, Box.addRoute, hnone, Box.claim, Bool.false_eq_true, if_false]
    exact (gives_tryRun hadd).takes_bind (takes_pure _)
  | cons r rs =>
    have hsome : (b.routes.any fun r => r.table = LOCAL ∧ r.net = s) = true := by
      have hmem : r ∈ b.routes.filter fun r => r.table = LOCAL ∧ r.net = s := by
        rw [hfound]
        exact List.mem_cons_self
      obtain ⟨hr,hlocal⟩ := List.mem_filter.mp hmem
      exact List.any_eq_true.mpr ⟨r,hr,hlocal⟩
    rw [Box.claim, if_pos hsome]
    exact takes_pure _

theorem gives_localDel (hs : Net.parse shadow = some s) :
    ∃ res, Gives Calm World.box (tryRun (.localDel shadow)) b res (b.unclaim s) := by
  have hdel : b.step (.localDel shadow) = b.delRoute ⟨LOCAL,s,"lo"⟩ := by
    simp [Box.step, Box.onNet, hs]
  by_cases h : ⟨LOCAL,s,"lo"⟩ ∈ b.routes
  · exact ⟨_,gives_tryRun (by simp [hdel, Box.delRoute, h, Box.unclaim])⟩
  · have hgone : b.unclaim s = b := by rw [Box.unclaim, List.erase_of_not_mem h]
    have hrefused : b.step (.localDel shadow) = .error ⟨"RTNETLINK answers: No such process",false⟩ := by
      simp [hdel, Box.delRoute, h, Box.noSuchProcess, Box.refuse]
    rw [hgone]
    exact ⟨_,gives_refused hrefused⟩

def inbound (iface : String) (s p : Net) : IptEntry :=
  ⟨.nat,"PREROUTING",preroutingNetmap iface s p⟩

def outbound (iface : String) (s p : Net) : IptEntry :=
  ⟨.nat,"POSTROUTING",postroutingNetmap iface s p⟩

def masquerade (iface : String) (p : Net) : IptEntry :=
  ⟨.nat,"POSTROUTING",lanMasquerade iface p⟩

theorem preroutingNetmap_parse (hs : Net.parse shadow = some s) (hp : Net.parse physical = some p) :
    (preroutingNetmap iface shadow physical).parse = some (preroutingNetmap iface s p) := by
  simp [IptRule.parse, preroutingNetmap, optional, Target.parse, hs, hp]

theorem postroutingNetmap_parse (hs : Net.parse shadow = some s) (hp : Net.parse physical = some p) :
    (postroutingNetmap iface shadow physical).parse = some (postroutingNetmap iface s p) := by
  simp [IptRule.parse, postroutingNetmap, optional, Target.parse, hs, hp]

theorem lanMasquerade_parse (hp : Net.parse physical = some p) :
    (lanMasquerade iface physical).parse = some (lanMasquerade iface p) := by
  simp [IptRule.parse, lanMasquerade, optional, Target.parse, hp]

def Box.netmap (b : Box) (iface : String) (s p : Net) : Box :=
  (((b.ensure (inbound iface s p)).ensure (outbound iface s p)).claim s).ensure (masquerade iface p)

def Box.unmap (b : Box) (iface : String) (s p : Net) : Box :=
  (((b.withdraw (inbound iface s p)).withdraw (outbound iface s p)).withdraw
    (masquerade iface p)).unclaim s

theorem ne_empty_of_parse {s : String} {n : Net} (h : Net.parse s = some n) : s ≠ "" := by
  rintro rfl
  simp [Net.parse, Text.addr, Text.octet, Text.decimal] at h

theorem takes_applyNetmap (hiface : iface ≠ "") (hs : Net.parse shadow = some s)
    (hp : Net.parse physical = some p) :
    Takes Calm World.box (applyNetmap iface shadow physical) b (b.netmap iface s p) := by
  refine gives_haveIptables.takes_bind ?_
  have hnamed : ¬ (iface = "" ∨ shadow = "" ∨ physical = "") := by
    rintro (h | h | h)
    · exact hiface h
    · exact ne_empty_of_parse hs h
    · exact ne_empty_of_parse hp h
  simp only [Bool.not_true, Bool.false_eq_true, if_false, if_neg hnamed]
  refine (takes_countRule (preroutingNetmap_parse hs hp)).bind fun changed => ?_
  refine (takes_countRule (postroutingNetmap_parse hs hp)).bind fun changed => ?_
  refine (takes_claimLocally hs).bind fun claimed => ?_
  exact (takes_countRule (lanMasquerade_parse hp)).bind fun changed => takes_pure _

theorem fails_applyNetmap (hiface : iface ≠ "") (hshadow : shadow ≠ "") (hphysical : physical ≠ "")
    (h : (preroutingNetmap iface shadow physical).parse = none) :
    Fails Calm World.box (applyNetmap iface shadow physical) b := by
  refine gives_haveIptables.fails_bind ?_
  simp only [Bool.not_true, Bool.false_eq_true, if_false, hiface, hshadow, hphysical, or_self]
  exact ((fails_ensureRule h).bind _).bind _

def Box.copies (b : Box) (e : IptEntry) : Nat := b.iptables.count e

def Box.unmapped (b : Box) (iface : String) (s p : Net) : Nat :=
  let b₁ := b.withdraw (inbound iface s p)
  let b₂ := b₁.withdraw (outbound iface s p)
  min 33 (b.copies (inbound iface s p)) + min 33 (b₁.copies (outbound iface s p)) +
    min 33 (b₂.copies (masquerade iface p))

theorem gives_removeNetmap (hiface : iface ≠ "") (hs : Net.parse shadow = some s)
    (hp : Net.parse physical = some p) :
    Gives Calm World.box (removeNetmap iface shadow physical) b (b.unmapped iface s p) (b.unmap iface s p) := by
  have hnamed : ¬ (iface = "" ∨ shadow = "" ∨ physical = "") := by
    rintro (h | h | h)
    · exact hiface h
    · exact ne_empty_of_parse hs h
    · exact ne_empty_of_parse hp h
  unfold removeNetmap
  rw [if_neg hnamed]
  refine (gives_removeRule (preroutingNetmap_parse hs hp)).bind ?_
  refine (gives_removeRule (postroutingNetmap_parse hs hp)).bind ?_
  refine (gives_removeRule (lanMasquerade_parse hp)).bind ?_
  obtain ⟨res,hdel⟩ := gives_localDel hs
  exact hdel.bind (gives_pure _)

end Netmaps

end JumpHost.Mesh
