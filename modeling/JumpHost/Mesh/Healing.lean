import JumpHost.Mesh.Removal

namespace JumpHost.Mesh

open Effect

section Able

variable {w w' : World} {table : Table} {chain : String} {rule : IptRule String} {rule' : IptRule Net}

def Cmd.mayFail : Cmd → Prop
  | .version _ | .sMembers | .sAdd _ | .sRem _ => False
  | _ => True

structure Able (w : World) : Prop where
  faults : ∀ n c, w.faults n c ≠ none → c.mayFail
  iptables : ∀ missing, w.toolCache = some missing → "iptables" ∉ missing

theorem Able.answers (hw : Able w) {c : Cmd} (hc : ¬ c.mayFail) {b : Box} (h : w.box.step c = .ok b) :
    tryRun c w = .ok (.ok ()) { w with box := b, faults := fun n => w.faults (n + 1) } :=
  tryRun_ok (by_contra fun hfault => hc (hw.faults 0 c hfault)) h

structure Tooled (w : World) : Prop where
  able : Able w
  cached : w.toolCache ≠ none

theorem Able.issue (hw : Able w) (c : Cmd) : Able (w.issue c).2 := by
  refine ⟨fun n c' => ?_,?_⟩
  · rw [faults_issue]
    exact hw.faults (n + 1) c'
  · rw [toolCache_issue]
    exact hw.iptables

theorem missingTools_able (hw : Able w) :
    ∃ missing w', missingTools w = .ok missing w' ∧ "iptables" ∉ missing ∧ Tooled w' := by
  cases hcache : w.toolCache with
  | some missing =>
    exact ⟨missing,w,missingTools_cached hcache,hw.iptables missing hcache,hw,by simp [hcache]⟩
  | none =>
    have hrun := missingTools_found hcache fun n tool => by_contra fun hfault => hw.faults n (.version tool) hfault
    refine ⟨[],_,hrun,by simp,⟨fun n => hw.faults (n + 2),fun missing hmissing => ?_⟩,by simp⟩
    obtain rfl : [] = missing := Option.some.inj hmissing
    simp

theorem missingTools_tooled (hw : Tooled w) : ∃ missing, missingTools w = .ok missing w ∧ "iptables" ∉ missing := by
  obtain ⟨missing,hcache⟩ := Option.ne_none_iff_exists'.mp hw.cached
  exact ⟨missing,missingTools_cached hcache,hw.able.iptables missing hcache⟩

theorem haveIptables_tooled (hw : Tooled w) : haveIptables w = .ok true w := by
  obtain ⟨missing,hrun,hmissing⟩ := missingTools_tooled hw
  unfold haveIptables
  rw [bind_of_ok hrun, pure_apply]
  simp [hmissing]

theorem stable_able (C : Cmd → Prop) : Stable Able C where
  issue w c _ hw := hw.issue c
  remember w kernelSupport probes hw := ⟨hw.faults,hw.iptables⟩
  ends w d _ hw := ⟨hw.faults,hw.iptables⟩
  tools w hw := by
    obtain ⟨missing,w',hrun,-,hw'⟩ := missingTools_able hw
    rw [hrun]
    exact hw'.able

theorem Tooled.issue (hw : Tooled w) (c : Cmd) : Tooled (w.issue c).2 := by
  refine ⟨hw.able.issue c,?_⟩
  rw [toolCache_issue]
  exact hw.cached

theorem stable_tooled (C : Cmd → Prop) : Stable Tooled C where
  issue w c _ hw := hw.issue c
  remember w kernelSupport probes hw := ⟨⟨hw.able.faults,hw.able.iptables⟩,hw.cached⟩
  ends w d _ hw := ⟨⟨hw.able.faults,hw.able.iptables⟩,hw.cached⟩
  tools w hw := by
    obtain ⟨missing,hrun,-⟩ := missingTools_tooled hw
    rw [hrun]
    exact hw

end Able

section Loops

variable {w w' : World} {chain : String} {rule : IptRule String} {rule' : IptRule Net}

def Box.stands (b : Box) (chain : String) (rule : IptRule String) : Nat :=
  rule.parse.elim 0 fun rule => b.copies ⟨.nat,chain,rule⟩

theorem stands_eq (hrule : rule.parse = some rule') (b : Box) :
    b.stands chain rule = b.iptables.count ⟨.nat,chain,rule'⟩ := by
  rw [Box.stands, hrule]
  rfl

def World.Found (w : World) (chain : String) (rule : IptRule String) : Prop :=
  (w.faults 0 (.iptables .check .nat chain rule)).isNone ∧ 0 < w.box.stands chain rule

def World.Refused (w : World) (chain : String) (rule : IptRule String) : Prop :=
  ¬ w.Found chain rule ∧ (w.faults 1 (.iptables .append .nat chain rule)).isSome

def World.Room (w : World) (chain : String) (rule : IptRule String) : Prop :=
  (w.faults 0 (.iptables .check .nat chain rule)).isNone ∨ (w.faults 1 (.iptables .append .nat chain rule)).isSome ∨
    w.box.stands chain rule < 33

def World.Cleared (w : World) (chain : String) (rule : IptRule String) : Prop :=
  ∀ n < w.box.stands chain rule, (w.faults (2 * n) (.iptables .check .nat chain rule)).isNone ∧
    (w.faults (2 * n + 1) (.iptables .delete .nat chain rule)).isNone

instance : Decidable (w.Found chain rule) := inferInstanceAs (Decidable (_ ∧ _))

instance : Decidable (w.Refused chain rule) := inferInstanceAs (Decidable (_ ∧ _))

instance : Decidable (w.Room chain rule) := inferInstanceAs (Decidable (_ ∨ _ ∨ _))

instance : Decidable (w.Cleared chain rule) := inferInstanceAs (Decidable (∀ n < _, _))

theorem step_delete (hrule : rule.parse = some rule') {b b' : Box}
    (h : b.step (.iptables .delete .nat chain rule) = .ok b') :
    b' = { b with iptables := b.iptables.erase ⟨.nat,chain,rule'⟩ } ∧ 0 < b.stands chain rule := by
  rw [stands_eq hrule, List.count_pos_iff]
  by_cases hmem : ⟨.nat,chain,rule'⟩ ∈ b.iptables
  · rw [(iptables_present hrule hmem).2] at h
    exact ⟨(Except.ok.inj h).symm,hmem⟩
  · simp [Box.step, Box.iptablesOp, hrule, hmem, Box.refuse] at h

theorem check_fails (hrule : rule.parse = some rule') (h : ¬ w.Found chain rule) :
    ∃ failed w', tryRun (.iptables .check .nat chain rule) w = .ok (.error failed) w' ∧ w'.box = w.box ∧
      w'.faults = fun n => w.faults (n + 1) := by
  obtain ⟨res,w',hrun,hfaults,⟨hbox,failed,rfl⟩ | ⟨-,hnone,hstep⟩⟩ := tryRun_cases (.iptables .check .nat chain rule) w
  · exact ⟨failed,w',hrun,hbox,hfaults⟩
  · refine absurd ⟨by simp [hnone],?_⟩ h
    rw [stands_eq hrule, List.count_pos_iff]
    by_contra hmem
    obtain ⟨⟨failed,hcheck⟩,-⟩ := iptables_absent hrule hmem
    rw [hcheck] at hstep
    cases hstep

theorem check_finds (hrule : rule.parse = some rule') (h : w.Found chain rule) :
    ∃ w', tryRun (.iptables .check .nat chain rule) w = .ok (.ok ()) w' ∧ w'.box = w.box ∧
      w'.faults = fun n => w.faults (n + 1) := by
  obtain ⟨hnone,hpos⟩ := h
  rw [stands_eq hrule, List.count_pos_iff] at hpos
  exact ⟨_,tryRun_ok (Option.isNone_iff_eq_none.mp hnone) (iptables_present hrule hpos).1,rfl,rfl⟩

theorem ensureRule_tooled (chain : String) (hw : Tooled w) (hrule : rule.parse = some rule') :
    (w.Refused chain rule ∧ ∃ err w', ensureRule .nat chain rule true w = .error err w' ∧ w'.box = w.box) ∨
      (¬ w.Refused chain rule ∧ ∃ added w', ensureRule .nat chain rule true w = .ok added w' ∧ Tooled w' ∧
        (w'.box = w.box ∨ (w'.box = { w.box with iptables := w.box.iptables ++ [⟨.nat,chain,rule'⟩] } ∧
          ¬ w.Found chain rule ∧ (w.faults 1 (.iptables .append .nat chain rule)).isNone))) := by
  have htooled : ∀ added w', ensureRule .nat chain rule true w = .ok added w' → Tooled w' := fun _ _ hrun =>
    (keeps_ensureRule (stable_tooled fun _ => True) (fun _ _ => trivial) true).of_ok hrun hw
  have hstart : ensureRule .nat chain rule true w = _ := bind_of_ok (haveIptables_tooled hw)
  by_cases hfound : w.Found chain rule
  · obtain ⟨u,hcheck,hbox,-⟩ := check_finds hrule hfound
    have hrun : ensureRule .nat chain rule true w = .ok false u := hstart.trans (bind_of_ok hcheck)
    exact .inr ⟨fun hrefused => hrefused.1 hfound,false,u,hrun,htooled _ _ hrun,.inl hbox⟩
  · obtain ⟨failed,u,hcheck,hbox,hfaults⟩ := check_fails hrule hfound
    have hnext : u.faults 0 (.iptables .append .nat chain rule) = w.faults 1 (.iptables .append .nat chain rule) := by
      rw [hfaults]
    have happend : u.box.step (.iptables .append .nat chain rule) =
        .ok { w.box with iptables := w.box.iptables ++ [⟨.nat,chain,rule'⟩] } := by
      simp [hbox, Box.step, Box.iptablesOp, hrule]
    cases hfault : w.faults 1 (.iptables .append .nat chain rule) with
    | none =>
      have hadded := tryRun_ok (hnext.trans hfault) happend
      have hgranted : ¬ w.Refused chain rule := fun hrefused => by simp [World.Refused, hfault] at hrefused
      have hrun : ensureRule .nat chain rule true w = .ok true _ :=
        hstart.trans ((bind_of_ok hcheck).trans (bind_of_ok hadded))
      exact .inr ⟨hgranted,true,_,hrun,htooled _ _ hrun,.inr ⟨rfl,hfound,by simp⟩⟩
    | some failed' =>
      obtain ⟨res,v,hrun,-,⟨hbox',failed'',rfl⟩ | ⟨-,hnone,-⟩⟩ :=
        tryRun_cases (.iptables .append .nat chain rule) u
      · have hthrown := hstart.trans ((bind_of_ok hcheck).trans (bind_of_ok hrun))
        exact .inl ⟨⟨hfound,by simp [hfault]⟩,_,v,hthrown,hbox'.trans hbox⟩
      · rw [hnext, hfault] at hnone
        cases hnone

theorem removeCopies_tooled (chain : String) (hrule : rule.parse = some rule') (left removed : Nat) (w : World) :
    ∃ taken w', removeCopies .nat chain rule left removed w = .ok taken w' ∧
      (∃ es, w'.box = { w.box with iptables := es } ∧ es.Sublist w.box.iptables) ∧
      (w.Cleared chain rule → w.box.stands chain rule ≤ left → w'.box.stands chain rule = 0) := by
  induction left generalizing removed w with
  | zero => exact ⟨removed,w,rfl,⟨_,rfl,List.Sublist.refl _⟩,fun _ hnone => Nat.le_zero.mp hnone⟩
  | succ left ih =>
    by_cases hfound : w.Found chain rule
    · obtain ⟨u,hcheck,hbox,hfaults⟩ := check_finds hrule hfound
      obtain ⟨res,v,hrun,hfaults',⟨hbox',failed,rfl⟩ | ⟨rfl,-,hstep⟩⟩ :=
        tryRun_cases (.iptables .delete .nat chain rule) u
      · refine ⟨removed,v,(bind_of_ok hcheck).trans (bind_of_ok hrun),⟨_,hbox'.trans hbox,List.Sublist.refl _⟩,
          fun hcleared _ => ?_⟩
        have hnone : u.faults 0 (.iptables .delete .nat chain rule) = none := by
          rw [hfaults]
          exact Option.isNone_iff_eq_none.mp (hcleared 0 hfound.2).2
        have hmem := hfound.2
        rw [stands_eq hrule, List.count_pos_iff, ← hbox] at hmem
        rw [tryRun_ok hnone (iptables_present hrule hmem).2] at hrun
        cases hrun
      · obtain ⟨hbox',hpos⟩ := step_delete hrule hstep
        obtain ⟨taken,v',hrest,⟨es,hes,hsub⟩,hall⟩ := ih (removed + 1) v
        have hstands : v.box.stands chain rule = w.box.stands chain rule - 1 := by
          rw [hbox', hbox, stands_eq hrule, stands_eq hrule, List.count_erase_self]
        refine ⟨taken,v',(bind_of_ok hcheck).trans ((bind_of_ok hrun).trans hrest),⟨es,?_,?_⟩,
          fun hcleared hfew => hall (fun n hn => ?_) (by omega)⟩
        · rw [hes, hbox', hbox]
        · refine hsub.trans ?_
          rw [hbox', hbox]
          exact List.erase_sublist
        · have hlater := hcleared (n + 1) (by omega)
          rw [hfaults', hfaults]
          exact hlater
    · obtain ⟨failed,u,hcheck,hbox,-⟩ := check_fails hrule hfound
      refine ⟨removed,u,bind_of_ok hcheck,⟨_,hbox,List.Sublist.refl _⟩,fun hcleared _ => ?_⟩
      rw [hbox]
      by_contra hpos
      have hpos : 0 < w.box.stands chain rule := Nat.pos_of_ne_zero hpos
      exact hfound ⟨(hcleared 0 hpos).1,hpos⟩

theorem removeRule_tooled (chain : String) (hw : Tooled w) (hrule : rule.parse = some rule') :
    ∃ removed w', removeRule .nat chain rule w = .ok removed w' ∧ Tooled w' ∧ w'.box.applied = w.box.applied ∧
      w'.box.iptables.Sublist w.box.iptables ∧
      (w.Cleared chain rule → w.box.stands chain rule ≤ 33 → w'.box.stands chain rule = 0) := by
  obtain ⟨removed,w',hloop,⟨es,hbox,hsub⟩,hall⟩ := removeCopies_tooled chain hrule 33 0 w
  have hrun : removeRule .nat chain rule w = .ok removed w' := (bind_of_ok (haveIptables_tooled hw)).trans hloop
  have hw' := (keeps_removeRule (stable_tooled fun _ => True) trivial).of_ok hrun hw
  refine ⟨removed,w',hrun,hw',?_,?_,hall⟩
  · rw [hbox]
  · rw [hbox]
    exact hsub

end Loops

section Turns

variable {conf : MeshConf} {w w' : World} {b b' : Box} {iface : String} {m : Netmap} {s p : Net}
  {chain : String} {rule : IptRule String} {rule' : IptRule Net}

def mapTurn (conf : MeshConf) (w : World) (m : Netmap) : World := final (applyMap conf [] m w)

def staleTurn (conf : MeshConf) (wanted : List String) (w : World) (member : String) : World :=
  final (removeStale conf wanted [] member w)

theorem noting_turn {α : Type} (failed : List Failure) (label : String) (step : Shell α) (w : World) :
    ∃ failed', noting failed label step w = .ok failed' (final (noting [] label step w)) := by
  obtain ⟨failed₀,hrun₀⟩ := noting_ok [] label step w
  rw [hrun₀]
  exact noting_ok failed label step w

theorem applyMap_mapTurn (w : World) (m : Netmap) (failed : List Failure) :
    ∃ failed', applyMap conf failed m w = .ok failed' (mapTurn conf w m) := noting_turn failed _ _ w

theorem removeStale_staleTurn (conf : MeshConf) (wanted : List String) (w : World) (member : String)
    (failed : List Failure) :
    ∃ failed', removeStale conf wanted failed member w = .ok failed' (staleTurn conf wanted w member) := by
  unfold staleTurn removeStale
  split
  · exact ⟨failed,rfl⟩
  · exact noting_turn failed _ _ w

def MapsWhole (conf : MeshConf) (w : World) (m : Netmap) : Prop := ∀ pair ∈ m.blocks,
  let inRule := preroutingNetmap conf.IFACE m.shadow m.physical
  let outRule := postroutingNetmap conf.IFACE m.shadow m.physical
  let w₁ := final (ensureRule .nat "PREROUTING" inRule true w)
  let w₂ := final (ensureRule .nat "POSTROUTING" outRule true w₁)
  let w₃ := final (claimLocally m.shadow w₂)
  w.Room "PREROUTING" inRule ∧ (w.Refused "PREROUTING" inRule ∨ (w₁.Room "POSTROUTING" outRule ∧
    (OnRecord w.box pair ∨ (¬ w₁.Refused "POSTROUTING" outRule ∧
      ¬ w₃.Refused "POSTROUTING" (lanMasquerade conf.IFACE m.physical)))))

def RemovesWhole (conf : MeshConf) (wanted : List String) (w : World) (member : String) : Prop :=
  member ∉ wanted → ∀ pair ∈ blocksOf member,
    let physical := (splitRecorded member).2.getD ""
    let inRule := preroutingNetmap conf.IFACE (splitRecorded member).1 physical
    let outRule := postroutingNetmap conf.IFACE (splitRecorded member).1 physical
    (∃ other ∈ w.box.applied, other ≠ member ∧ blocksOf other = some pair) ∨
      (w.Cleared "PREROUTING" inRule ∧ (final (removeRule .nat "PREROUTING" inRule w)).Cleared "POSTROUTING" outRule)

instance : Decidable (MapsWhole conf w m) :=
  inferInstanceAs (Decidable (∀ pair ∈ m.blocks, _ ∧ (_ ∨ (_ ∧ (_ ∨ (_ ∧ _))))))

instance (wanted : List String) (member : String) : Decidable (RemovesWhole conf wanted w member) :=
  inferInstanceAs (Decidable (member ∉ wanted → ∀ pair ∈ blocksOf member, (∃ other ∈ w.box.applied, _) ∨ (_ ∧ _)))

theorem Partly.ensured (h : Partly iface s p b w.box) (hrule : rule.parse = some rule')
    (hown : (Maps iface s p ⟨.nat,chain,rule'⟩ ∧ w.Room chain rule) ∨ ⟨.nat,chain,rule'⟩ = masquerade iface p)
    (hbox : w'.box = w.box ∨ (w'.box = { w.box with iptables := w.box.iptables ++ [⟨.nat,chain,rule'⟩] } ∧
      ¬ w.Found chain rule ∧ (w.faults 1 (.iptables .append .nat chain rule)).isNone)) :
    Partly iface s p b w'.box := by
  rcases hbox with hbox | ⟨hbox,hfound,hgranted⟩
  · rwa [hbox]
  rw [hbox]
  refine ⟨h.applied,fun e he => ?_,fun s' p' e hmaps => ?_⟩
  · rcases List.mem_append.mp he with he | he
    · exact h.own e he
    · obtain rfl := List.mem_singleton.mp he
      exact .inr (hown.imp_left And.left)
  · by_cases heq : e = ⟨.nat,chain,rule'⟩
    · subst heq
      have hfew : w.box.iptables.count ⟨.nat,chain,rule'⟩ < 33 := by
        rcases hown with ⟨-,hchecked | hrefused | hfew⟩ | hmasq
        · -- a check that comes through and finds nothing: there is no copy
          have hnone : ¬ 0 < w.box.stands chain rule := fun hpos => hfound ⟨hchecked,hpos⟩
          rw [stands_eq hrule] at hnone
          omega
        · rw [Option.isNone_iff_eq_none.mp hgranted] at hrefused
          cases hrefused
        · rwa [stands_eq hrule] at hfew
        · exact absurd hmasq (hmaps.ne_masquerade p)
      simp only [List.count_append, List.count_singleton_self]
      omega
    · have hcount := h.few s' p' e hmaps
      simpa [List.count_append, List.count_singleton, Ne.symm heq] using hcount

theorem countRule_ok {added : Bool} (changed : Nat) (h : ensureRule .nat chain rule true w = .ok added w') :
    ∃ changed', countRule changed (.nat,chain,rule) w = .ok changed' w' := by
  unfold countRule
  rw [bind_of_ok h]
  cases added
  · exact ⟨changed,rfl⟩
  · exact ⟨changed + 1,rfl⟩

theorem countRule_error {err : String} (changed : Nat) (h : ensureRule .nat chain rule true w = .error err w') :
    countRule changed (.nat,chain,rule) w = .error err w' := bind_of_error h

theorem claimLocally_tooled (shadow : String) (hw : Tooled w) : ∃ claimed w', claimLocally shadow w = .ok claimed w' ∧
    Tooled w' ∧ w'.box.iptables = w.box.iptables ∧ w'.box.applied = w.box.applied := by
  have hreturns : Returns (claimLocally shadow) := by
    refine returns_bind (returns_query _ _) fun shown => ?_
    split
    · exact returns_pure _
    · exact returns_bind (returns_tryRun _) fun _ => returns_pure _
  have hstable : Stable (fun v => v.box.iptables = w.box.iptables ∧ v.box.applied = w.box.applied) Cmd.leavesNat := by
    refine stable_box (I := fun b => b.iptables = w.box.iptables ∧ b.applied = w.box.applied) fun b c b' hc h hb => ?_
    have hsame := sameBut_step h
    exact ⟨(hsame.iptables hc.1).trans hb.1,(hsame.applied hc.2).trans hb.2⟩
  obtain ⟨claimed,w',hrun⟩ := hreturns w
  have hkept := (keeps_claimLocally hstable (by simp [Cmd.leavesNat, Cmd.writes])).of_ok hrun ⟨rfl,rfl⟩
  have htooled := (keeps_claimLocally (stable_tooled fun _ => True) trivial).of_ok hrun hw
  exact ⟨claimed,w',hrun,htooled,hkept⟩

theorem mapTurn_error {err : String} (h : applyNetmap conf.IFACE m.shadow m.physical w = .error err w') :
    mapTurn conf w m = w' := by
  unfold mapTurn applyMap
  obtain ⟨failed,hrun⟩ := noting_ok [] ("netmap " ++ m.shadow) (applyNetmap conf.IFACE m.shadow m.physical >>=
    fun _ => recordAppliedNetmap m.shadow m.physical) w
  rw [bind_apply, h] at hrun
  rw [hrun]
  rfl

theorem mapTurn_ok {changed : Changed} (hw' : Able w')
    (h : applyNetmap conf.IFACE m.shadow m.physical w = .ok changed w') :
    (mapTurn conf w m).box = w'.box.record m.text := by
  have hrecord : w'.box.step (.sAdd m.text) = .ok (w'.box.record m.text) := by
    simp only [Box.step, Box.record]
  have hadd : tryRun (.sAdd (recorded m.shadow m.physical)) w' = _ := hw'.answers id hrecord
  unfold mapTurn applyMap
  obtain ⟨failed,hrun⟩ := noting_ok [] ("netmap " ++ m.shadow) (applyNetmap conf.IFACE m.shadow m.physical >>=
    fun _ => recordAppliedNetmap m.shadow m.physical) w
  rw [bind_of_ok h, recordAppliedNetmap, bind_of_ok hadd] at hrun
  unfold recordAppliedNetmap
  rw [hrun]
  rfl

theorem applyNetmap_tooled (conf : MeshConf) {shadow physical : String} (hw : Tooled w) (hshadow : shadow ≠ "")
    (hphysical : physical ≠ "") : applyNetmap conf.IFACE shadow physical w = (do
      let changed ← countRule 0 (.nat,"PREROUTING",preroutingNetmap conf.IFACE shadow physical)
      let changed ← countRule changed (.nat,"POSTROUTING",postroutingNetmap conf.IFACE shadow physical)
      let claimed ← claimLocally shadow
      let changed ← countRule (changed + claimed) (.nat,"POSTROUTING",lanMasquerade conf.IFACE physical)
      return ⟨changed,none⟩ : Shell Changed) w := by
  have hnamed : ¬ (conf.IFACE = "" ∨ shadow = "" ∨ physical = "") := by simp [conf.named, hshadow, hphysical]
  unfold applyNetmap
  rw [bind_of_ok (haveIptables_tooled hw)]
  simp only [Bool.not_true, Bool.false_eq_true, if_false, if_neg hnamed]

theorem ensureRule_unread (chain : String) (hw : Tooled w) (hrule : rule.parse = none) :
    ∃ err w', ensureRule .nat chain rule true w = .error err w' ∧ w'.box = w.box := by
  have hrefused : ∀ op w, ∃ failed w', tryRun (.iptables op .nat chain rule) w = .ok (.error failed) w' ∧
      w'.box = w.box := by
    intro op w
    obtain ⟨res,w',hrun,-,⟨hbox,failed,rfl⟩ | ⟨-,-,hstep⟩⟩ := tryRun_cases (.iptables op .nat chain rule) w
    · exact ⟨failed,w',hrun,hbox⟩
    · simp [Box.step, Box.iptablesOp, hrule, Box.refuse] at hstep
  obtain ⟨failed,u,hcheck,hbox⟩ := hrefused .check w
  obtain ⟨failed',v,happend,hbox'⟩ := hrefused .append u
  unfold ensureRule
  rw [bind_of_ok (haveIptables_tooled hw)]
  exact ⟨_,v,(bind_of_ok hcheck).trans (bind_of_ok happend),hbox'.trans hbox⟩

theorem preroutingNetmap_unread (iface : String) {shadow physical : String}
    (h : Net.parse shadow = none ∨ Net.parse physical = none) :
    (preroutingNetmap iface shadow physical).parse = none := by
  simp only [IptRule.parse, preroutingNetmap, optional, Target.parse]
  rcases h with h | h
  · simp [h]
  · cases Net.parse shadow <;> simp [h]

theorem mapTurn_unread (hm : m.Stated) (hw : Tooled w) (hblocks : m.blocks = none) :
    (mapTurn conf w m).box = w.box := by
  have hunread : Net.parse m.shadow = none ∨ Net.parse m.physical = none := by
    simp only [Netmap.blocks] at hblocks
    cases hs : Net.parse m.shadow <;> cases hp : Net.parse m.physical <;> simp_all
  obtain ⟨err,w₁,hfirst,hbox⟩ := ensureRule_unread "PREROUTING" hw (preroutingNetmap_unread conf.IFACE hunread)
  have hrun := applyNetmap_tooled conf hw hm.1 hm.2
  rw [bind_of_error (countRule_error 0 hfirst)] at hrun
  rw [mapTurn_error hrun, hbox]

theorem booked_mapTurn (hm : m.Stated) (hw : Tooled w) (hb : Booked conf.IFACE w.box) (hwhole : MapsWhole conf w m) :
    Booked conf.IFACE (mapTurn conf w m).box := by
  have hrun := applyNetmap_tooled conf hw hm.1 hm.2
  cases hpair : m.blocks with
  | none =>
    rw [mapTurn_unread hm hw hpair]
    exact hb
  | some pair =>
    obtain ⟨s,p⟩ := pair
    obtain ⟨hs,hp⟩ := Netmap.blocks_eq_some.mp hpair
    obtain ⟨hroom,hrest⟩ := hwhole _ hpair
    have hstart : Partly conf.IFACE s p w.box w.box := partly_refl hb rfl rfl
    rcases ensureRule_tooled "PREROUTING" hw (preroutingNetmap_parse hs hp) with
      ⟨-,err,w₁,hfirst,hbox₁⟩ | ⟨hgranted,added,w₁,hfirst,hw₁,hbox₁⟩
    · rw [bind_of_error (countRule_error 0 hfirst)] at hrun
      rw [mapTurn_error hrun, hbox₁]
      exact hb
    have hpartly₁ := hstart.ensured (preroutingNetmap_parse hs hp) (.inl ⟨.inl rfl,hroom⟩) hbox₁
    obtain ⟨hroom₁,hrest⟩ := hrest.resolve_left hgranted
    rw [hfirst, final_ok] at hroom₁ hrest
    obtain ⟨n₁,hcount₁⟩ := countRule_ok 0 hfirst
    rw [bind_of_ok hcount₁] at hrun
    rcases ensureRule_tooled "POSTROUTING" hw₁ (postroutingNetmap_parse hs hp) with
      ⟨hrefused,err,w₂,hsecond,hbox₂⟩ | ⟨hgranted₁,added₂,w₂,hsecond,hw₂,hbox₂⟩
    · rw [bind_of_error (countRule_error _ hsecond)] at hrun
      rw [mapTurn_error hrun, hbox₂]
      exact hpartly₁.known hb (hrest.resolve_right fun hclear => hclear.1 hrefused)
    have hpartly₂ := hpartly₁.ensured (postroutingNetmap_parse hs hp) (.inl ⟨.inr rfl,hroom₁⟩) hbox₂
    rw [hsecond, final_ok] at hrest
    obtain ⟨n₂,hcount₂⟩ := countRule_ok n₁ hsecond
    obtain ⟨claimed,w₃,hclaim,hw₃,hiptables,happlied⟩ := claimLocally_tooled m.shadow hw₂
    rw [bind_of_ok hcount₂, bind_of_ok hclaim] at hrun
    rw [hclaim, final_ok] at hrest
    have hpartly₃ := hpartly₂.congr hiptables happlied
    rcases ensureRule_tooled "POSTROUTING" hw₃ (lanMasquerade_parse hp) with
      ⟨hrefused,err,w₄,hthird,hbox₄⟩ | ⟨-,added₃,w₄,hthird,hw₄,hbox₄⟩
    · rw [bind_of_error (countRule_error _ hthird)] at hrun
      rw [mapTurn_error hrun, hbox₄]
      exact hpartly₃.known hb (hrest.resolve_right fun hclear => hclear.2 hrefused)
    have hpartly₄ := hpartly₃.ensured (lanMasquerade_parse hp) (.inr rfl) hbox₄
    obtain ⟨n₃,hcount₃⟩ := countRule_ok (n₂ + claimed) hthird
    rw [bind_of_ok hcount₃] at hrun
    rw [mapTurn_ok hw₄.able hrun]
    exact hpartly₄.recorded hb hs hp

theorem tooled_mapTurn (hw : Tooled w) : Tooled (mapTurn conf w m) :=
  keeps_applyMap (stable_tooled fun _ => True) (fun _ _ _ _ => trivial) trivial trivial [] w hw

variable {wanted : List String} {shadow physical member : String}

theorem staleTurn_ok {removed : Nat} (hw' : Able w') (hstale : recorded shadow physical ∉ wanted)
    (hs : Net.parse shadow = some s) (hp : Net.parse physical = some p)
    (h : removeNetmap conf.IFACE shadow physical w = .ok removed w') :
    (staleTurn conf wanted w (recorded shadow physical)).box = w'.box.forget (recorded shadow physical) := by
  have hforget : w'.box.step (.sRem (recorded shadow physical)) = .ok (w'.box.forget (recorded shadow physical)) := rfl
  have hcontains : ¬ wanted.contains (recorded shadow physical) = true := by simpa using hstale
  have hrem : (removeNetmap conf.IFACE shadow physical >>= fun _ => removeAppliedNetmap shadow physical) w =
      .ok () { w' with
        box := w'.box.forget (recorded shadow physical)
        faults := fun n => w'.faults (n + 1) } := by
    rw [bind_of_ok h, removeAppliedNetmap, bind_of_ok (hw'.answers id hforget)]
    rfl
  unfold staleTurn removeStale
  rw [if_neg hcontains, splitRecorded_recorded hs hp]
  obtain ⟨failed,hrun⟩ := noting_ok [] ("netmap " ++ shadow)
    (removeNetmap conf.IFACE shadow physical >>= fun _ => removeAppliedNetmap shadow physical) w
  rw [hrem] at hrun
  exact congrArg (fun res => (final res).box) hrun

theorem removeNetmap_tooled (conf : MeshConf) (hw : Tooled w) (hs : Net.parse shadow = some s)
    (hp : Net.parse physical = some p) : ∃ removed w', removeNetmap conf.IFACE shadow physical w = .ok removed w' ∧
      Tooled w' ∧ w'.box.applied = w.box.applied ∧ w'.box.iptables.Sublist w.box.iptables ∧
      (w.Cleared "PREROUTING" (preroutingNetmap conf.IFACE shadow physical) →
        w.box.iptables.count (inbound conf.IFACE s p) ≤ 33 → inbound conf.IFACE s p ∉ w'.box.iptables) ∧
      ((final (removeRule .nat "PREROUTING" (preroutingNetmap conf.IFACE shadow physical) w)).Cleared "POSTROUTING"
          (postroutingNetmap conf.IFACE shadow physical) →
        w.box.iptables.count (outbound conf.IFACE s p) ≤ 33 → outbound conf.IFACE s p ∉ w'.box.iptables) := by
  have hnamed : ¬ (conf.IFACE = "" ∨ shadow = "" ∨ physical = "") := by
    simp [conf.named, ne_empty_of_parse hs, ne_empty_of_parse hp]
  have hin : (preroutingNetmap conf.IFACE shadow physical).parse = some (preroutingNetmap conf.IFACE s p) :=
    preroutingNetmap_parse hs hp
  have hout : (postroutingNetmap conf.IFACE shadow physical).parse = some (postroutingNetmap conf.IFACE s p) :=
    postroutingNetmap_parse hs hp
  have hmasq : (lanMasquerade conf.IFACE physical).parse = some (lanMasquerade conf.IFACE p) := lanMasquerade_parse hp
  obtain ⟨n₁,w₁,hfirst,hw₁,happlied₁,hsub₁,hall₁⟩ := removeRule_tooled "PREROUTING" hw hin
  obtain ⟨n₂,w₂,hsecond,hw₂,happlied₂,hsub₂,hall₂⟩ := removeRule_tooled "POSTROUTING" hw₁ hout
  obtain ⟨n₃,w₃,hthird,hw₃,happlied₃,hsub₃,-⟩ := removeRule_tooled "POSTROUTING" hw₂ hmasq
  have hframe : (w₃.issue (.localDel shadow)).2.box.iptables = w₃.box.iptables ∧
      (w₃.issue (.localDel shadow)).2.box.applied = w₃.box.applied := by
    rcases box_issue w₃ (.localDel shadow) with hbox | hstep
    · rw [hbox]
      exact ⟨rfl,rfl⟩
    · have hsame := sameBut_step hstep
      exact ⟨hsame.iptables (by simp [Cmd.writes]),hsame.applied (by simp [Cmd.writes])⟩
  have hrun : removeNetmap conf.IFACE shadow physical w = .ok (n₁ + n₂ + n₃) (w₃.issue (.localDel shadow)).2 := by
    unfold removeNetmap
    rw [if_neg hnamed, bind_of_ok hfirst, bind_of_ok hsecond, bind_of_ok hthird]
    rfl
  have hsub : w₃.box.iptables.Sublist w₁.box.iptables := hsub₃.trans hsub₂
  refine ⟨_,_,hrun,hw₃.issue _,?_,?_,fun hcleared hfew hmem => ?_,fun hcleared hfew hmem => ?_⟩
  · rw [hframe.2, happlied₃, happlied₂, happlied₁]
  · rw [hframe.1]
    exact hsub.trans hsub₁
  · have hnone := hall₁ hcleared (by rwa [stands_eq hin])
    rw [stands_eq hin] at hnone
    rw [hframe.1] at hmem
    exact List.count_eq_zero.mp hnone (hsub.subset hmem)
  · rw [hfirst, final_ok] at hcleared
    have hfew₁ : w₁.box.iptables.count (outbound conf.IFACE s p) ≤ 33 := (hsub₁.count_le _).trans hfew
    have hnone := hall₂ hcleared (by rwa [stands_eq hout])
    rw [stands_eq hout] at hnone
    rw [hframe.1] at hmem
    exact List.count_eq_zero.mp hnone (hsub₃.subset hmem)

theorem booked_staleTurn (hmember : Written member) (hw : Tooled w) (hb : Booked conf.IFACE w.box)
    (hwhole : RemovesWhole conf wanted w member) : Booked conf.IFACE (staleTurn conf wanted w member).box := by
  by_cases hstale : member ∈ wanted
  · unfold staleTurn removeStale
    rw [if_pos (by simpa using hstale)]
    exact hb
  obtain ⟨shadow,physical,s,p,rfl,hs,hp⟩ := hmember
  obtain ⟨removed,w',hrun,hw',happlied,hsub,hin,hout⟩ := removeNetmap_tooled conf hw hs hp
  have hwhole := hwhole hstale _ (blocksOf_recorded hs hp)
  rw [splitRecorded_recorded hs hp, Option.getD_some] at hwhole
  rw [staleTurn_ok hw'.able hstale hs hp hrun]
  refine booked_forget hb happlied hsub (blocksOf_recorded hs hp) (hwhole.imp_right fun hcleared => ?_)
  rintro e (rfl | rfl)
  · exact hin hcleared.1 (hb.few s p _ (.inl rfl))
  · exact hout hcleared.2 (hb.few s p _ (.inr rfl))

theorem tooled_staleTurn (hw : Tooled w) : Tooled (staleTurn conf wanted w member) :=
  keeps_removeStale (stable_tooled fun _ => True) (fun _ _ _ _ => ⟨fun _ _ => trivial,trivial,trivial⟩) [] w hw

end Turns

section Attempts

variable {conf : MeshConf} {w w₁ w' : World} {plan : Plan} {privateKey : String}

theorem tooled_forward (hw : Able w) (wan : Option String) (failed : List Failure) :
    Tooled (final (forward conf wan failed w)) := by
  obtain ⟨missing,w₁,hrun,hmissing,hw₁⟩ := missingTools_able hw
  have hhave : haveIptables w = .ok true w₁ := by
    unfold haveIptables
    rw [bind_of_ok hrun, pure_apply]
    simp [hmissing]
  have hagain : applyForwarding wan [conf.IFACE] w₁ = _ := bind_of_ok (haveIptables_tooled hw₁)
  have hlooked : applyForwarding wan [conf.IFACE] w = applyForwarding wan [conf.IFACE] w₁ :=
    (bind_of_ok hhave).trans hagain.symm
  obtain ⟨failed',hnoted⟩ := noting_ok failed "forwarding/NAT" (applyForwarding wan [conf.IFACE]) w
  unfold forward
  rw [hnoted, final_ok, hlooked]
  exact keeps_applyForwarding (stable_tooled fun _ => True) (fun _ _ _ _ _ _ => trivial) w₁ hw₁

theorem able_probe (pid : String) : Keeps Able (probeKernel ("wgprobe" ++ pid)) :=
  keeps_probeKernel (stable_able fun _ => True) trivial trivial

theorem tooled_beforeNetmaps {done : List Failure × Option String} (hw : Able w)
    (h : beforeNetmaps conf plan privateKey w = .ok done w') : Tooled w' := by
  have hstable : Stable Able fun _ => True := stable_able _
  obtain ⟨_,w₁,h₁,h⟩ := bind_ok h
  have hw₁ := (keeps_bringUp hstable able_probe trivial trivial (fun _ _ => trivial) (fun _ _ => trivial)
    (fun _ _ => trivial) trivial).of_ok h₁ hw
  obtain ⟨failed,w₂,h₂,h⟩ := bind_ok h
  have hw₂ := (keeps_applyPeers (stable_able _)).of_ok h₂ hw₁
  obtain ⟨_,w₃,h₃,h⟩ := bind_ok h
  have hw₃ := (keeps_forM fun route _ =>
    keeps_bind (keeps_ensureRoute hstable trivial) fun _ => keeps_pure _).of_ok h₃ hw₂
  obtain ⟨wan,w₄,h₄,h⟩ := bind_ok h
  have hw₄ := (keeps_detectWanInterface hstable).of_ok h₄ hw₃
  obtain ⟨_,w₅,h₅,h⟩ := bind_ok h
  have hw₅ := (keeps_applySysctls hstable (fun _ _ => trivial) (fun _ _ => trivial) _).of_ok h₅ hw₄
  obtain ⟨failed',w₆,h₆,h⟩ := bind_ok h
  cases h
  have hw₆ : Tooled (final (forward conf wan failed w₅)) := tooled_forward hw₅ wan failed
  rwa [h₆] at hw₆

theorem listApplied_able (hw : Able w) : ∃ w', listAppliedNetmaps w = .ok w.box.applied w' ∧ w'.box = w.box := by
  have hread : w.box.step .sMembers = .ok w.box := rfl
  unfold listAppliedNetmaps query
  rw [bind_apply, bind_of_ok (hw.answers id hread)]
  exact ⟨_,rfl,rfl⟩

structure Attempt extends Pass where
  faults : Nat → Cmd → Option Failed

def attempted (conf : MeshConf) (w : World) (a : Attempt) : World :=
  final (applyPlan conf a.plan a.privateKey { w with faults := a.faults })

def Whole (conf : MeshConf) (w : World) (a : Attempt) : Prop :=
  match beforeNetmaps conf a.plan a.privateKey { w with faults := a.faults } with
  | .error _ _ => True
  | .ok _ v =>
      let wanted := a.plan.netmaps.map Netmap.text
      let u := a.plan.netmaps.foldl (mapTurn conf) v
      Run.Along (fun u m => some (mapTurn conf u m)) (MapsWhole conf) v a.plan.netmaps ∧
        Run.Along (fun u member => some (staleTurn conf wanted u member)) (RemovesWhole conf wanted)
          (final (listAppliedNetmaps u)) u.box.applied

instance (a : Attempt) : Decidable (Whole conf w a) :=
  match h : beforeNetmaps conf a.plan a.privateKey { w with faults := a.faults } with
  | .error _ _ => .isTrue (by simp [Whole, h])
  | .ok _ v =>
      let wanted := a.plan.netmaps.map Netmap.text
      let u := a.plan.netmaps.foldl (mapTurn conf) v
      decidable_of_iff (Run.Along (fun u m => some (mapTurn conf u m)) (MapsWhole conf) v a.plan.netmaps ∧
        Run.Along (fun u member => some (staleTurn conf wanted u member)) (RemovesWhole conf wanted)
          (final (listAppliedNetmaps u)) u.box.applied) (by simp [Whole, h, wanted, u])

theorem applyNetmaps_whole {netmaps : List Netmap} (hstated : ∀ m ∈ netmaps, m.Stated) (hw : Tooled w)
    (hb : Booked conf.IFACE w.box) (hmaps : Run.Along (fun u m => some (mapTurn conf u m)) (MapsWhole conf) w netmaps)
    (hstales : Run.Along (fun u member => some (staleTurn conf (netmaps.map Netmap.text) u member))
      (RemovesWhole conf (netmaps.map Netmap.text)) (final (listAppliedNetmaps (netmaps.foldl (mapTurn conf) w)))
      (netmaps.foldl (mapTurn conf) w).box.applied) (failed : List Failure) :
    ∃ failed' w', applyNetmaps conf netmaps failed w = .ok failed' w' ∧ Tooled w' ∧ Booked conf.IFACE w'.box := by
  let P : World → Prop := fun v => Tooled v ∧ Booked conf.IFACE v.box
  have hmapped : P (netmaps.foldl (mapTurn conf) w) := by
    refine Run.foldl_invariant (fun v m hm hv hwhole => ?_) (show P w from ⟨hw,hb⟩) hmaps
    exact ⟨tooled_mapTurn hv.1,booked_mapTurn (hstated m hm) hv.1 hv.2 hwhole⟩
  obtain ⟨failed₁,hrun₁⟩ := foldlM_turns (fun failed m v => applyMap_mapTurn v m failed) netmaps failed w
  obtain ⟨u,hlist,hu⟩ := listApplied_able hmapped.1.able
  have hlisted : P u := by
    refine ⟨?_,hu ▸ hmapped.2⟩
    exact (keeps_listAppliedNetmaps (stable_tooled fun _ => True)).of_ok hlist hmapped.1
  rw [hlist, final_ok] at hstales
  have hremoved := Run.foldl_invariant (P := P) (fun v member hmember hv hwhole => ?_) hlisted hstales
  · obtain ⟨failed₂,hrun₂⟩ := foldlM_turns
      (fun failed member v => removeStale_staleTurn conf (netmaps.map Netmap.text) v member failed)
      (netmaps.foldl (mapTurn conf) w).box.applied failed₁ u
    refine ⟨failed₂,_,?_,hremoved⟩
    unfold applyNetmaps
    rw [bind_of_ok hrun₁, bind_of_ok hlist]
    exact hrun₂
  · have hwritten : Written member := hmapped.2.written member hmember
    exact ⟨tooled_staleTurn hv.1,booked_staleTurn hwritten hv.1 hv.2 hwhole⟩

def Equipped (w : World) : Prop := ∀ missing, w.toolCache = some missing → "iptables" ∉ missing

def Reliable (faults : Nat → Cmd → Option Failed) : Prop := ∀ n c, faults n c ≠ none → c.mayFail

theorem booked_attempt {a : Attempt} (hw : Equipped w) (hb : Booked conf.IFACE w.box) (hreliable : Reliable a.faults)
    (hstated : ∀ m ∈ a.plan.netmaps, m.Stated) (hwhole : Whole conf w a) :
    Equipped (attempted conf w a) ∧ Booked conf.IFACE (attempted conf w a).box := by
  have hstart : Able { w with faults := a.faults } := ⟨hreliable,hw⟩
  have hable : Keeps Able (beforeNetmaps conf a.plan a.privateKey) :=
    keeps_beforeNetmaps (stable_able _) able_probe a.privateKey
  have hbooks : Keeps (fun v => Booked conf.IFACE v.box ∧ v.box.applied = w.box.applied)
      (beforeNetmaps conf a.plan a.privateKey) :=
    keeps_beforeNetmaps (stable_booked w.box.applied conf.IFACE _) (fun _ => probe_booked _) a.privateKey
  have hable := hable _ hstart
  have hbooks := hbooks { w with faults := a.faults } ⟨hb,rfl⟩
  unfold Whole at hwhole
  unfold attempted
  rw [applyPlan_eq]
  cases hbefore : beforeNetmaps conf a.plan a.privateKey { w with faults := a.faults } with
  | error err v =>
    rw [hbefore] at hable hbooks
    rw [bind_of_error hbefore]
    exact ⟨hable.iptables,hbooks.1⟩
  | ok done v =>
    rw [hbefore] at hable hbooks hwhole
    have hv : Tooled v := tooled_beforeNetmaps hstart hbefore
    obtain ⟨failed,v',hrun,hv',hb'⟩ := applyNetmaps_whole hstated hv hbooks.1 hwhole.1 hwhole.2 done.1
    rw [bind_of_ok hbefore, bind_of_ok hrun]
    exact ⟨hv'.able.iptables,hb'⟩

structure Unnetted (conf : MeshConf) (b : Box) : Prop where
  rules : ∀ s p e, Maps conf.IFACE s p e → e ∉ b.iptables
  written : ∀ member ∈ b.applied, Written member

theorem Unnetted.booked {b : Box} (h : Unnetted conf b) : Booked conf.IFACE b := booked_of_none h.written h.rules

def World.calmed (w : World) : World := { w with faults := fun _ _ => none }

theorem clean_pass_heals {attempts : List Attempt} {last : Pass} (hequipped : Equipped w) (hstart : Unnetted conf w.box)
    (hreliable : ∀ a ∈ attempts, Reliable a.faults) (hstated : ∀ a ∈ attempts, ∀ m ∈ a.plan.netmaps, m.Stated)
    (hwhole : Run.Along (fun w a => some (attempted conf w a)) (Whole conf) w attempts)
    (hblocks : ∀ m ∈ last.plan.netmaps, m.blocks.isSome)
    (h : passStep conf (attempts.foldl (attempted conf) w).calmed last = some w') (s p : Net)
    (hother : ∀ m ∈ last.plan.netmaps, m.blocks ≠ some (s,p)) :
    inbound conf.IFACE s p ∉ w'.box.iptables ∧ outbound conf.IFACE s p ∉ w'.box.iptables := by
  let P : World → Prop := fun v => Equipped v ∧ Booked conf.IFACE v.box
  have hrun : P (attempts.foldl (attempted conf) w) := by
    refine Run.foldl_invariant (fun v a ha hv hwhole => ?_) (show P w from ⟨hequipped,hstart.booked⟩) hwhole
    exact booked_attempt hv.1 hv.2 (hreliable a ha) (hstated a ha) hwhole
  have hcalm : Calm (attempts.foldl (attempted conf) w).calmed := ⟨rfl,hrun.1⟩
  obtain ⟨-,hb,hleft,-⟩ := passStep_ok h hblocks hcalm hrun.2
  exact ⟨others_absent hblocks hb hleft hother (.inl rfl),others_absent hblocks hb hleft hother (.inr rfl)⟩

end Attempts

section HalfMapped

def lanAttempt (pass : Pass) (refused : Cmd → Bool) : Attempt where
  toPass := pass
  faults _ c := if refused c then some ⟨"iptables: Resource temporarily unavailable.",false⟩ else none

def appendsNetmap (chain : String) : Cmd → Bool
  | .iptables .append .nat chain' rule => chain' = chain && rule.target != .MASQUERADE
  | _ => false

theorem reliable_lan (pass : Pass) (chain : String) : Reliable (lanAttempt pass (appendsNetmap chain)).faults := by
  intro n c hc
  cases c <;> first | exact trivial | exact absurd rfl hc

def halfMapped : Attempt := lanAttempt oneLan (appendsNetmap "POSTROUTING")

theorem bare_equipped : Equipped bare := fun _ hcache => by cases hcache

theorem half_mapped_stays : Equipped bare ∧ Unnetted wgMesh bare.box ∧ Reliable halfMapped.faults ∧
    (∀ m ∈ halfMapped.plan.netmaps, m.Stated) ∧ (∀ m ∈ otherLan.plan.netmaps, m.blocks.isSome) ∧
    ∃ w', passStep wgMesh ([halfMapped].foldl (attempted wgMesh) bare).calmed otherLan = some w' ∧
      (∀ m ∈ otherLan.plan.netmaps, m.blocks ≠ some (lanShadow,lanRange)) ∧
      inbound wgMesh.IFACE lanShadow lanRange ∈ w'.box.iptables := by
  refine ⟨bare_equipped,⟨fun _ _ _ _ hmem => absurd hmem List.not_mem_nil,fun _ hmem => absurd hmem List.not_mem_nil⟩,
    reliable_lan oneLan "POSTROUTING",fun m hm => Netmap.stated_of_blocks (lan_blocks oneLan (by simp) m hm),
    lan_blocks otherLan (by simp),?_⟩
  have hrun : (passStep wgMesh ([halfMapped].foldl (attempted wgMesh) bare).calmed otherLan).any (fun w' =>
      decide (inbound wgMesh.IFACE lanShadow lanRange ∈ w'.box.iptables)) = true := by decide +kernel
  obtain ⟨w',h,hmem⟩ := (Option.any_eq_true _ _).mp hrun
  exact ⟨w',h,by decide +kernel,of_decide_eq_true hmem⟩

theorem clean_pass_heals_lan : ∃ w', passStep wgMesh (([lanAttempt oneLan (appendsNetmap "PREROUTING"),
      lanAttempt oneLan fun _ => false].foldl (attempted wgMesh) bare).calmed) otherLan = some w' ∧
    inbound wgMesh.IFACE lanShadow lanRange ∉ w'.box.iptables ∧
    outbound wgMesh.IFACE lanShadow lanRange ∉ w'.box.iptables := by
  have hrun : (passStep wgMesh (([lanAttempt oneLan (appendsNetmap "PREROUTING"),
      lanAttempt oneLan fun _ => false].foldl (attempted wgMesh) bare).calmed) otherLan).isSome = true := by
    decide +kernel
  obtain ⟨w',h⟩ := Option.isSome_iff_exists.mp hrun
  have hstart : Unnetted wgMesh bare.box :=
    ⟨fun _ _ _ _ hmem => absurd hmem List.not_mem_nil,fun _ hmem => absurd hmem List.not_mem_nil⟩
  have hreliable : ∀ a ∈ [lanAttempt oneLan (appendsNetmap "PREROUTING"),lanAttempt oneLan fun _ => false],
      Reliable a.faults := by
    intro a ha
    simp only [List.mem_cons, List.not_mem_nil, or_false] at ha
    rcases ha with rfl | rfl
    · exact reliable_lan oneLan "PREROUTING"
    · exact fun n c hc => absurd rfl hc
  have hstated : ∀ a ∈ [lanAttempt oneLan (appendsNetmap "PREROUTING"),lanAttempt oneLan fun _ => false],
      ∀ m ∈ a.plan.netmaps, m.Stated := by
    intro a ha m hm
    simp only [List.mem_cons, List.not_mem_nil, or_false] at ha
    rcases ha with rfl | rfl <;> exact Netmap.stated_of_blocks (lan_blocks oneLan (by simp) m hm)
  have hwhole : Run.Along (fun w a => some (attempted wgMesh w a)) (Whole wgMesh) bare
      [lanAttempt oneLan (appendsNetmap "PREROUTING"),lanAttempt oneLan fun _ => false] := by decide +kernel
  exact ⟨w',h,clean_pass_heals bare_equipped hstart hreliable hstated hwhole (lan_blocks otherLan (by simp)) h
    lanShadow lanRange (by decide +kernel)⟩

end HalfMapped

end JumpHost.Mesh
