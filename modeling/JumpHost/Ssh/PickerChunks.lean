import JumpHost.Ssh.Picker

namespace JumpHost.TuiPicker

section Segments

variable (js : Js) (uid : String) (hosts : List Host)

def State.receive (s : State) (buf : List UInt8) : State := if s.listening then onData js uid hosts s buf else s

def feed (chunks : List (List UInt8)) : State :=
  chunks.foldl (State.receive js uid hosts) (pickHost js uid hosts)

def State.ending (s : State) : List Char × Int × List (Option Host) := (s.filter,s.selected,s.resolved)

def ChunkFree (bytes : List UInt8) : Prop := ∀ chunks chunks' : List (List UInt8), chunks.flatten = bytes →
  chunks'.flatten = bytes → (feed js uid hosts chunks).ending = (feed js uid hosts chunks').ending

def idle (b : UInt8) : Bool :=
  let n := b.toNat
  (n < 0x20 && n != 3 && n != 10 && n != 13) || n == 0x7f || (48 ≤ n && n ≤ 57 && (n == 48 || hosts.length < n - 48))

def types (b : UInt8) : Bool :=
  let n := b.toNat
  0x20 ≤ n && n != 0x7f && n != 113 && !(48 ≤ n && n ≤ 57)

def erases (b : UInt8) : Bool := b.toNat == 0x7f || b.toNat == 8

def Uncut (bytes : List UInt8) : Prop := hosts = [] ∨ bytes.length ≤ 1 ∨ (∀ b ∈ bytes, idle hosts b = true) ∨
  ∃ before c e, bytes = before ++ [c,e] ∧ (∀ b ∈ before, idle hosts b = true) ∧ types c = true ∧ erases e = true

end Segments

section Keys

inductive Key where
  | quit
  | redraw
  | up
  | down
  | enter
  | erase
  | digit (i : Int)
  | typed (d : Char)
  | other
deriving DecidableEq

def keyOf (c : List Char) : Key :=
  if c = ['\x03'] ∨ c = ['q'] then .quit
  else if c = ['\x0c'] then .redraw
  else if c = up then .up
  else if c = down then .down
  else if c = ['\r'] ∨ c = ['\n'] then .enter
  else if c = ['\x7f'] ∨ c = ['\x08'] then .erase
  else match c with
    | [d] =>
        if d.isDigit then .digit ((d.toNat : Int) - 48 - 1)
        else if ' ' ≤ d ∧ Utf8.length c = 1 then .typed d
        else .other
    | _ => .other

def State.choose (s : State) (host : Option Host) : State :=
  match host with
  | some h => s.done (some h)
  | none => s

def State.press (js : Js) (uid : String) (hosts : List Host) (s : State) : Key → State
  | .quit => s.done none
  | .redraw => s.render js uid hosts
  | .up => State.render js uid hosts { s with selected := max 0 (s.selected - 1) }
  | .down => State.render js uid hosts
      { s with selected := min (((visible js hosts s.filter).length : Int) - 1) (s.selected + 1) }
  | .enter => s.choose (entry (visible js hosts s.filter) s.selected)
  | .erase => State.render js uid hosts { s with filter := s.filter.dropLast, selected := 0 }
  | .digit i => s.choose (entry (visible js hosts s.filter) i)
  | .typed d => State.render js uid hosts { s with filter := s.filter ++ [d], selected := 0 }
  | .other => s

variable {js : Js} {uid : String} {hosts : List Host} {s : State} {buf : List UInt8} {b : UInt8}

theorem onData_press : onData js uid hosts s buf = s.press js uid hosts (keyOf (Utf8.decode buf)) := by
  unfold onData keyOf
  generalize Utf8.decode buf = c
  dsimp only
  by_cases hquit : c = ['\x03'] ∨ c = ['q']
  · rw [if_pos hquit, if_pos hquit, State.press]
  by_cases hredraw : c = ['\x0c']
  · rw [if_neg hquit, if_neg hquit, if_pos hredraw, if_pos hredraw, State.press]
  by_cases hup : c = up
  · rw [if_neg hquit, if_neg hquit, if_neg hredraw, if_neg hredraw, if_pos hup, if_pos hup, State.press]
  by_cases hdown : c = down
  · rw [if_neg hquit, if_neg hquit, if_neg hredraw, if_neg hredraw, if_neg hup, if_neg hup, if_pos hdown,
      if_pos hdown, State.press]
  rw [if_neg hquit, if_neg hquit, if_neg hredraw, if_neg hredraw, if_neg hup, if_neg hup, if_neg hdown, if_neg hdown]
  by_cases henter : c = ['\r'] ∨ c = ['\n']
  · rw [if_pos henter, if_pos henter, State.press]
    generalize entry (visible js hosts s.filter) s.selected = found
    cases found <;> rfl
  by_cases herase : c = ['\x7f'] ∨ c = ['\x08']
  · rw [if_neg henter, if_neg henter, if_pos herase, if_pos herase, State.press]
  rw [if_neg henter, if_neg henter, if_neg herase, if_neg herase]
  match c with
  | [] => rfl
  | [d] =>
    dsimp only
    by_cases hdigit : d.isDigit = true
    · rw [if_pos hdigit, if_pos hdigit, State.press]
      generalize entry (visible js hosts s.filter) ((d.toNat : Int) - 48 - 1) = found
      cases found <;> rfl
    · rw [if_neg hdigit, if_neg hdigit]
      by_cases htyped : ' ' ≤ d ∧ Utf8.length [d] = 1
      · rw [if_pos htyped, if_pos htyped, State.press]
      · rw [if_neg htyped, if_neg htyped, State.press]
  | _ :: _ :: _ => rfl

def byteKey (n : Nat) : Key :=
  if n = 3 ∨ n = 113 then .quit
  else if n = 12 then .redraw
  else if n = 10 ∨ n = 13 then .enter
  else if n = 8 ∨ n = 127 then .erase
  else if 48 ≤ n ∧ n ≤ 57 then .digit ((n : Int) - 48 - 1)
  else if 32 ≤ n then .typed (if n < 128 then Char.ofNat n else Utf8.REPLACEMENT)
  else .other

theorem keyOf_byte : keyOf (Utf8.decode [b]) = byteKey b.toNat := by
  have hall : ∀ n : Fin 256, keyOf (Utf8.decode [UInt8.ofNat n]) = byteKey n := by decide +kernel
  have hb := hall ⟨b.toNat,b.toNat_lt⟩
  rwa [UInt8.ofNat_toNat] at hb

theorem idle_key (h : idle hosts b = true) : byteKey b.toNat = .redraw ∨ byteKey b.toNat = .erase ∨
    byteKey b.toNat = .other ∨ ∃ i, byteKey b.toNat = .digit i ∧ entry hosts i = none := by
  simp only [idle, Bool.and_eq_true, Bool.or_eq_true, decide_eq_true_eq, bne_iff_ne, beq_iff_eq] at h
  unfold byteKey
  split
  · omega
  · split
    · exact .inl rfl
    · split
      · omega
      · split
        · exact .inr (.inl rfl)
        · split
          · refine .inr (.inr (.inr ⟨_,rfl,?_⟩))
            refine Option.eq_none_iff_forall_ne_some.mpr fun g hg => ?_
            obtain ⟨k,hk,hget⟩ := entry_eq_some.mp hg
            have hlt : k < hosts.length := (List.getElem?_eq_some_iff.mp hget).1
            omega
          · split
            · omega
            · exact .inr (.inr (.inl rfl))

theorem types_key (h : types b = true) : ∃ d, byteKey b.toNat = .typed d := by
  simp only [types, Bool.and_eq_true, Bool.not_eq_true', Bool.and_eq_false_iff, decide_eq_true_eq,
    decide_eq_false_iff_not, bne_iff_ne] at h
  unfold byteKey
  split
  · omega
  · split
    · omega
    · split
      · omega
      · split
        · omega
        · split
          · omega
          · split
            · exact ⟨_,rfl⟩
            · omega

theorem settles_key (hidle : ¬ idle hosts b = true) (htypes : ¬ types b = true) : byteKey b.toNat = .quit ∨
    byteKey b.toNat = .enter ∨ ∃ i h, byteKey b.toNat = .digit i ∧ entry hosts i = some h := by
  simp only [idle, types, Bool.and_eq_true, Bool.or_eq_true, Bool.not_eq_true', Bool.and_eq_false_iff,
    decide_eq_true_eq, decide_eq_false_iff_not, bne_iff_ne, beq_iff_eq] at hidle htypes
  unfold byteKey
  split
  · exact .inl rfl
  · split
    · omega
    · split
      · exact .inr (.inl rfl)
      · split
        · omega
        · split
          · have hlt : b.toNat - 49 < hosts.length := by omega
            refine .inr (.inr ⟨_,hosts[b.toNat - 49],rfl,entry_eq_some.mpr ⟨b.toNat - 49,by omega,?_⟩⟩)
            exact List.getElem?_eq_getElem hlt
          · split
            · omega
            · omega

theorem high_key (h : Utf8.ascii b = false) : ∃ d, byteKey b.toNat = .typed d := by
  have hb : ¬ b.toNat < 0x80 := of_decide_eq_false h
  refine types_key ?_
  simp only [types, Bool.and_eq_true, Bool.not_eq_true', Bool.and_eq_false_iff, decide_eq_true_eq,
    decide_eq_false_iff_not, bne_iff_ne]
  omega

theorem keyOf_long {c : List Char} (h : 2 ≤ Utf8.length c) : keyOf c = .up ∨ keyOf c = .down ∨ keyOf c = .other := by
  have hone : ∀ d, Utf8.units d = 1 → c ≠ [d] := by
    rintro d hd rfl
    rw [Utf8.length_cons, Utf8.length_nil, hd] at h
    omega
  unfold keyOf
  rw [if_neg (not_or.mpr ⟨hone _ rfl,hone _ rfl⟩), if_neg (hone _ rfl)]
  split
  · exact .inl rfl
  · split
    · exact .inr (.inl rfl)
    · rw [if_neg (not_or.mpr ⟨hone _ rfl,hone _ rfl⟩), if_neg (not_or.mpr ⟨hone _ rfl,hone _ rfl⟩)]
      split
      · next d _ _ =>
        have hdigit : ¬ d.isDigit = true := fun hdigit => by
          have hle : d.toNat ≤ 57 := (Char.isDigit_iff_toNat.mp hdigit).2
          exact hone d (if_pos (by omega)) rfl
        have hunits : ¬ Utf8.length [d] = 1 := by omega
        rw [if_neg hdigit, if_neg fun htyped => hunits htyped.2]
        exact .inr (.inr rfl)
      · exact .inr (.inr rfl)

theorem keyOf_erase {c : List Char} (h : keyOf c = .erase) : c = ['\x7f'] ∨ c = ['\x08'] := by
  by_contra herase
  unfold keyOf at h
  rw [if_neg herase] at h
  repeat' split at h
  all_goals cases h

theorem erases_iff : byteKey b.toNat = .erase ↔ erases b = true := by
  simp only [erases, Bool.or_eq_true, beq_iff_eq]
  unfold byteKey
  split
  · exact iff_of_false (fun h => by cases h) (by omega)
  · split
    · exact iff_of_false (fun h => by cases h) (by omega)
    · split
      · exact iff_of_false (fun h => by cases h) (by omega)
      · split
        · exact iff_of_true rfl (by omega)
        · refine iff_of_false (fun h => ?_) (by omega)
          repeat' split at h
          all_goals cases h

theorem erase_key (h : keyOf (Utf8.decode buf) = .erase) : ∃ e, buf = [e] ∧ erases e = true := by
  obtain ⟨c,hc,hascii⟩ : ∃ c, Utf8.decode buf = [c] ∧ c.toNat < 0x80 := by
    rcases keyOf_erase h with hc | hc
    · exact ⟨_,hc,by decide⟩
    · exact ⟨_,hc,by decide⟩
  obtain ⟨e,rfl,-,-⟩ := Utf8.single_ascii hc hascii
  rw [keyOf_byte] at h
  exact ⟨e,rfl,erases_iff.mp h⟩

end Keys

section Effects

variable {js : Js} {uid : String} {hosts : List Host} {s : State} {buf : List UInt8} {b : UInt8} {k : Key}
  {chunks : List (List UInt8)} {bytes : List UInt8}

structure Fresh (s : State) : Prop where
  filter : s.filter = []
  selected : s.selected = 0
  resolved : s.resolved = []
  listening : s.listening = true

theorem Fresh.ending (h : Fresh s) : s.ending = ([],0,[]) := by
  rw [State.ending, h.filter, h.selected, h.resolved]

theorem visible_nil : visible js hosts [] = hosts := List.filter_eq_self.mpr fun _ _ => rfl

theorem fresh_render (hne : hosts ≠ []) (h : Fresh s) : Fresh (s.render js uid hosts) := by
  refine ⟨h.filter,?_,h.resolved,h.listening⟩
  have hpos : 0 < hosts.length := List.length_pos_iff.mpr hne
  have hroom : ¬ ((hosts.length : Int) ≤ 0) := by omega
  rw [State.render]
  simp only [h.filter, visible_nil, h.selected, if_neg hroom]

theorem fresh_pickHost (hne : hosts ≠ []) : Fresh (pickHost js uid hosts) := by
  rw [pickHost, if_neg hne]
  exact fresh_render hne ⟨rfl,rfl,rfl,rfl⟩

theorem receive_press (h : s.listening = true) :
    s.receive js uid hosts buf = s.press js uid hosts (keyOf (Utf8.decode buf)) := by
  rw [State.receive, if_pos h, onData_press]

theorem receive_nil : s.receive js uid hosts [] = s := by
  unfold State.receive
  split
  · rw [onData_press]
    rfl
  · rfl

theorem receive_deaf (h : s.listening = false) : s.receive js uid hosts buf = s := by
  rw [State.receive, h]
  rfl

theorem fresh_idle (hne : hosts ≠ []) (h : Fresh s) (hb : idle hosts b = true) :
    Fresh (s.receive js uid hosts [b]) := by
  rw [receive_press h.listening, keyOf_byte]
  rcases idle_key hb with hkey | hkey | hkey | ⟨i,hkey,hnone⟩
  · rw [hkey]
    exact fresh_render hne h
  · rw [hkey]
    exact fresh_render hne ⟨by rw [h.filter]; rfl,rfl,h.resolved,h.listening⟩
  · rw [hkey]
    exact h
  · rw [hkey, State.press, h.filter, visible_nil, hnone]
    exact h

theorem resolved_choose (host : Option Host) : s.resolved <+: (s.choose host).resolved := by
  cases host with
  | none => exact List.prefix_refl _
  | some h => exact List.prefix_append _ _

theorem resolved_press : s.resolved <+: (s.press js uid hosts k).resolved := by
  cases k with
  | quit => exact List.prefix_append _ _
  | enter => exact resolved_choose _
  | digit i => exact resolved_choose _
  | _ => exact List.prefix_refl _

theorem resolved_feed (js : Js) (uid : String) (hosts : List Host) (s : State) (chunks : List (List UInt8)) :
    s.resolved <+: (chunks.foldl (State.receive js uid hosts) s).resolved := by
  induction chunks generalizing s with
  | nil => exact List.prefix_refl _
  | cons buf chunks ih =>
    refine List.IsPrefix.trans ?_ (ih _)
    unfold State.receive
    split
    · rw [onData_press]
      exact resolved_press
    · exact List.prefix_refl _

theorem filter_press (js : Js) (uid : String) (hosts : List Host) (s : State) (hk : k ≠ .erase) :
    s.filter <+: (s.press js uid hosts k).filter := by
  cases k with
  | erase => exact absurd rfl hk
  | enter =>
    rw [State.press]
    generalize entry (visible js hosts s.filter) s.selected = found
    cases found <;> exact List.prefix_refl _
  | digit i =>
    rw [State.press]
    generalize entry (visible js hosts s.filter) i = found
    cases found <;> exact List.prefix_refl _
  | typed d => exact List.prefix_append _ _
  | _ => exact List.prefix_refl _

theorem length_filter_press (js : Js) (uid : String) (hosts : List Host) (s : State) (k : Key) :
    (s.press js uid hosts k).filter.length ≤ s.filter.length + 1 := by
  cases k with
  | erase =>
    change s.filter.dropLast.length ≤ _
    rw [List.length_dropLast]
    omega
  | enter =>
    rw [State.press]
    generalize entry (visible js hosts s.filter) s.selected = found
    cases found <;> exact Nat.le_succ _
  | digit i =>
    rw [State.press]
    generalize entry (visible js hosts s.filter) i = found
    cases found <;> exact Nat.le_succ _
  | typed d =>
    change (s.filter ++ [d]).length ≤ _
    rw [List.length_append, List.length_singleton]
  | _ => exact Nat.le_succ _

theorem receive_typed (js : Js) (uid : String) (hosts : List Host) {d : Char} (hs : s.listening = true)
    (hkey : byteKey b.toNat = .typed d) :
    (s.receive js uid hosts [b]).filter = s.filter ++ [d] ∧ (s.receive js uid hosts [b]).listening = true := by
  rw [receive_press hs, keyOf_byte, hkey]
  exact ⟨rfl,hs⟩

theorem receive_long (js : Js) (uid : String) (hosts : List Host) (hs : s.listening = true) (hlen : 2 ≤ buf.length)
    (hb : ∃ b ∈ buf, Utf8.ascii b = true) :
    (s.receive js uid hosts buf).filter = s.filter ∧ (s.receive js uid hosts buf).resolved = s.resolved := by
  obtain ⟨b,hmem,hascii⟩ := hb
  rw [receive_press hs]
  rcases keyOf_long (Utf8.length_decode_of_ascii hmem hascii hlen) with hkey | hkey | hkey
  all_goals
    rw [hkey]
    exact ⟨rfl,rfl⟩

def singles (bytes : List UInt8) : List (List UInt8) := bytes.map fun b => [b]

theorem flatten_singles : (singles bytes).flatten = bytes := by
  induction bytes with
  | nil => rfl
  | cons b bytes ih =>
    rw [singles, List.map_cons, List.flatten_cons]
    exact congrArg (b :: ·) ih

theorem fresh_singles (hne : hosts ≠ []) (h : Fresh s) (hbytes : ∀ b ∈ bytes, idle hosts b = true) :
    Fresh ((singles bytes).foldl (State.receive js uid hosts) s) := by
  induction bytes generalizing s with
  | nil => exact h
  | cons b bytes ih =>
    exact ih (fresh_idle hne h (hbytes b List.mem_cons_self)) fun d hd => hbytes d (List.mem_cons_of_mem b hd)

theorem high_singles (js : Js) (uid : String) (hosts : List Host) (hs : s.listening = true)
    (hbytes : ∀ b ∈ bytes, Utf8.ascii b = false) :
    ((singles bytes).foldl (State.receive js uid hosts) s).filter.length = s.filter.length + bytes.length := by
  induction bytes generalizing s with
  | nil => rfl
  | cons b bytes ih =>
    obtain ⟨d,hkey⟩ := high_key (hbytes b List.mem_cons_self)
    obtain ⟨hfilter,hlistening⟩ := receive_typed js uid hosts hs hkey
    have hrest := ih hlistening fun d hd => hbytes d (List.mem_cons_of_mem b hd)
    rw [singles, List.map_cons, List.foldl_cons]
    refine hrest.trans ?_
    rw [hfilter, List.length_append, List.length_singleton, List.length_cons]
    omega

theorem split_idle (hosts : List Host) (bytes : List UInt8) : (∀ b ∈ bytes, idle hosts b = true) ∨
    ∃ before b rest, bytes = before ++ b :: rest ∧ (∀ d ∈ before, idle hosts d = true) ∧ ¬ idle hosts b = true := by
  induction bytes with
  | nil => exact .inl fun b hb => absurd hb List.not_mem_nil
  | cons b bytes ih =>
    by_cases hb : idle hosts b = true
    · rcases ih with hall | ⟨before,d,rest,rfl,hbefore,hd⟩
      · exact .inl (List.forall_mem_cons.mpr ⟨hb,hall⟩)
      · exact .inr ⟨b :: before,d,rest,rfl,List.forall_mem_cons.mpr ⟨hb,hbefore⟩,hd⟩
    · exact .inr ⟨[],b,bytes,rfl,fun d hd => absurd hd List.not_mem_nil,hb⟩

theorem resolved_settled (js : Js) (uid : String) (h : Fresh s) (hidle : ¬ idle hosts b = true)
    (htypes : ¬ types b = true) (hne : hosts ≠ []) : (s.receive js uid hosts [b]).resolved ≠ [] := by
  rw [receive_press h.listening, keyOf_byte]
  rcases settles_key hidle htypes with hkey | hkey | ⟨i,g,hkey,hentry⟩
  · rw [hkey, State.press, State.done, h.resolved]
    exact List.cons_ne_nil _ _
  · obtain ⟨g,rest,hcons⟩ := List.exists_cons_of_ne_nil hne
    have hentry : entry hosts 0 = some g := by
      rw [hcons]
      rfl
    rw [hkey, State.press, h.filter, visible_nil, h.selected, hentry, State.choose, State.done, h.resolved]
    exact List.cons_ne_nil _ _
  · rw [hkey, State.press, h.filter, visible_nil, hentry, State.choose, State.done, h.resolved]
    exact List.cons_ne_nil _ _

theorem feed_append {chunks' : List (List UInt8)} : feed js uid hosts (chunks ++ chunks') =
    chunks'.foldl (State.receive js uid hosts) (feed js uid hosts chunks) := List.foldl_append

theorem ChunkFree.whole (h : ChunkFree js uid hosts bytes) (hchunks : chunks.flatten = bytes) :
    (feed js uid hosts chunks).ending = ((pickHost js uid hosts).receive js uid hosts bytes).ending :=
  h chunks [bytes] hchunks List.flatten_singleton

theorem ascii_of_chunkFree (h : ChunkFree js uid hosts bytes) (hne : hosts ≠ []) (hlen : 2 ≤ bytes.length) :
    ∃ b ∈ bytes, Utf8.ascii b = true := by
  by_contra hnone
  have hhigh : ∀ b ∈ bytes, Utf8.ascii b = false := fun b hb => by
    rw [← Bool.not_eq_true]
    exact fun hb' => hnone ⟨b,hb,hb'⟩
  have hstart : Fresh (pickHost js uid hosts) := fresh_pickHost hne
  have hsingle := congrArg (fun ending => ending.1.length) (h.whole flatten_singles)
  have hcount := high_singles js uid hosts hstart.listening hhigh
  have hone := length_filter_press js uid hosts (pickHost js uid hosts) (keyOf (Utf8.decode bytes))
  rw [← receive_press hstart.listening] at hone
  rw [hstart.filter] at hcount hone
  simp only [State.ending, feed] at hsingle
  rw [hcount] at hsingle
  omega

theorem erased_of_chunkFree {before rest : List UInt8}
    (h : ChunkFree js uid hosts (before ++ b :: rest)) (hne : hosts ≠ [])
    (hlen : 2 ≤ (before ++ b :: rest).length) (hbefore : ∀ d ∈ before, idle hosts d = true)
    (hidle : ¬ idle hosts b = true) : types b = true ∧ ∃ e, rest = [e] ∧ erases e = true := by
  have hstart : Fresh (pickHost js uid hosts) := fresh_pickHost hne
  obtain ⟨hfilter,hresolved⟩ := receive_long js uid hosts hstart.listening hlen (ascii_of_chunkFree h hne hlen)
  rw [hstart.filter] at hfilter
  rw [hstart.resolved] at hresolved
  have hfresh : Fresh (feed js uid hosts (singles before)) := fresh_singles hne hstart hbefore
  have hcut : (feed js uid hosts (singles before ++ [[b],rest])).ending = _ := h.whole (by simp [flatten_singles])
  rw [feed_append, List.foldl_cons, List.foldl_cons, List.foldl_nil] at hcut
  by_cases htypes : types b = true
  · refine ⟨htypes,?_⟩
    obtain ⟨d,hkey⟩ := types_key htypes
    obtain ⟨htyped,hlistening⟩ := receive_typed js uid hosts hfresh.listening hkey
    have hend :
        ((feed js uid hosts (singles before)).receive js uid hosts [b] |>.receive js uid hosts rest).filter = [] :=
      (congrArg Prod.fst hcut).trans hfilter
    by_cases hrest : keyOf (Utf8.decode rest) = .erase
    · exact erase_key hrest
    · exfalso
      have hprefix := filter_press js uid hosts ((feed js uid hosts (singles before)).receive js uid hosts [b]) hrest
      rw [← receive_press hlistening, hend, htyped, hfresh.filter] at hprefix
      cases List.prefix_nil.mp hprefix
  · exfalso
    have hsettled := resolved_settled js uid hfresh hidle htypes hne
    have hprefix := resolved_feed js uid hosts ((feed js uid hosts (singles before)).receive js uid hosts [b]) [rest]
    have hend := (congrArg (fun ending => ending.2.2) hcut).trans hresolved
    exact hsettled (List.prefix_nil.mp (hend ▸ hprefix))

theorem uncut_of_chunkFree (h : ChunkFree js uid hosts bytes) : Uncut hosts bytes := by
  by_cases hne : hosts = []
  · exact .inl hne
  by_cases hlen : bytes.length ≤ 1
  · exact .inr (.inl hlen)
  rcases split_idle hosts bytes with hall | ⟨before,b,rest,rfl,hbefore,hidle⟩
  · exact .inr (.inr (.inl hall))
  · obtain ⟨htypes,e,rfl,herases⟩ := erased_of_chunkFree h hne (by omega) hbefore hidle
    exact .inr (.inr (.inr ⟨before,b,e,rfl,hbefore,htypes,herases⟩))

theorem toNat_of_ascii (hb : Utf8.ascii b = true) {c : Char} (h : c = Char.ofNat b.toNat) : b.toNat = c.toNat := by
  have hlt : b.toNat < 0x80 := of_decide_eq_true hb
  rw [h, Char.ofNat, dif_pos (.inl (by omega))]
  rfl

theorem keyOf_up {c : List Char} (h : keyOf c = .up) : c = up := by
  by_contra hup
  unfold keyOf at h
  rw [if_neg hup] at h
  repeat' split at h
  all_goals cases h

theorem keyOf_down {c : List Char} (h : keyOf c = .down) : c = down := by
  by_contra hdown
  unfold keyOf at h
  rw [if_neg hdown] at h
  repeat' split at h
  all_goals cases h

theorem idle_ascii (h : idle hosts b = true) : Utf8.ascii b = true := by
  simp only [idle, Bool.and_eq_true, Bool.or_eq_true, decide_eq_true_eq, bne_iff_ne, beq_iff_eq] at h
  exact decide_eq_true (by omega)

theorem idle_ne_bracket (h : idle hosts b = true) : '[' ≠ Char.ofNat b.toNat := by
  intro hbracket
  have hnat : b.toNat = 91 := toNat_of_ascii (idle_ascii h) hbracket
  simp only [idle, hnat] at h
  cases h

theorem receive_ignored (hs : s.listening = true) (hlen : 2 ≤ buf.length) (hb : ∃ b ∈ buf, Utf8.ascii b = true)
    (hup : Utf8.decode buf ≠ up) (hdown : Utf8.decode buf ≠ down) : s.receive js uid hosts buf = s := by
  obtain ⟨b,hmem,hascii⟩ := hb
  rw [receive_press hs]
  rcases keyOf_long (Utf8.length_decode_of_ascii hmem hascii hlen) with hkey | hkey | hkey
  · exact absurd (keyOf_up hkey) hup
  · exact absurd (keyOf_down hkey) hdown
  · rw [hkey, State.press]

theorem fresh_idles (hne : hosts ≠ []) (h : Fresh s) (hbuf : ∀ b ∈ buf, idle hosts b = true) :
    Fresh (s.receive js uid hosts buf) := by
  match buf with
  | [] => rwa [receive_nil]
  | [b] => exact fresh_idle hne h (hbuf b List.mem_cons_self)
  | b :: d :: rest =>
    have hnone : '[' ∉ Utf8.decode (b :: d :: rest) := by
      intro hmem
      obtain ⟨e,he,hascii,hchar⟩ := Utf8.mem_of_ascii_mem hmem (by decide)
      exact idle_ne_bracket (hbuf e he) hchar
    rw [receive_ignored h.listening (by simp) ⟨b,List.mem_cons_self,idle_ascii (hbuf b List.mem_cons_self)⟩
      (fun hup => hnone (hup ▸ by decide)) (fun hdown => hnone (hdown ▸ by decide))]
    exact h

theorem fresh_feed (hne : hosts ≠ []) (h : Fresh s) (hchunks : ∀ b ∈ chunks.flatten, idle hosts b = true) :
    Fresh (chunks.foldl (State.receive js uid hosts) s) := by
  induction chunks generalizing s with
  | nil => exact h
  | cons buf chunks ih =>
    rw [List.flatten_cons] at hchunks
    exact ih (fresh_idles hne h fun b hb => hchunks b (List.mem_append_left _ hb))
      fun b hb => hchunks b (List.mem_append_right _ hb)

theorem foldl_empty (h : chunks.flatten = []) : chunks.foldl (State.receive js uid hosts) s = s := by
  induction chunks generalizing s with
  | nil => rfl
  | cons buf chunks ih =>
    obtain ⟨rfl,hrest⟩ := List.append_eq_nil_iff.mp (List.flatten_cons ▸ h)
    rw [List.foldl_cons, receive_nil, ih hrest]

theorem foldl_single (h : chunks.flatten = [b]) :
    chunks.foldl (State.receive js uid hosts) s = s.receive js uid hosts [b] := by
  induction chunks generalizing s with
  | nil => cases h
  | cons buf chunks ih =>
    rw [List.flatten_cons] at h
    rcases List.append_eq_singleton_iff.mp h with ⟨rfl,hrest⟩ | ⟨rfl,hrest⟩
    · rw [List.foldl_cons, receive_nil, ih hrest]
    · rw [List.foldl_cons, foldl_empty hrest]

theorem fresh_erase (hne : hosts ≠ []) {e : UInt8} {d : Char} (he : erases e = true) (hs : s.listening = true)
    (hresolved : s.resolved = []) (hfilter : s.filter = [d]) : Fresh (s.receive js uid hosts [e]) := by
  rw [receive_press hs, keyOf_byte, erases_iff.mpr he]
  exact fresh_render hne ⟨by rw [hfilter]; rfl,rfl,hresolved,hs⟩

theorem idle_of_erases {e : UInt8} (he : erases e = true) : idle hosts e = true := by
  simp only [erases, idle, Bool.and_eq_true, Bool.or_eq_true, decide_eq_true_eq, bne_iff_ne, beq_iff_eq] at he ⊢
  omega

theorem decode_one (b : UInt8) : ∃ d, Utf8.decode [b] = [d] := by
  cases hb : Utf8.ascii b with
  | true => exact ⟨_,Utf8.decode_ascii_one hb⟩
  | false => exact ⟨_,Utf8.decode_high_one hb⟩

theorem idle_ne_arrow {c : UInt8} {a z : Char} (hidle : ∀ b ∈ buf, idle hosts b = true) :
    Utf8.decode (buf ++ [c]) ≠ [a,'[',z] := by
  obtain ⟨d,hd⟩ := decode_one c
  rw [Utf8.decode_ascii_append fun b hb => idle_ascii (hidle b hb), hd]
  intro harrow
  have hmap : buf.map (fun b => Char.ofNat b.toNat) = [a,'['] :=
    (List.append_inj' (show _ ++ [d] = [a,'['] ++ [z] from harrow) rfl).1
  obtain ⟨b,hb,hbracket⟩ : ∃ b ∈ buf, Char.ofNat b.toNat = '[' := List.mem_map.mp (hmap ▸ by simp)
  exact idle_ne_bracket (hidle b hb) hbracket.symm

theorem erases_ne_arrow (buf : List UInt8) {e : UInt8} {a m : Char} (he : erases e = true) :
    Utf8.decode (buf ++ [e]) ≠ [a,m,'A'] ∧ Utf8.decode (buf ++ [e]) ≠ [a,m,'B'] := by
  have hidle : idle [] e = true := idle_of_erases he
  have hascii : Utf8.ascii e = true := idle_ascii hidle
  have hlast : ∀ z, Utf8.decode (buf ++ [e]) = [a,m,z] → e.toNat = z.toNat := fun z hz => by
    rw [Utf8.decode_append hascii] at hz
    have hinj := List.append_inj' (show _ ++ [Char.ofNat e.toNat] = [a,m] ++ [z] from hz) rfl
    exact toNat_of_ascii hascii (List.cons.inj hinj.2).1.symm
  simp only [erases, Bool.or_eq_true, beq_iff_eq] at he
  constructor
  · intro hA
    have h65 : e.toNat = 65 := hlast 'A' hA
    omega
  · intro hB
    have h66 : e.toNat = 66 := hlast 'B' hB
    omega

theorem fresh_retyped {before : List UInt8} {c e : UInt8} (hne : hosts ≠ []) (h : Fresh s)
    (hbefore : ∀ b ∈ before, idle hosts b = true) (htypes : types c = true) (herases : erases e = true)
    (hchunks : chunks.flatten = before ++ [c,e]) : Fresh (chunks.foldl (State.receive js uid hosts) s) := by
  induction chunks generalizing s before with
  | nil => exact absurd hchunks.symm (List.append_ne_nil_of_right_ne_nil _ (List.cons_ne_nil _ _))
  | cons buf chunks ih =>
    rw [List.flatten_cons] at hchunks
    rw [List.foldl_cons]
    rcases List.append_eq_append_iff.mp hchunks with ⟨rest,rfl,hrest⟩ | ⟨cut,rfl,hcut⟩
    · exact ih (fresh_idles hne h fun b hb => hbefore b (List.mem_append_left _ hb))
        (fun b hb => hbefore b (List.mem_append_right _ hb)) hrest
    obtain _ | ⟨d,_ | ⟨f,cut⟩⟩ := cut
    -- the typed character and its eraser are still to come
    · rw [List.append_nil]
      exact ih (fresh_idles hne h hbefore) (fun b hb => absurd hb List.not_mem_nil) hcut.symm
    -- the chunk ends between the two: the character counts if it comes alone
    · obtain ⟨rfl,hrest⟩ := List.cons.inj hcut
      rw [foldl_single hrest.symm]
      cases before with
      | nil =>
        obtain ⟨d,hkey⟩ := types_key htypes
        obtain ⟨hfilter,hlistening⟩ := receive_typed js uid hosts h.listening hkey
        rw [h.filter] at hfilter
        refine fresh_erase hne herases hlistening ?_ hfilter
        rw [List.nil_append, receive_press h.listening, keyOf_byte, hkey]
        exact h.resolved
      | cons b before =>
        have hascii : Utf8.ascii b = true := idle_ascii (hbefore b List.mem_cons_self)
        rw [receive_ignored h.listening (by simp) ⟨b,List.mem_append_left _ List.mem_cons_self,hascii⟩
          (idle_ne_arrow hbefore) (idle_ne_arrow hbefore)]
        exact fresh_idle hne h (idle_of_erases herases)
    -- both are in the chunk, which is then no key at all
    · simp only [List.cons_append, List.cons.injEq, List.nil_eq_append_iff] at hcut
      obtain ⟨rfl,rfl,rfl,hrest⟩ := hcut
      have hsplit : before ++ [c,e] = (before ++ [c]) ++ [e] := by simp
      have hidle : idle hosts e = true := idle_of_erases herases
      have hascii : Utf8.ascii e = true := idle_ascii hidle
      obtain ⟨hup,hdown⟩ := erases_ne_arrow (before ++ [c]) herases
      rw [foldl_empty hrest, receive_ignored h.listening (by simp) ⟨e,by simp,hascii⟩ (hsplit ▸ hup) (hsplit ▸ hdown)]
      exact h

theorem chunkFree_of_uncut (h : Uncut hosts bytes) : ChunkFree js uid hosts bytes := by
  intro chunks chunks' hchunks hchunks'
  by_cases hne : hosts = []
  · have hdeaf : ∀ chunks : List (List UInt8), feed js uid hosts chunks = pickHost js uid hosts := fun chunks => by
      induction chunks with
      | nil => rfl
      | cons buf chunks ih =>
        rw [feed, List.foldl_cons, receive_deaf (by rw [pickHost, if_pos hne])]
        exact ih
    rw [hdeaf, hdeaf]
  have hstart : Fresh (pickHost js uid hosts) := fresh_pickHost hne
  rcases h with hnone | hlen | hidle | ⟨before,c,e,rfl,hbefore,htypes,herases⟩
  · exact absurd hnone hne
  · match bytes, hlen with
    | [], _ => rw [feed, feed, foldl_empty hchunks, foldl_empty hchunks']
    | [b], _ => rw [feed, feed, foldl_single hchunks, foldl_single hchunks']
  · rw [feed, feed, (fresh_feed hne hstart (hchunks ▸ hidle)).ending, (fresh_feed hne hstart (hchunks' ▸ hidle)).ending]
  · rw [feed, feed, (fresh_retyped hne hstart hbefore htypes herases hchunks).ending,
      (fresh_retyped hne hstart hbefore htypes herases hchunks').ending]

end Effects

section Chunks

variable (js : Js) (uid : String) (hosts : List Host)

theorem chunkFree_iff (bytes : List UInt8) : ChunkFree js uid hosts bytes ↔ Uncut hosts bytes :=
  ⟨uncut_of_chunkFree,chunkFree_of_uncut⟩

theorem merged_dropped : ¬ ChunkFree Connect.asciiJs "alice" [web] [0x61,0x62] := by
  intro h
  have hends := h [[0x61,0x62]] [[0x61],[0x62]] rfl rfl
  revert hends
  decide

theorem exec_feed (chunks : List (List UInt8)) :
    Run.exec (step js uid hosts) (pickHost js uid hosts) (chunks.map .data) = some (feed js uid hosts chunks) := by
  rw [feed]
  generalize pickHost js uid hosts = s
  induction chunks generalizing s with
  | nil => rfl
  | cons buf chunks ih => exact ih (s.receive js uid hosts buf)

end Chunks

end JumpHost.TuiPicker
