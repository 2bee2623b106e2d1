import JumpHost.Library.Run
import JumpHost.Library.Utf8
import JumpHost.Ssh.Connect

namespace JumpHost.TuiPicker

open TargetMatch (Metadata)

-- a host as the picker reads it; `isProduction` is one more key of its metadata
structure Host where
  resource : TargetMatch.Host
  isProduction : Bool := false
deriving DecidableEq

def printed (s : Option String) : String := s.getD "undefined"

def Host.ip (h : Host) : Option String := h.resource.metadata.bind Metadata.ip

def Host.address (h : Host) : Option String := h.resource.metadata.bind Metadata.address

section Frames

def ESC : Char := '\x1b'

def sgr (code : String) : String := String.ofList [ESC,'['] ++ code ++ "m"

def CLEAR : String := String.ofList [ESC,'[','2','J',ESC,'[','H']

def HIDE_CUR : String := String.ofList [ESC,'[','?','2','5','l']

def SHOW_CUR : String := String.ofList [ESC,'[','?','2','5','h']

def RST : String := sgr "0"

def BOLD : String := sgr "1"

def DIM : String := sgr "2"

def RED : String := sgr "31"

def CYAN : String := sgr "36"

def BRIGHT_CYAN : String := sgr "96"

def BRIGHT_GREEN : String := sgr "92"

def YELLOW : String := sgr "33"

def BRIGHT_YELLOW : String := sgr "93"

def BRIGHT_MAGENTA : String := sgr "95"

def BLUE : String := sgr "34"

def INV_GREEN : String := sgr "42" ++ sgr "30"

structure Row where
  index : Nat
  host : Host
  isSelected : Bool
deriving DecidableEq

def Row.text (r : Row) : String :=
  let ip := (firstTruthy [r.host.ip,r.host.address]).getD ""
  let envBadge := if r.host.isProduction then BOLD ++ RED ++ "PROD" ++ RST ++ " " else DIM ++ "DEV" ++ RST ++ "  "
  let name := printed r.host.resource.name
  let slug := printed r.host.resource.slug
  if r.isSelected then
    INV_GREEN ++ "  " ++ name ++ "  " ++ DIM ++ "(" ++ slug ++ ")" ++ RST ++
      (if ip = "" then "" else "  " ++ CYAN ++ ip ++ RST) ++ "  " ++ envBadge ++ "  " ++ BOLD ++ BRIGHT_GREEN ++
      "◄ SELECTED ►" ++ RST ++ INV_GREEN ++ RST ++ "\r\n"
  else
    let nameColor := if r.index % 2 = 0 then BRIGHT_CYAN else CYAN
    "  " ++ nameColor ++ name ++ RST ++ "  " ++ DIM ++ "(" ++ slug ++ ")" ++ RST ++
      (if ip = "" then "" else "  " ++ BLUE ++ ip ++ RST) ++ "  " ++ envBadge ++ "\r\n"

structure Frame where
  uid : String
  rows : List Row
  filter : List Char
deriving DecidableEq

def header (uid : String) : String :=
  "\r\n  " ++ BOLD ++ BRIGHT_CYAN ++ "╔════════════════════════════════════════════════════════╗" ++ RST ++ "\r\n" ++
  "  " ++ BOLD ++ BRIGHT_CYAN ++ "║" ++ RST ++ "  " ++ BOLD ++ BRIGHT_MAGENTA ++ "Theta42 Jump" ++ RST ++ " " ++ DIM ++
    "·" ++ RST ++ " " ++ BRIGHT_GREEN ++ "hosts for " ++ uid ++ RST ++ "                      " ++
    BOLD ++ BRIGHT_CYAN ++ "║" ++ RST ++ "\r\n" ++
  "  " ++ BOLD ++ BRIGHT_CYAN ++ "╚════════════════════════════════════════════════════════╝" ++ RST ++ "\r\n" ++
  "\r\n" ++
  "  " ++ DIM ++ "↑/↓ move · Enter connect · type to filter · q quit" ++ RST ++ "\r\n" ++
  "\r\n"

def footer : String :=
  "\r\n\r\n  " ++ DIM ++ "────────────────────────────────────────────────────────" ++ RST ++ "\r\n" ++
  "  " ++ DIM ++ "Press" ++ RST ++ " " ++ BOLD ++ "1-9" ++ RST ++ " " ++ DIM ++ "to quick-select · " ++
    BOLD ++ "q" ++ RST ++ " " ++ DIM ++ "to quit" ++ RST ++ "\r\n"

def Frame.text (f : Frame) : String :=
  let filter := String.ofList f.filter
  CLEAR ++ HIDE_CUR ++ header f.uid ++
    (if f.rows = [] then
        "  " ++ YELLOW ++ "⚠" ++ RST ++ "  " ++ DIM ++ "(no match for \"" ++ filter ++ "\")" ++ RST ++ "\r\n"
      else String.join (f.rows.map Row.text)) ++
    (if f.filter = [] then "" else "\r\n  " ++ DIM ++ "filter: " ++ BRIGHT_YELLOW ++ filter ++ RST) ++ footer

-- `list.forEach((h, i) => ...)`, from index `i` on
def rowsFrom (selected : Int) : Nat → List Host → List Row
  | _, [] => []
  | i, h :: hs => ⟨i,h,(i : Int) = selected⟩ :: rowsFrom selected (i + 1) hs

end Frames

structure State where
  filter : List Char := []
  selected : Int := 0
  frame : Option Frame := none
  listening : Bool := false
  timer : Bool := false
  resolved : List (Option Host) := []
  written : List String := []
deriving DecidableEq

inductive Event where
  | data (buf : List UInt8)
  | timer

section Picking

variable (js : Js) (uid : String) (hosts : List Host)

def shows (filter : List Char) (h : Host) : Bool :=
  if filter = [] then true
  else
    let hay := js.toLowerCase (printed h.resource.name ++ " " ++ printed h.resource.slug ++ " " ++
      (firstTruthy [h.ip]).getD "")
    (UsernameGrammar.indexOf (js.toLowerCase (String.ofList filter)).toList hay.toList).isSome

def visible (filter : List Char) : List Host := hosts.filter (shows js filter)

-- `list[i]`
def entry (list : List Host) (i : Int) : Option Host := if 0 ≤ i then list[i.toNat]? else none

def State.render (s : State) : State :=
  let list := visible js hosts s.filter
  let selected := if (list.length : Int) ≤ s.selected then max 0 ((list.length : Int) - 1) else s.selected
  let frame : Frame := ⟨uid,rowsFrom selected 0 list,s.filter⟩
  { s with selected, frame := some frame, written := s.written ++ [frame.text] }

def State.done (s : State) (host : Option Host) : State :=
  { s with listening := false, written := s.written ++ [SHOW_CUR], resolved := s.resolved ++ [host] }

def up : List Char := [ESC,'[','A']

def down : List Char := [ESC,'[','B']

def onData (s : State) (buf : List UInt8) : State :=
  let c := Utf8.decode buf
  let list := visible js hosts s.filter
  if c = ['\x03'] ∨ c = ['q'] then s.done none
  else if c = ['\x0c'] then s.render js uid hosts
  else if c = up then State.render js uid hosts { s with selected := max 0 (s.selected - 1) }
  else if c = down then
    State.render js uid hosts { s with selected := min ((list.length : Int) - 1) (s.selected + 1) }
  else if c = ['\r'] ∨ c = ['\n'] then
    match entry list s.selected with
    | some h => s.done (some h)
    | none => s
  else if c = ['\x7f'] ∨ c = ['\x08'] then
    State.render js uid hosts { s with filter := s.filter.dropLast, selected := 0 }
  else match c with
    | [d] =>
        if d.isDigit then
          match entry list ((d.toNat : Int) - 48 - 1) with
          | some h => s.done (some h)
          | none => s
        else if ' ' ≤ d ∧ Utf8.length c = 1 then
          State.render js uid hosts { s with filter := s.filter ++ [d], selected := 0 }
        else s
    | _ => s

def noHosts : String :=
  "\r\n  No hosts available for " ++ uid ++ ".\r\n  (You have no directory access to any SSH host.)\r\n\r\n"

def pickHost : State :=
  if hosts = [] then { timer := true, written := [noHosts uid] }
  else State.render js uid hosts { listening := true }

def step (s : State) : Event → Option State
  | .data buf => some (if s.listening then onData js uid hosts s buf else s)
  | .timer => if s.timer then some { s with timer := false, resolved := s.resolved ++ [none] } else none

def Resolves (s : State) (buf : List UInt8) (host : Option Host) : Prop :=
  ∃ t, step js uid hosts s (.data buf) = some t ∧ t.resolved = s.resolved ++ [host]

structure Honest (s : State) : Prop where
  once : s.resolved.length ≤ 1
  listed : ∀ r ∈ s.resolved, r = none ∨ ∃ h ∈ hosts, shows js s.filter h = true ∧ r = some h
  last : ∀ f, s.frame = some f → ∃ before after, s.written = before ++ f.text :: after ∧
    (after = [] ∨ after = [SHOW_CUR])
  oneSelected : visible js hosts s.filter ≠ [] → ∃ f, s.frame = some f ∧
    f.rows.map Row.host = visible js hosts s.filter ∧ (f.rows.filter Row.isSelected).length = 1
  enter : ∀ buf host, Utf8.decode buf = ['\r'] ∨ Utf8.decode buf = ['\n'] → Resolves js uid hosts s buf host →
    ∃ f, s.frame = some f ∧ ∃ row ∈ f.rows, row.isSelected = true ∧ host = some row.host
  digit : ∀ buf d host, Utf8.decode buf = [d] → d.isDigit = true → Resolves js uid hosts s buf host →
    ∃ f, s.frame = some f ∧ ∃ k row, d.toNat = 48 + (k + 1) ∧ f.rows[k]? = some row ∧ host = some row.host

end Picking

section Rows

variable {list : List Host} {selected : Int} {i k : Nat} {h : Host}

@[simp] theorem hosts_rowsFrom : (rowsFrom selected i list).map Row.host = list := by
  induction list generalizing i with
  | nil => rfl
  | cons h list ih => rw [rowsFrom, List.map_cons, ih]

theorem getElem_rowsFrom (hk : list[k]? = some h) : (rowsFrom selected i list)[k]? =
    some ⟨i + k,h,decide (((i + k : Nat) : Int) = selected)⟩ := by
  induction list generalizing i k with
  | nil => cases hk
  | cons g list ih =>
    cases k with
    | zero =>
      obtain rfl := Option.some.inj hk
      rfl
    | succ k =>
      have hrest := ih (i := i + 1) hk
      rw [rowsFrom, List.getElem?_cons_succ, hrest, Nat.add_right_comm]
      rfl

theorem unselected_rowsFrom (h : selected < i) : (rowsFrom selected i list).filter Row.isSelected = [] := by
  induction list generalizing i with
  | nil => rfl
  | cons g list ih =>
    have hne : ¬ (i : Int) = selected := by omega
    rw [rowsFrom, List.filter_cons_of_neg (by simpa using hne), ih (by omega)]

theorem selected_rowsFrom (hlow : (i : Int) ≤ selected) (hhigh : selected < i + list.length) :
    ((rowsFrom selected i list).filter Row.isSelected).length = 1 := by
  induction list generalizing i with
  | nil =>
    rw [List.length_nil] at hhigh
    omega
  | cons g list ih =>
    rw [List.length_cons] at hhigh
    by_cases heq : (i : Int) = selected
    · rw [rowsFrom, List.filter_cons_of_pos (by simpa using heq), unselected_rowsFrom (by omega)]
      rfl
    · rw [rowsFrom, List.filter_cons_of_neg (by simpa using heq)]
      exact ih (by omega) (by omega)

theorem entry_eq_some {j : Int} : entry list j = some h ↔ ∃ k : Nat, j = k ∧ list[k]? = some h := by
  unfold entry
  split
  · next hj =>
    obtain ⟨k,rfl⟩ := Int.eq_ofNat_of_zero_le hj
    rw [Int.toNat_natCast]
    constructor
    · exact fun hk => ⟨k,rfl,hk⟩
    · rintro ⟨k',hkk,hk⟩
      obtain rfl := Int.ofNat_inj.mp hkk
      exact hk
  · next hj =>
    constructor
    · intro hnone
      cases hnone
    · rintro ⟨k,rfl,-⟩
      omega

end Rows

section Run

variable {js : Js} {uid : String} {hosts : List Host} {s t : State} {buf : List UInt8} {h : Host}

inductive Reacts (js : Js) (uid : String) (hosts : List Host) (s : State) (buf : List UInt8) : State → Prop
  | quit (hkey : Utf8.decode buf = ['\x03'] ∨ Utf8.decode buf = ['q']) : Reacts js uid hosts s buf (s.done none)
  | drawn {filter : List Char} {selected : Int} (hselected : 0 ≤ selected ∨ filter = s.filter ∧
      (selected = s.selected ∨ selected = min (((visible js hosts s.filter).length : Int) - 1) (s.selected + 1))) :
      Reacts js uid hosts s buf (State.render js uid hosts { s with filter, selected })
  | enter {h : Host} (hkey : Utf8.decode buf = ['\r'] ∨ Utf8.decode buf = ['\n'])
      (hentry : entry (visible js hosts s.filter) s.selected = some h) : Reacts js uid hosts s buf (s.done (some h))
  | digit {d : Char} {h : Host} (hkey : Utf8.decode buf = [d]) (hdigit : d.isDigit = true)
      (hentry : entry (visible js hosts s.filter) ((d.toNat : Int) - 48 - 1) = some h) :
      Reacts js uid hosts s buf (s.done (some h))
  | ignored : Reacts js uid hosts s buf s

theorem reacts (js : Js) (uid : String) (hosts : List Host) (s : State) (buf : List UInt8) :
    Reacts js uid hosts s buf (onData js uid hosts s buf) := by
  unfold onData
  dsimp only
  split
  · next hkey => exact .quit hkey
  · split
    · exact @Reacts.drawn js uid hosts s buf s.filter s.selected (.inr ⟨rfl,.inl rfl⟩)
    · split
      · exact .drawn (.inl (Int.le_max_left _ _))
      · split
        · exact .drawn (.inr ⟨rfl,.inr rfl⟩)
        · split
          · next hkey =>
            split
            · next hentry => exact .enter hkey hentry
            · exact .ignored
          · split
            · exact .drawn (.inl (Int.le_refl 0))
            · split
              · next d hkey =>
                split
                · next hdigit =>
                  split
                  · next hentry => exact .digit hkey hdigit hentry
                  · exact .ignored
                · split
                  · exact .drawn (.inl (Int.le_refl 0))
                  · exact .ignored
              · exact .ignored

structure Shown (js : Js) (uid : String) (hosts : List Host) (s : State) : Prop where
  frame : s.frame = some ⟨uid,rowsFrom s.selected 0 (visible js hosts s.filter),s.filter⟩
  bounds : visible js hosts s.filter ≠ [] → 0 ≤ s.selected ∧ s.selected < (visible js hosts s.filter).length
  last : ∀ f, s.frame = some f → ∃ before, s.written = before ++ f.text :: if s.listening then [] else [SHOW_CUR]

structure Inv (js : Js) (uid : String) (hosts : List Host) (s : State) : Prop where
  shown : hosts ≠ [] → Shown js uid hosts s
  silent : hosts = [] → s.frame = none ∧ s.listening = false
  once : s.resolved.length + s.listening.toNat + s.timer.toNat ≤ 1
  listed : ∀ r ∈ s.resolved, r = none ∨ ∃ h ∈ visible js hosts s.filter, r = some h

theorem shown_render (hlistening : s.listening = true) (h : visible js hosts s.filter ≠ [] → 0 ≤ s.selected) :
    Shown js uid hosts (s.render js uid hosts) := by
  refine ⟨rfl,fun hne => ?_,?_⟩
  · have hpos : 0 < (visible js hosts s.filter).length := List.length_pos_iff.mpr hne
    have hlow := h hne
    unfold State.render
    dsimp only
    split <;> omega
  · intro f hf
    obtain rfl := Option.some.inj hf
    refine ⟨s.written,?_⟩
    rw [State.render, if_pos hlistening]

theorem Shown.done (h : Shown js uid hosts s) (hlistening : s.listening = true) (host : Option Host) :
    Shown js uid hosts (s.done host) := by
  refine ⟨h.frame,h.bounds,fun f hf => ?_⟩
  obtain ⟨before,hwritten⟩ := h.last f hf
  rw [if_pos hlistening] at hwritten
  refine ⟨before,?_⟩
  rw [State.done, hwritten, List.append_assoc]
  rfl

theorem mem_of_entry {list : List Host} {j : Int} (h' : entry list j = some h) : h ∈ list := by
  obtain ⟨k,-,hk⟩ := entry_eq_some.mp h'
  exact List.mem_of_getElem? hk

theorem inv_done (hinv : Inv js uid hosts s) (hlistening : s.listening = true) {host : Option Host}
    (hhost : host = none ∨ ∃ h ∈ visible js hosts s.filter, host = some h) : Inv js uid hosts (s.done host) := by
  have honce := hinv.once
  rw [hlistening] at honce
  refine ⟨fun hne => (hinv.shown hne).done hlistening host,fun hnil => ⟨(hinv.silent hnil).1,rfl⟩,?_,?_⟩
  · simp only [State.done, List.length_append, List.length_singleton, Bool.toNat_true, Bool.toNat_false] at honce ⊢
    omega
  · intro r hr
    rcases List.mem_append.mp hr with hr | hr
    · exact hinv.listed r hr
    · obtain rfl := List.mem_singleton.mp hr
      exact hhost

theorem inv_onData (hinv : Inv js uid hosts s) (hlistening : s.listening = true) :
    Inv js uid hosts (onData js uid hosts s buf) := by
  have honce := hinv.once
  rw [hlistening] at honce
  have hhosts : hosts ≠ [] := fun hnil => by
    rw [(hinv.silent hnil).2] at hlistening
    cases hlistening
  have hunresolved : s.resolved = [] := by
    rw [Bool.toNat_true] at honce
    exact List.length_eq_zero_iff.mp (by omega)
  have hreacts := reacts js uid hosts s buf
  generalize onData js uid hosts s buf = t at hreacts ⊢
  cases hreacts with
  | quit hkey => exact inv_done hinv hlistening (.inl rfl)
  | @drawn filter selected hselected =>
    refine ⟨fun _ => shown_render hlistening fun hne => ?_,fun hnil => absurd hnil hhosts,?_,?_⟩
    · rcases hselected with hlow | ⟨rfl,rfl | rfl⟩
      · exact hlow
      · exact ((hinv.shown hhosts).bounds hne).1
      · have hpos : 0 < (visible js hosts s.filter).length := List.length_pos_iff.mpr hne
        have hlow := ((hinv.shown hhosts).bounds hne).1
        change 0 ≤ min (((visible js hosts s.filter).length : Int) - 1) (s.selected + 1)
        omega
    · exact hlistening ▸ honce
    · intro r hr
      rw [State.render, hunresolved] at hr
      cases hr
  | enter hkey hentry => exact inv_done hinv hlistening (.inr ⟨_,mem_of_entry hentry,rfl⟩)
  | digit hkey hdigit hentry => exact inv_done hinv hlistening (.inr ⟨_,mem_of_entry hentry,rfl⟩)
  | ignored => exact hinv

theorem inv_step : Run.Preserves (step js uid hosts) (fun _ _ => True) (Inv js uid hosts) := by
  intro s e t hinv _ hstep
  cases e with
  | data buf =>
    cases hstep
    split
    · next hlistening => exact inv_onData hinv hlistening
    · exact hinv
  | timer =>
    obtain ⟨htimer,⟨⟩⟩ := Option.ite_none_right_eq_some.mp hstep
    have honce := hinv.once
    rw [htimer] at honce
    refine ⟨fun hne => ⟨(hinv.shown hne).frame,(hinv.shown hne).bounds,(hinv.shown hne).last⟩,hinv.silent,?_,?_⟩
    · simp only [List.length_append, List.length_singleton, Bool.toNat_true, Bool.toNat_false] at honce ⊢
      omega
    · intro r hr
      rcases List.mem_append.mp hr with hr | hr
      · exact hinv.listed r hr
      · exact .inl (List.mem_singleton.mp hr)

theorem inv_pickHost : Inv js uid hosts (pickHost js uid hosts) := by
  unfold pickHost
  split
  · next hnil =>
    exact ⟨fun hne => absurd hnil hne,fun _ => ⟨rfl,rfl⟩,Nat.le_refl 1,fun r hr => absurd hr List.not_mem_nil⟩
  · next hne =>
    refine ⟨fun _ => shown_render rfl fun _ => Int.le_refl 0,fun hnil => absurd hnil hne,Nat.le_refl 1,?_⟩
    exact fun r hr => absurd hr List.not_mem_nil

theorem inv_run {events : List Event} (h : Run.exec (step js uid hosts) (pickHost js uid hosts) events = some s) :
    Inv js uid hosts s :=
  Run.invariant inv_step inv_pickHost (Run.along_of_forall (fun _ _ _ => trivial) _) h

theorem append_ne_self {rs : List (Option Host)} {host : Option Host} : rs ≠ rs ++ [host] := by
  intro h
  have hlen := congrArg List.length h
  rw [List.length_append, List.length_singleton] at hlen
  omega

theorem selected_of_entry (hshown : Shown js uid hosts s)
    (hentry : entry (visible js hosts s.filter) s.selected = some h) :
    ∃ f, s.frame = some f ∧ ∃ row ∈ f.rows, row.isSelected = true ∧ some h = some row.host := by
  obtain ⟨k,hk,hget⟩ := entry_eq_some.mp hentry
  refine ⟨_,hshown.frame,_,List.mem_of_getElem? (getElem_rowsFrom hget),?_,rfl⟩
  rw [Nat.zero_add]
  exact decide_eq_true hk.symm

theorem row_of_entry (hshown : Shown js uid hosts s) {d : Char}
    (hentry : entry (visible js hosts s.filter) ((d.toNat : Int) - 48 - 1) = some h) :
    ∃ f, s.frame = some f ∧ ∃ k row, d.toNat = 48 + (k + 1) ∧ f.rows[k]? = some row ∧ some h = some row.host := by
  obtain ⟨k,hk,hget⟩ := entry_eq_some.mp hentry
  exact ⟨_,hshown.frame,k,_,by omega,getElem_rowsFrom hget,rfl⟩

inductive Chosen (js : Js) (hosts : List Host) (s : State) (buf : List UInt8) : Option Host → Prop
  | quit (hkey : Utf8.decode buf = ['\x03'] ∨ Utf8.decode buf = ['q']) : Chosen js hosts s buf none
  | enter {h : Host} (hkey : Utf8.decode buf = ['\r'] ∨ Utf8.decode buf = ['\n'])
      (hentry : entry (visible js hosts s.filter) s.selected = some h) : Chosen js hosts s buf (some h)
  | digit {d : Char} {h : Host} (hkey : Utf8.decode buf = [d]) (hdigit : d.isDigit = true)
      (hentry : entry (visible js hosts s.filter) ((d.toNat : Int) - 48 - 1) = some h) : Chosen js hosts s buf (some h)

theorem chosen_of_resolves (hinv : Inv js uid hosts s) {host : Option Host} (h : Resolves js uid hosts s buf host) :
    Shown js uid hosts s ∧ Chosen js hosts s buf host := by
  obtain ⟨t,hstep,hresolved⟩ := h
  cases hstep
  split at hresolved
  · next hlistening =>
    have hne : hosts ≠ [] := fun hnil => by
      rw [(hinv.silent hnil).2] at hlistening
      cases hlistening
    refine ⟨hinv.shown hne,?_⟩
    have hreacts := reacts js uid hosts s buf
    generalize onData js uid hosts s buf = t at hreacts hresolved
    cases hreacts with
    | quit hkey =>
      obtain rfl := List.singleton_inj.mp (List.append_cancel_left hresolved)
      exact .quit hkey
    | drawn => exact absurd hresolved append_ne_self
    | enter hkey hentry =>
      obtain rfl := List.singleton_inj.mp (List.append_cancel_left hresolved)
      exact .enter hkey hentry
    | digit hkey hdigit hentry =>
      obtain rfl := List.singleton_inj.mp (List.append_cancel_left hresolved)
      exact .digit hkey hdigit hentry
    | ignored => exact absurd hresolved append_ne_self
  · exact absurd hresolved append_ne_self

theorem Inv.honest (hinv : Inv js uid hosts s) : Honest js uid hosts s where
  once := Nat.le_trans (Nat.le_trans (Nat.le_add_right _ _) (Nat.le_add_right _ _)) hinv.once
  listed r hr := by
    refine (hinv.listed r hr).imp_right ?_
    rintro ⟨h,hmem,rfl⟩
    obtain ⟨hmem,hshows⟩ := List.mem_filter.mp hmem
    exact ⟨h,hmem,hshows,rfl⟩
  last f hf := by
    by_cases hnil : hosts = []
    · rw [(hinv.silent hnil).1] at hf
      cases hf
    · obtain ⟨before,hwritten⟩ := (hinv.shown hnil).last f hf
      refine ⟨before,_,hwritten,?_⟩
      split
      · exact .inl rfl
      · exact .inr rfl
  oneSelected hne := by
    have hhosts : hosts ≠ [] := by
      rintro rfl
      exact hne rfl
    obtain ⟨hlow,hhigh⟩ := (hinv.shown hhosts).bounds hne
    exact ⟨_,(hinv.shown hhosts).frame,hosts_rowsFrom,selected_rowsFrom hlow (by omega)⟩
  enter buf host hkey h := by
    obtain ⟨hshown,hchosen⟩ := chosen_of_resolves hinv h
    cases hchosen with
    | quit hquit => rcases hkey with hkey | hkey <;> rw [hkey] at hquit <;> exact absurd hquit (by decide)
    | enter _ hentry => exact selected_of_entry hshown hentry
    | digit hdigits hdigit _ =>
      rcases hkey with hkey | hkey <;> rw [hkey] at hdigits <;> cases hdigits <;> cases hdigit
  digit buf d host hkey hdigit h := by
    obtain ⟨hshown,hchosen⟩ := chosen_of_resolves hinv h
    cases hchosen with
    | quit hquit => rcases hquit with hquit | hquit <;> rw [hkey] at hquit <;> cases hquit <;> cases hdigit
    | enter henter _ => rcases henter with henter | henter <;> rw [hkey] at henter <;> cases henter <;> cases hdigit
    | digit hkey' _ hentry =>
      obtain rfl := List.singleton_inj.mp (hkey.symm.trans hkey')
      exact row_of_entry hshown hentry

theorem picker_honest (js : Js) (uid : String) (hosts : List Host) (events : List Event) (s : State)
    (h : Run.exec (step js uid hosts) (pickHost js uid hosts) events = some s) : Honest js uid hosts s :=
  (inv_run h).honest

def web : Host := { resource := Connect.web01 }

def db : Host := { resource := Connect.db01 }

def filtered : List Event := [.data [0x77],.data [0x0D]]

theorem picker_honest_filtered : ∃ s, Run.exec (step Connect.asciiJs "alice" [web,db])
    (pickHost Connect.asciiJs "alice" [web,db]) filtered = some s ∧ Honest Connect.asciiJs "alice" [web,db] s :=
  ⟨_,rfl,picker_honest Connect.asciiJs "alice" [web,db] filtered _ rfl⟩

end Run

end JumpHost.TuiPicker
