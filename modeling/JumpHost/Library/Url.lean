import Mathlib.Data.List.DropRight

namespace Url

structure Origin (Host : Type*) where
  host : Host
  port : Option Nat
deriving DecidableEq

structure Parser (Host : Type*) where
  defaultPort : Nat
  host : List Char → Option Host

structure Rooted where
  text : List Char
  rooted : text.head? = some '/'

def control (c : Char) : Bool := c.toNat ≤ 0x20

def tabOrNewline (c : Char) : Bool := c = '\t' || c = '\n' || c = '\r'

def clean (text : List Char) : List Char :=
  ((text.dropWhile control).rdropWhile control).filter (!tabOrNewline ·)

def slash (c : Char) : Bool := c = '/' || c = '\\'

def terminator (c : Char) : Bool := slash c || c = '?' || c = '#'

def decimal (digits : List Char) : Nat := digits.foldl (fun n c => 10 * n + (c.toNat - '0'.toNat)) 0

def turn (bracketed : Bool) (c : Char) : Bool := if c = '[' then true else if c = ']' then false else bracketed

section States

variable {Host : Type*} (parser : Parser Host)

def portEnd (host : Host) (digits : List Char) : Option (Origin Host) :=
  if digits.isEmpty then some ⟨host,none⟩
  else if 65535 < decimal digits then none
  else some ⟨host,if decimal digits = parser.defaultPort then none else some (decimal digits)⟩

def portState (host : Host) (buffer : List Char) : List Char → Option (Origin Host)
  | [] => portEnd parser host buffer
  | c :: rest =>
      if c.isDigit then portState host (buffer ++ [c]) rest
      else if terminator c then portEnd parser host buffer
      else none

def hostEnd (buffer : List Char) : Option (Origin Host) :=
  if buffer.isEmpty then none else (parser.host buffer).map (⟨·,none⟩)

def hostState (bracketed : Bool) (buffer : List Char) : List Char → Option (Origin Host)
  | [] => hostEnd parser buffer
  | c :: rest =>
      if c = ':' && !bracketed then
        if buffer.isEmpty then none else (parser.host buffer).bind (portState parser · [] rest)
      else if terminator c then hostEnd parser buffer
      else hostState (turn bracketed c) (buffer ++ [c]) rest

def authorityState (atSign : Bool) (buffer : List Char) : List Char → Option (Origin Host)
  | [] => if atSign && buffer.isEmpty then none else hostState parser false [] buffer
  | c :: rest =>
      if c = '@' then authorityState true [] rest
      else if terminator c then
        if atSign && buffer.isEmpty then none else hostState parser false [] (buffer ++ c :: rest)
      else authorityState atSign (buffer ++ [c]) rest

def ignoreSlashes (text : List Char) : Option (Origin Host) := authorityState parser false [] (text.dropWhile slash)

variable (base : Origin Host)

def relativeSlash : List Char → Option (Origin Host)
  | [] => some base
  | c :: rest => if slash c then ignoreSlashes parser rest else some base

def relative : List Char → Option (Origin Host)
  | [] => some base
  | c :: rest => if slash c then relativeSlash parser base rest else some base

def resolve (reference : Rooted) : Option (Origin Host) := relative parser base (clean reference.text)

end States

section Naming

variable {Host : Type*} (parser : Parser Host)

def HostText (bracketed : Bool) (name : List Char) : Prop :=
  ∀ before after, name = before ++ ':' :: after → before.foldl turn bracketed = true

inductive PortText (bracketed : Bool) : List Char → Option Nat → Prop
  | absent : PortText bracketed [] none
  | empty : bracketed = false → PortText bracketed [':'] none
  | own {digits} : bracketed = false → digits ≠ [] → digits.all Char.isDigit = true → decimal digits ≤ 65535 →
      decimal digits = parser.defaultPort → PortText bracketed (':' :: digits) none
  | given {digits} : bracketed = false → digits ≠ [] → digits.all Char.isDigit = true → decimal digits ≤ 65535 →
      decimal digits ≠ parser.defaultPort → PortText bracketed (':' :: digits) (some (decimal digits))

def hostAndPort (text : List Char) : List Char := (text.takeWhile (!terminator ·)).rtakeWhile (· != '@')

def Names (text : List Char) (origin : Origin Host) : Prop :=
  ∃ name port, hostAndPort text = name ++ port ∧ name ≠ [] ∧ HostText false name ∧
    parser.host name = some origin.host ∧ PortText parser (name.foldl turn false) port origin.port

variable {parser} {host : Host} {origin : Origin Host} {bracketed atSign : Bool} {buffer text name port : List Char}

theorem rtakeWhile_append_cons {α : Type*} {p : α → Bool} {x : α} (hx : p x = false) (xs ys : List α) :
    (xs ++ x :: ys).rtakeWhile p = ys.rtakeWhile p := by
  have hstop : ∀ zs, List.takeWhile p (zs ++ x :: xs.reverse) = List.takeWhile p zs := fun zs => by
    induction zs with
    | nil => exact List.takeWhile_cons_of_neg (by rw [hx]; exact Bool.false_ne_true)
    | cons z zs ih => simp only [List.cons_append, List.takeWhile_cons, ih]
  rw [List.rtakeWhile, List.rtakeWhile, List.reverse_append, List.reverse_cons, List.append_assoc,
    List.singleton_append, hstop]

theorem digit_inside {c : Char} (hc : c.isDigit = true) : terminator c = false := by
  rw [Bool.eq_false_iff]
  intro hterm
  simp only [terminator, slash, Bool.or_eq_true, decide_eq_true_eq] at hterm
  rcases hterm with ((rfl | rfl) | rfl) | rfl <;> exact absurd hc (by decide)

theorem portState_takeWhile :
    portState parser host buffer text = portState parser host buffer (text.takeWhile (!terminator ·)) := by
  induction text generalizing buffer with
  | nil => rfl
  | cons c rest ih =>
    cases hterm : terminator c with
    | true =>
      have hdigit : ¬ c.isDigit = true := fun hc => by rw [digit_inside hc] at hterm; cases hterm
      rw [List.takeWhile_cons_of_neg (by simp [hterm])]
      exact (if_neg hdigit).trans (if_pos hterm)
    | false =>
      rw [List.takeWhile_cons_of_pos (by simp [hterm]), portState, portState, ih]

theorem hostState_takeWhile :
    hostState parser bracketed buffer text = hostState parser bracketed buffer (text.takeWhile (!terminator ·)) := by
  induction text generalizing bracketed buffer with
  | nil => rfl
  | cons c rest ih =>
    cases hterm : terminator c with
    | true =>
      have hcolon : ¬ (c = ':' && !bracketed) = true := fun hc => by
        obtain rfl : c = ':' := of_decide_eq_true (Bool.and_eq_true_iff.mp hc).1
        exact absurd hterm (by decide)
      rw [List.takeWhile_cons_of_neg (by simp [hterm])]
      exact (if_neg hcolon).trans (if_pos hterm)
    | false =>
      have hport : ∀ found, portState parser found [] rest =
          portState parser found [] (rest.takeWhile (!terminator ·)) := fun _ => portState_takeWhile
      rw [List.takeWhile_cons_of_pos (by simp [hterm]), hostState, hostState, ih]
      simp only [← hport]

theorem hostState_atEnd : (if atSign && buffer.isEmpty then none else hostState parser false [] buffer) =
    hostState parser false [] buffer := by
  split
  · next hempty =>
    obtain rfl : buffer = [] := List.isEmpty_iff.mp (Bool.and_eq_true_iff.mp hempty).2
    rfl
  · rfl

theorem authorityState_eq (hat : ∀ c ∈ buffer, (c != '@') = true) (hin : ∀ c ∈ buffer, (!terminator c) = true) :
    authorityState parser atSign buffer text =
      hostState parser false [] ((buffer ++ text.takeWhile (!terminator ·)).rtakeWhile (· != '@')) := by
  induction text generalizing atSign buffer with
  | nil =>
    have hall : buffer.rtakeWhile (· != '@') = buffer := List.rtakeWhile_eq_self_iff.mpr hat
    rw [List.takeWhile_nil, List.append_nil, hall, authorityState]
    exact hostState_atEnd
  | cons c rest ih =>
    rw [authorityState]
    split
    · next hc =>
      subst hc
      rw [List.takeWhile_cons_of_pos (by decide), rtakeWhile_append_cons (by decide)]
      exact ih (fun _ h => absurd h List.not_mem_nil) (fun _ h => absurd h List.not_mem_nil)
    · next hc =>
      cases hterm : terminator c with
      | true =>
        have hall : buffer.rtakeWhile (· != '@') = buffer := List.rtakeWhile_eq_self_iff.mpr hat
        have hstop : (buffer ++ c :: rest).takeWhile (!terminator ·) = buffer := by
          rw [List.takeWhile_append_of_pos hin, List.takeWhile_cons_of_neg (by simp [hterm]), List.append_nil]
        rw [if_pos rfl, List.takeWhile_cons_of_neg (by simp [hterm]), List.append_nil, hall, hostState_takeWhile, hstop]
        exact hostState_atEnd
      | false =>
        rw [if_neg Bool.false_ne_true, List.takeWhile_cons_of_pos (by simp [hterm]),
          List.append_cons buffer c (rest.takeWhile _)]
        refine ih (List.forall_mem_append.mpr ⟨hat,?_⟩) (List.forall_mem_append.mpr ⟨hin,?_⟩)
        · exact List.forall_mem_singleton.mpr (bne_iff_ne.mpr hc)
        · exact List.forall_mem_singleton.mpr (by rw [hterm, Bool.not_false])

theorem portState_iff (hin : ∀ c ∈ text, terminator c = false) :
    portState parser host buffer text = some origin ↔
      text.all Char.isDigit = true ∧ portEnd parser host (buffer ++ text) = some origin := by
  induction text generalizing buffer with
  | nil => simp [portState]
  | cons c rest ih =>
    obtain ⟨hc,hrest⟩ := List.forall_mem_cons.mp hin
    rw [portState, List.all_cons]
    cases hdigit : c.isDigit with
    | true => rw [if_pos rfl, ih hrest, Bool.true_and, List.append_assoc, List.singleton_append]
    | false => simp [hc]

theorem portEnd_iff : text.all Char.isDigit = true ∧ portEnd parser host text = some origin ↔
    origin.host = host ∧ PortText parser false (':' :: text) origin.port := by
  constructor
  · rintro ⟨hdigits,hend⟩
    unfold portEnd at hend
    split at hend
    · next hempty =>
      cases hend
      obtain rfl := List.isEmpty_iff.mp hempty
      exact ⟨rfl,.empty rfl⟩
    · next hempty =>
      have hne : text ≠ [] := fun h => hempty (List.isEmpty_iff.mpr h)
      split at hend
      · cases hend
      · next hlarge =>
        cases hend
        refine ⟨rfl,?_⟩
        dsimp only
        split
        · next hown => exact .own rfl hne hdigits (by omega) hown
        · next hown => exact .given rfl hne hdigits (by omega) hown
  · obtain ⟨found,port⟩ := origin
    rintro ⟨rfl,hport⟩
    unfold portEnd
    cases hport with
    | empty => exact ⟨rfl,rfl⟩
    | own _ hne hdigits hsmall hown =>
      have hempty : text.isEmpty = false := List.isEmpty_eq_false_iff.mpr hne
      exact ⟨hdigits,by simp [hempty, hown, show ¬ 65535 < parser.defaultPort by omega]⟩
    | given _ hne hdigits hsmall hown =>
      have hempty : text.isEmpty = false := List.isEmpty_eq_false_iff.mpr hne
      exact ⟨hdigits,by simp [hempty, hown, show ¬ 65535 < decimal text by omega]⟩

theorem hostText_nil : HostText bracketed [] := fun before after h => by simp at h

theorem hostText_cons {c : Char} (hc : (c = ':' && !bracketed) = false) :
    HostText bracketed (c :: name) ↔ HostText (turn bracketed c) name := by
  constructor
  · intro h before after hname
    exact h (c :: before) after (by rw [hname, List.cons_append])
  · rintro h (_ | ⟨d,before⟩) after hname
    · obtain ⟨rfl,rfl⟩ := List.cons.inj hname
      simpa using hc
    · obtain ⟨rfl,hrest⟩ := List.cons.inj hname
      exact h before after hrest

theorem hostEnd_iff : hostEnd parser buffer = some origin ↔
    buffer ≠ [] ∧ parser.host buffer = some origin.host ∧ origin.port = none := by
  obtain ⟨host,port⟩ := origin
  cases buffer with
  | nil => simp [hostEnd]
  | cons c buffer =>
    simp only [hostEnd, List.isEmpty_cons, Bool.false_eq_true, if_false, Option.map_eq_some_iff, Origin.mk.injEq]
    constructor
    · rintro ⟨found,hhost,rfl,rfl⟩
      exact ⟨List.cons_ne_nil c buffer,hhost,rfl⟩
    · rintro ⟨-,hhost,rfl⟩
      exact ⟨host,hhost,rfl,rfl⟩

theorem portText_led {c : Char} {given : Option Nat} (h : PortText parser bracketed (c :: text) given) :
    (c = ':' && !bracketed) = true := by
  cases h with
  | empty hout => rw [hout]; rfl
  | own hout => rw [hout]; rfl
  | given hout => rw [hout]; rfl

theorem hostState_colon (hin : ∀ c ∈ text, terminator c = false) :
    hostState parser false buffer (':' :: text) = some origin ↔
      buffer ≠ [] ∧ parser.host buffer = some origin.host ∧ PortText parser false (':' :: text) origin.port := by
  rw [hostState]
  cases buffer with
  | nil => simp
  | cons c buffer =>
    simp only [decide_true, Bool.not_false, Bool.and_self, if_true, List.isEmpty_cons, Bool.false_eq_true, if_false,
      Option.bind_eq_some_iff, portState_iff hin, List.nil_append, portEnd_iff]
    constructor
    · rintro ⟨host,hhost,rfl,hport⟩
      exact ⟨List.cons_ne_nil c buffer,hhost,hport⟩
    · rintro ⟨-,hhost,hport⟩
      exact ⟨origin.host,hhost,rfl,hport⟩

theorem hostState_iff (hin : ∀ c ∈ text, terminator c = false) :
    hostState parser bracketed buffer text = some origin ↔
      ∃ name port, text = name ++ port ∧ buffer ++ name ≠ [] ∧ HostText bracketed name ∧
        parser.host (buffer ++ name) = some origin.host ∧
        PortText parser (name.foldl turn bracketed) port origin.port := by
  induction text generalizing bracketed buffer with
  | nil =>
    rw [hostState, hostEnd_iff]
    constructor
    · rintro ⟨hne,hhost,hport⟩
      rw [hport]
      exact ⟨[],[],rfl,by rwa [List.append_nil],hostText_nil,by rwa [List.append_nil],.absent⟩
    · rintro ⟨name,port,htext,hne,-,hhost,hport⟩
      obtain ⟨rfl,rfl⟩ := List.append_eq_nil_iff.mp htext.symm
      rw [List.append_nil] at hne hhost
      refine ⟨hne,hhost,?_⟩
      generalize origin.port = found at hport
      cases hport
      rfl
  | cons c rest ih =>
    obtain ⟨hc,hrest⟩ := List.forall_mem_cons.mp hin
    cases hcolon : (c = ':' && !bracketed : Bool) with
    | true =>
      obtain ⟨rfl,rfl⟩ : c = ':' ∧ bracketed = false := by simpa using hcolon
      rw [hostState_colon hrest]
      constructor
      · rintro ⟨hne,hhost,hport⟩
        exact ⟨[],':' :: rest,rfl,by rwa [List.append_nil],hostText_nil,by rwa [List.append_nil],hport⟩
      · rintro ⟨_ | ⟨d,name⟩,port,htext,hne,hname,hhost,hport⟩
        · rw [List.append_nil] at hne hhost
          rw [List.nil_append] at htext
          rw [htext]
          exact ⟨hne,hhost,hport⟩
        · obtain ⟨rfl,-⟩ := List.cons.inj htext
          exact absurd (hname [] name rfl) Bool.false_ne_true
    | false =>
      rw [hostState, hcolon, hc, if_neg Bool.false_ne_true, if_neg Bool.false_ne_true, ih hrest]
      constructor
      · rintro ⟨name,port,rfl,hne,hname,hhost,hport⟩
        rw [List.append_assoc, List.singleton_append] at hne hhost
        exact ⟨c :: name,port,rfl,hne,(hostText_cons hcolon).mpr hname,hhost,hport⟩
      · rintro ⟨_ | ⟨d,name⟩,port,htext,hne,hname,hhost,hport⟩
        · rw [List.nil_append] at htext
          rw [← htext] at hport
          have hled : (c = ':' && !bracketed) = true := portText_led hport
          rw [hled] at hcolon
          cases hcolon
        · obtain ⟨rfl,rfl⟩ := List.cons.inj htext
          refine ⟨name,port,rfl,?_,(hostText_cons hcolon).mp hname,?_,hport⟩
          · rwa [List.append_assoc, List.singleton_append]
          · rwa [List.append_assoc, List.singleton_append]

theorem authorityState_iff : authorityState parser false [] text = some origin ↔ Names parser text origin := by
  rw [authorityState_eq (fun _ h => absurd h List.not_mem_nil) (fun _ h => absurd h List.not_mem_nil), List.nil_append,
    hostState_iff]
  · simp only [List.nil_append]
    rfl
  · intro c hc
    have htake := List.mem_takeWhile_imp ((List.rtakeWhile_suffix _ _).subset hc)
    rwa [Bool.not_eq_true'] at htake

end Naming

section Leading

variable {Host : Type*} {parser : Parser Host} {base origin : Origin Host} {reference : Rooted}

def tidied (text : List Char) : List Char := (text.rdropWhile control).filter (!tabOrNewline ·)

def Leads (text authority : List Char) : Prop :=
  ∃ gap c tail, text = '/' :: (gap ++ c :: tail) ∧ (∀ g ∈ gap, tabOrNewline g = true) ∧ slash c = true ∧
    authority = (tidied tail).dropWhile slash

theorem rdropWhile_append_cons {α : Type*} {p : α → Bool} {x : α} (hx : p x = false) (xs ys : List α) :
    (xs ++ x :: ys).rdropWhile p = xs ++ x :: ys.rdropWhile p := by
  have hstop : ∀ zs, List.dropWhile p (zs ++ x :: xs.reverse) = List.dropWhile p zs ++ x :: xs.reverse := fun zs => by
    induction zs with
    | nil => exact List.dropWhile_cons_of_neg (by rw [hx]; exact Bool.false_ne_true)
    | cons z zs ih =>
      simp only [List.cons_append, List.dropWhile_cons, ih]
      split <;> rfl
  rw [List.rdropWhile, List.rdropWhile, List.reverse_append, List.reverse_cons, List.append_assoc,
    List.singleton_append, hstop, List.reverse_append, List.reverse_cons, List.reverse_reverse, List.append_assoc,
    List.singleton_append]

theorem slash_kept {c : Char} (hc : slash c = true) : control c = false ∧ (!tabOrNewline c) = true := by
  simp only [slash, Bool.or_eq_true, decide_eq_true_eq] at hc
  rcases hc with rfl | rfl <;> decide

theorem tidied_append {gap tail : List Char} {c : Char} (hgap : ∀ g ∈ gap, tabOrNewline g = true)
    (hc : slash c = true) : tidied (gap ++ c :: tail) = c :: tidied tail := by
  have hnone : gap.filter (!tabOrNewline ·) = [] := List.filter_eq_nil_iff.mpr fun g hg => by
    rw [hgap g hg]
    exact Bool.false_ne_true
  obtain ⟨hcontrol,hkept⟩ := slash_kept hc
  rw [tidied, rdropWhile_append_cons hcontrol, List.filter_append, hnone, List.nil_append, List.filter_cons,
    if_pos hkept]
  rfl

theorem clean_rooted (rest : List Char) : clean ('/' :: rest) = '/' :: tidied rest := by
  have hled : ('/' :: rest).dropWhile control = '/' :: rest := List.dropWhile_cons_of_neg (by decide)
  rw [clean, hled]
  exact tidied_append (fun _ h => absurd h List.not_mem_nil) rfl

theorem leads_of_tidied {c : Char} {rest left : List Char} (h : tidied rest = c :: left) (hc : slash c = true) :
    Leads ('/' :: rest) (left.dropWhile slash) := by
  obtain ⟨gap,tail,hrest,hgap,-,-⟩ := List.filter_eq_cons_iff.mp h
  have hwhole : rest = gap ++ c :: (tail ++ rest.rtakeWhile control) := by
    have hsplit : rest.rdropWhile control ++ rest.rtakeWhile control = rest := List.rdropWhile_append_rtakeWhile
    rw [hrest, List.append_assoc, List.cons_append] at hsplit
    exact hsplit.symm
  have hdeleted : ∀ g ∈ gap, tabOrNewline g = true := fun g hg => by simpa using hgap g hg
  refine ⟨gap,c,_,by rw [← hwhole],hdeleted,hc,?_⟩
  rw [hwhole, tidied_append hdeleted hc] at h
  rw [(List.cons.inj h).2]

theorem resolve_of_leads {authority : List Char} (h : Leads reference.text authority) :
    resolve parser base reference = authorityState parser false [] authority := by
  obtain ⟨gap,c,tail,htext,hgap,hc,rfl⟩ := h
  rw [resolve, htext, clean_rooted, tidied_append hgap hc, relative,
    if_pos (by decide), relativeSlash, if_pos hc, ignoreSlashes]

theorem resolve_of_path (h : ∀ authority, ¬ Leads reference.text authority) :
    resolve parser base reference = some base := by
  obtain ⟨text,hrooted⟩ := reference
  obtain ⟨rest,rfl⟩ := List.head?_eq_some_iff.mp hrooted
  rw [resolve, clean_rooted, relative, if_pos (by decide)]
  cases htidied : tidied rest with
  | nil => rfl
  | cons c left =>
    rw [relativeSlash]
    split
    · next hc => exact absurd (leads_of_tidied htidied hc) (h _)
    · rfl

theorem resolve_base_iff : resolve parser base reference = some base ↔
    ∀ authority, Leads reference.text authority → Names parser authority base := by
  constructor
  · intro hresolve authority hleads
    rwa [resolve_of_leads hleads, authorityState_iff] at hresolve
  · intro hnames
    by_cases hleads : ∃ authority, Leads reference.text authority
    · obtain ⟨authority,hleads⟩ := hleads
      rw [resolve_of_leads hleads, authorityState_iff]
      exact hnames authority hleads
    · exact resolve_of_path (not_exists.mp hleads)

theorem resolve_within_iff : (∀ origin, resolve parser base reference = some origin → origin = base) ↔
    ∀ authority, Leads reference.text authority → ∀ origin, Names parser authority origin → origin = base := by
  constructor
  · intro hwithin authority hleads origin hnames
    refine hwithin origin ?_
    rwa [resolve_of_leads hleads, authorityState_iff]
  · intro hwithin origin hresolve
    by_cases hleads : ∃ authority, Leads reference.text authority
    · obtain ⟨authority,hleads⟩ := hleads
      rw [resolve_of_leads hleads, authorityState_iff] at hresolve
      exact hwithin authority hleads origin hresolve
    · rw [resolve_of_path (not_exists.mp hleads)] at hresolve
      exact (Option.some.inj hresolve).symm

end Leading

end Url
