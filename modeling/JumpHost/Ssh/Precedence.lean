import JumpHost.Ssh.Reasons

namespace JumpHost.Connect

open Auth TargetMatch UsernameGrammar

inductive NameClass where
  | slug
  | prefixedSlug
  | displayName
  | ip
  | addressHostname
deriving DecidableEq, Repr

def NameClass.all : List NameClass := [.slug,.prefixedSlug,.displayName,.ip,.addressHostname]

def NameClass.Stronger (c d : NameClass) : Prop := NameClass.all.idxOf c < NameClass.all.idxOf d

def Alike (js : Js) (s t : String) : Prop := js.toLowerCase s = js.toLowerCase t

def NameClass.Matches (js : Js) (target : String) (h : Host) : NameClass → Prop
  | .slug => ∃ s, h.slug = some s ∧ s ≠ "" ∧ Alike js s target
  | .prefixedSlug => ∃ s, h.slug = some s ∧ s ≠ "" ∧ js.toLowerCase s = "host_" ++ js.toLowerCase target
  | .displayName => ∃ s, h.name = some s ∧ s ≠ "" ∧ Alike js s target
  | .ip => ∃ md, h.metadata = some md ∧ md.ip = some target
  | .addressHostname =>
      ∃ s, addrHost js (h.metadata.bind Metadata.address) = some s ∧ s ≠ "" ∧ Alike js s target

structure Preferred (js : Js) (target : String) (hosts : List Host) (c : NameClass) (h : Host) : Prop where
  named : c.Matches js target h
  first : ∃ before after, hosts = before ++ h :: after ∧ ∀ g ∈ before, ¬ c.Matches js target g
  strongest : ∀ d : NameClass, d.Stronger c → ∀ g ∈ hosts, ¬ d.Matches js target g

def Unnamed (js : Js) (target : String) (hosts : List Host) : Prop :=
  ∀ c : NameClass, ∀ g ∈ hosts, ¬ c.Matches js target g

structure ByPrecedence (js : Js) (target : String) (hosts : List Host) (allowRawIPs : Bool) : Prop where
  host : ∀ h, matchTarget js target hosts allowRawIPs = .ok ⟨some h,none⟩ ↔ ∃ c, Preferred js target hosts c h
  raw : ∀ raw, matchTarget js target hosts allowRawIPs = .ok ⟨none,some raw⟩ ↔
    raw = target ∧ allowRawIPs = true ∧ isIPv4 target = true ∧ Unnamed js target hosts
  either : ∀ m, matchTarget js target hosts allowRawIPs = .ok m →
    (∃ h, m = ⟨some h,none⟩) ∨ ∃ raw, m = ⟨none,some raw⟩
  throws : (∃ message, matchTarget js target hosts allowRawIPs = .error message) ↔
    Unnamed js target hosts ∧ ¬ (allowRawIPs = true ∧ isIPv4 target = true)

section Matching

variable {js : Js} {conf : Conf} {target : String} {hosts : List Host} {h : Host} {host : Option Host}
  {allowRawIPs : Bool} {name : Option String} {t : String}

def NameClass.found (js : Js) (target : String) : NameClass → Host → Bool
  | .slug => fun h => isNamed js h.slug (js.toLowerCase target)
  | .prefixedSlug => fun h => isNamed js h.slug ("host_" ++ js.toLowerCase target)
  | .displayName => fun h => isNamed js h.name (js.toLowerCase target)
  | .ip => fun h => h.metadata.any fun md => md.ip == some target
  | .addressHostname => fun h =>
      isNamed js (addrHost js (h.metadata.bind Metadata.address)) (js.toLowerCase target)

theorem NameClass.mem_all (c : NameClass) : c ∈ NameClass.all := by
  cases c <;> decide

theorem finders_eq : finders js target = NameClass.all.map (NameClass.found js target) := rfl

theorem isNamed_iff : isNamed js name t = true ↔ ∃ s, name = some s ∧ s ≠ "" ∧ js.toLowerCase s = t := by
  cases name with
  | none => simp [isNamed]
  | some s => simp [isNamed, truthy]

theorem NameClass.found_iff (c : NameClass) : c.found js target h = true ↔ c.Matches js target h := by
  cases c with
  | slug => exact isNamed_iff
  | prefixedSlug => exact isNamed_iff
  | displayName => exact isNamed_iff
  | ip => simp only [NameClass.found, NameClass.Matches, Option.any_eq_true, beq_iff_eq]
  | addressHostname => exact isNamed_iff

theorem answersTo_iff : answersTo js target h = true ↔ ∃ c : NameClass, c.Matches js target h := by
  simp only [answersTo, finders_eq, List.any_map, List.any_eq_true, Function.comp_apply, NameClass.found_iff]
  constructor
  · rintro ⟨c,-,hc⟩
    exact ⟨c,hc⟩
  · rintro ⟨c,hc⟩
    exact ⟨c,c.mem_all,hc⟩

theorem unnamed_iff : Unnamed js target hosts ↔ ∀ h ∈ hosts, answersTo js target h = false := by
  simp only [Unnamed, ← Bool.not_eq_true, answersTo_iff, not_exists]
  exact ⟨fun h g hg c => h c g hg,fun h c g hg => h g hg c⟩

theorem NameClass.find_none_iff (c : NameClass) :
    hosts.find? (c.found js target) = none ↔ ∀ g ∈ hosts, ¬ c.Matches js target g := by
  simp only [List.find?_eq_none, NameClass.found_iff]

theorem NameClass.find_iff (c : NameClass) : hosts.find? (c.found js target) = some h ↔
    c.Matches js target h ∧ ∃ before after, hosts = before ++ h :: after ∧ ∀ g ∈ before, ¬ c.Matches js target g := by
  simp only [List.find?_eq_some_iff_append, Bool.not_eq_true', ← Bool.not_eq_true, NameClass.found_iff]

theorem NameClass.stronger_iff {before after : List NameClass} {c d : NameClass}
    (hall : NameClass.all = before ++ c :: after) :
    d.Stronger c ↔ d ∈ before := by
  have hnodup : (before ++ c :: after).Nodup := hall ▸ (by decide : NameClass.all.Nodup)
  have hc : c ∉ before := fun h => (List.nodup_append.mp hnodup).2.2 c h c List.mem_cons_self rfl
  rw [NameClass.Stronger, hall, List.idxOf_append, List.idxOf_append, if_neg hc, List.idxOf_cons_self]
  by_cases hd : d ∈ before
  · have hlt : List.idxOf d before < before.length := List.idxOf_lt_length_of_mem hd
    rw [if_pos hd]
    exact iff_of_true (by omega) hd
  · rw [if_neg hd]
    exact iff_of_false (by omega) hd

theorem found_preferred : (finders js target).findSome? (fun p => hosts.find? p) = some h ↔
    ∃ c, Preferred js target hosts c h := by
  simp only [finders_eq, List.findSome?_map, List.findSome?_eq_some_iff, Function.comp_apply, NameClass.find_iff,
    NameClass.find_none_iff]
  constructor
  · rintro ⟨before,c,after,hall,⟨hnamed,hfirst⟩,hno⟩
    exact ⟨c,hnamed,hfirst,fun d hd => hno d ((NameClass.stronger_iff hall).mp hd)⟩
  · rintro ⟨c,hpref⟩
    obtain ⟨before,after,hall⟩ := List.append_of_mem c.mem_all
    exact ⟨before,c,after,hall,⟨hpref.named,hpref.first⟩,
      fun d hd => hpref.strongest d ((NameClass.stronger_iff hall).mpr hd)⟩

theorem matchTarget_host (allowRawIPs : Bool) :
    matchTarget js target hosts allowRawIPs = .ok ⟨some h,none⟩ ↔ ∃ c, Preferred js target hosts c h := by
  rw [← found_preferred, matchTarget_eq { allowRawIPs }]
  cases hfind : (finders js target).findSome? (fun p => hosts.find? p) with
  | some g => simp only [Except.ok.injEq, Matched.mk.injEq, and_true]
  | none =>
    dsimp only
    split <;> simp

theorem matchTarget_unnamed (allowRawIPs : Bool) (hno : Unnamed js target hosts) :
    matchTarget js target hosts allowRawIPs = if isIPv4 target && allowRawIPs then .ok ⟨none,some target⟩
    else .error ("No accessible host matches '" ++ target ++ "'") := by
  rw [matchTarget_eq { allowRawIPs }, findSome_none_iff.mpr (unnamed_iff.mp hno), permitted]

theorem unnamed_or_preferred (js : Js) (target : String) (hosts : List Host) :
    Unnamed js target hosts ∨ ∃ c h, Preferred js target hosts c h := by
  cases hfind : (finders js target).findSome? (fun p => hosts.find? p) with
  | none => exact .inl (unnamed_iff.mpr (findSome_none_iff.mp hfind))
  | some h =>
    obtain ⟨c,hpref⟩ := found_preferred.mp hfind
    exact .inr ⟨c,h,hpref⟩

theorem Preferred.mem {c : NameClass} (hpref : Preferred js target hosts c h) : h ∈ hosts := by
  obtain ⟨before,after,hhosts,-⟩ := hpref.first
  exact hhosts ▸ List.mem_append_right before List.mem_cons_self

theorem Preferred.not_unnamed {c : NameClass} (hpref : Preferred js target hosts c h) : ¬ Unnamed js target hosts :=
  fun hno => hno c h hpref.mem hpref.named

theorem byPrecedence (js : Js) (target : String) (hosts : List Host) (allowRawIPs : Bool) :
    ByPrecedence js target hosts allowRawIPs := by
  rcases unnamed_or_preferred js target hosts with hno | ⟨c,h,hpref⟩
  · have hmatch := matchTarget_unnamed allowRawIPs hno
    refine ⟨fun h => matchTarget_host allowRawIPs,fun raw => ?_,fun m hm => ?_,?_⟩
    · rw [hmatch]
      split
      · next hraw =>
        obtain ⟨hip,hallow⟩ := Bool.and_eq_true_iff.mp hraw
        simp [hno, hip, hallow, eq_comm]
      · next hraw =>
        rw [Bool.and_eq_true_iff] at hraw
        simp only [reduceCtorEq, false_iff]
        exact fun ⟨_,hallow,hip,_⟩ => hraw ⟨hip,hallow⟩
    · rw [hmatch] at hm
      split at hm
      · cases hm
        exact .inr ⟨target,rfl⟩
      · cases hm
    · rw [hmatch, and_comm (a := allowRawIPs = true), ← Bool.and_eq_true_iff]
      split
      · next hraw => simp [hraw]
      · next hraw => simp [hno, hraw]
  · have hmatch := (matchTarget_host allowRawIPs).mpr ⟨c,hpref⟩
    refine ⟨fun g => matchTarget_host allowRawIPs,fun raw => ?_,fun m hm => ?_,?_⟩
    · rw [hmatch]
      simp [hpref.not_unnamed]
    · rw [hmatch] at hm
      cases hm
      exact .inl ⟨h,rfl⟩
    · rw [hmatch]
      simp [hpref.not_unnamed]

example : matchTarget asciiJs "10.0.0.5" [web01,{ slug := some "10.0.0.5" }] true =
    .ok ⟨some { slug := some "10.0.0.5" },none⟩ := rfl

end Matching

end JumpHost.Connect
