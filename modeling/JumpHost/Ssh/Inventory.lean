import JumpHost.Ssh.Access
import JumpHost.Ssh.Precedence

namespace JumpHost.Hosts

open TargetMatch UsernameGrammar
open Connect (NameClass asciiJs)

structure Metadata where
  managed : Option (Bool ⊕ String) := none
  discovery_sources : Option (List String) := none
  ip : Option String := none
  address : Option String := none
  sshPort : Value := .undefined
  sshHostKeyFp : Option String := none
deriving DecidableEq

structure Resource where
  id : String
  kind : Option String
  slug : Option String
  name : Option String
  metadata : Option Metadata := none
deriving DecidableEq

structure StandaloneHost where
  slug : Option String
  displayName : Option String
  kind : Option String := some "host"
  metadata : Option TargetMatch.Metadata := some {}
deriving DecidableEq

def Resource.catalog (r : Resource) : Access.Resource where
  id := r.id
  kind := r.kind
  metadata := r.metadata.map fun md => ⟨md.managed,md.discovery_sources⟩

def Resource.host (r : Resource) : Host where
  slug := r.slug
  name := r.name
  metadata := r.metadata.map fun md => ⟨md.ip,md.address,md.sshPort,md.sshHostKeyFp⟩

-- the object hosts_file.js makes of a row: its display name goes under another key than matchTarget's `name`
def StandaloneHost.host (h : StandaloneHost) : Host where
  slug := h.slug
  metadata := some (h.metadata.getD {})

inductive Record where
  | resource (r : Resource)
  | row (h : StandaloneHost)
deriving DecidableEq

def Record.host : Record → Host
  | .resource r => r.host
  | .row h => h.host

def Record.displayName : Record → Option String
  | .resource r => r.name
  | .row h => h.displayName

inductive Inventory where
  | directory (resources : List (Option Resource))
  | standalone (rows : List StandaloneHost)

def Inventory.isDirectory : Inventory → Bool
  | .directory _ => true
  | .standalone _ => false

def Inventory.records : Inventory → List Record
  | .directory resources =>
      (resources.filter fun r => Access.isCatalogHost (r.map Resource.catalog)).filterMap
        fun r => r.map Record.resource
  | .standalone rows => (rows.filter fun h => h.kind = some "host").map Record.row

def accessibleHosts (inventory : Inventory) : List Host := inventory.records.map Record.host

def Record.documented (r : Record) : Host := { r.host with name := r.displayName }

def Record.Identifier (js : Js) (r : Record) (id : String) : NameClass → Prop
  | .slug => r.host.slug = some id
  | .prefixedSlug => r.host.slug = some ("host_" ++ id)
  | .displayName => r.displayName = some id
  | .ip => ∃ md, r.host.metadata = some md ∧ md.ip = some id
  | .addressHostname => addrHost js (r.host.metadata.bind TargetMatch.Metadata.address) = some id

def Alone (js : Js) (inventory : Inventory) (r : Record) (id : String) : Prop :=
  ∀ r' ∈ inventory.records, r' ≠ r → ∀ c : NameClass, ¬ c.Matches js id r'.documented

def Resolves (js : Js) (inventory : Inventory) (r : Record) (id : String) (allowRawIPs : Bool) : Prop :=
  matchTarget js id (accessibleHosts inventory) allowRawIPs = .ok ⟨some r.host,none⟩

structure Lowering extends Js where
  lower_ascii : ∀ s : String, s.toList.all (fun c => c.toNat < 128) = true →
    toLowerCase s = String.ofList (s.toList.map Char.toLower)

section Ascii

variable {target : String} {c : Char} {cs : List Char}

theorem ascii_of_le {d : Char} (h : decide (c ≤ d) = true) (hd : d.toNat < 128) : c.toNat < 128 :=
  Nat.lt_of_le_of_lt (Char.le_def.mp (of_decide_eq_true h)) hd

theorem grammar_ascii (h : isLower c = true ∨ isUpper c = true ∨ isDigit c = true ∨ isPunct c = true) :
    c.toNat < 128 := by
  rcases h with h | h | h | h
  · exact ascii_of_le (Bool.and_eq_true_iff.mp h).2 (by decide)
  · exact ascii_of_le (Bool.and_eq_true_iff.mp h).2 (by decide)
  · exact ascii_of_le (Bool.and_eq_true_iff.mp h).2 (by decide)
  · simp only [isPunct, Bool.or_eq_true, beq_iff_eq] at h
    rcases h with (rfl | rfl) | rfl <;> decide

theorem TARGET_RE_ascii (h : TARGET_RE cs = true) : ∀ c ∈ cs, c.toNat < 128 := by
  cases cs with
  | nil => exact fun c hc => absurd hc List.not_mem_nil
  | cons d cs =>
    simp only [TARGET_RE, Bool.and_eq_true, Bool.or_eq_true, List.all_eq_true] at h
    obtain ⟨⟨hfirst,-⟩,hrest⟩ := h
    intro c hc
    rcases List.mem_cons.mp hc with rfl | hc
    · exact grammar_ascii (by tauto)
    · exact grammar_ascii (by have := hrest c hc; tauto)

theorem accepted_ascii (h : AcceptedTarget target) : ∀ c ∈ target.toList, c.toNat < 128 := by
  rcases h.legal.2 with hre | hip
  · exact TARGET_RE_ascii hre
  · intro c hc
    rcases isIPv4_chars hip hc with rfl | hdigit
    · decide
    · exact grammar_ascii (.inr (.inr (.inl hdigit)))

theorem toLowerCase_prefixed (js : Lowering) (h : AcceptedTarget target) :
    js.toLowerCase ("host_" ++ target) = "host_" ++ js.toLowerCase target := by
  have hascii : target.toList.all (fun c => c.toNat < 128) = true :=
    List.all_eq_true.mpr fun c hc => decide_eq_true (accepted_ascii h c hc)
  have hprefix : "host_".toList.all (fun c => c.toNat < 128) = true := by decide
  rw [js.lower_ascii _ hascii, js.lower_ascii _ (by rw [String.toList_append, List.all_append, hprefix, hascii]; rfl),
    String.toList_append, List.map_append, String.ofList_append]
  rfl

end Ascii

section Resolution

variable {js : Lowering} {inventory : Inventory} {r : Record} {id : String} {c : NameClass} {allowRawIPs : Bool}

theorem matches_documented (hc : c ≠ .displayName) :
    c.Matches js.toJs id r.documented ↔ c.Matches js.toJs id r.host := by
  cases c with
  | displayName => exact absurd rfl hc
  | slug => exact Iff.rfl
  | prefixedSlug => exact Iff.rfl
  | ip => exact Iff.rfl
  | addressHostname => exact Iff.rfl

theorem matches_of_identifier (hlegal : AcceptedTarget id) (hid : r.Identifier js.toJs id c) :
    c.Matches js.toJs id r.documented := by
  cases c with
  | slug => exact ⟨id,hid,hlegal.legal.1,rfl⟩
  | prefixedSlug =>
    refine ⟨_,hid,?_,toLowerCase_prefixed js hlegal⟩
    intro hempty
    have hlist := congrArg String.toList hempty
    rw [String.toList_append] at hlist
    cases hlist
  | displayName => exact ⟨id,hid,hlegal.legal.1,rfl⟩
  | ip => exact hid
  | addressHostname => exact ⟨id,hid,hlegal.legal.1,rfl⟩

theorem documented_of_directory (hdir : inventory.isDirectory = true) (hmem : r ∈ inventory.records) :
    r.documented = r.host := by
  cases inventory with
  | standalone rows => cases hdir
  | directory resources =>
    simp only [Inventory.records, List.mem_filterMap, Option.map_eq_some_iff] at hmem
    obtain ⟨_,-,resource,-,rfl⟩ := hmem
    rfl

theorem name_of_standalone (hdir : inventory.isDirectory = false) (hmem : r ∈ inventory.records) :
    r.host.name = none := by
  cases inventory with
  | directory resources => cases hdir
  | standalone rows =>
    simp only [Inventory.records, List.mem_map] at hmem
    obtain ⟨row,-,rfl⟩ := hmem
    rfl

theorem documented_of_matches (hmem : r ∈ inventory.records) (h : c.Matches js.toJs id r.host) :
    c.Matches js.toJs id r.documented := by
  by_cases hc : c = .displayName
  · subst hc
    cases hdir : inventory.isDirectory with
    | true => rwa [documented_of_directory hdir hmem]
    | false =>
      obtain ⟨s,hs,-⟩ := h
      rw [name_of_standalone hdir hmem] at hs
      cases hs
  · exact (matches_documented hc).mpr h

theorem resolves_iff_matches (hmem : r ∈ inventory.records) (halone : Alone js.toJs inventory r id) :
    Resolves js.toJs inventory r id allowRawIPs ↔ ∃ c : NameClass, c.Matches js.toJs id r.host := by
  rw [Resolves, Connect.matchTarget_host]
  constructor
  · rintro ⟨c,hpref⟩
    exact ⟨c,hpref.named⟩
  · rintro ⟨c,hc⟩
    have hlisted : r.host ∈ accessibleHosts inventory := List.mem_map_of_mem hmem
    rcases Connect.unnamed_or_preferred js.toJs id (accessibleHosts inventory) with
      hno | ⟨d,h,hpref⟩
    · exact absurd hc (hno c _ hlisted)
    · obtain ⟨r',hmem',rfl⟩ := List.mem_map.mp hpref.mem
      by_cases hr : r' = r
      · subst hr
        exact ⟨d,hpref⟩
      · exact absurd (documented_of_matches hmem' hpref.named) (halone r' hmem' hr d)

def OtherwiseNamed (js : Js) (r : Record) (id : String) : Prop :=
  ∃ c : NameClass, c ≠ .displayName ∧ c.Matches js id r.documented

theorem matches_host_iff (hmem : r ∈ inventory.records) (hlegal : AcceptedTarget id) (hid : r.Identifier js.toJs id c) :
    (∃ d : NameClass, d.Matches js.toJs id r.host) ↔
      inventory.isDirectory = true ∨ OtherwiseNamed js.toJs r id := by
  constructor
  · rintro ⟨d,hd⟩
    cases hdir : inventory.isDirectory with
    | true => exact .inl rfl
    | false =>
      refine .inr ⟨d,?_,documented_of_matches hmem hd⟩
      rintro rfl
      obtain ⟨s,hs,-⟩ := hd
      rw [name_of_standalone hdir hmem] at hs
      cases hs
  · rintro (hdir | ⟨d,hd,hmatch⟩)
    · exact ⟨c,documented_of_directory hdir hmem ▸ matches_of_identifier hlegal hid⟩
    · exact ⟨d,(matches_documented hd).mp hmatch⟩

theorem resolves_iff (js : Lowering) (inventory : Inventory) (r : Record) (id : String) (c : NameClass)
    (allowRawIPs : Bool) (hmem : r ∈ inventory.records) (hid : r.Identifier js.toJs id c) (hlegal : AcceptedTarget id)
    (halone : Alone js.toJs inventory r id) :
    Resolves js.toJs inventory r id allowRawIPs ↔ inventory.isDirectory = true ∨ OtherwiseNamed js.toJs r id := by
  rw [resolves_iff_matches hmem halone, matches_host_iff hmem hlegal hid]

end Resolution

section Standalone

def asciiLowering : Lowering where
  toJs := asciiJs
  lower_ascii _ _ := rfl

def db : StandaloneHost where
  slug := some "host_web01"
  displayName := some "Database"
  metadata := some { ip := some "10.0.0.5" }

theorem database_legal : AcceptedTarget "Database" := ⟨"alice_-_Database","alice",rfl⟩

theorem db_alone (id : String) : Alone asciiJs (.standalone [db]) (.row db) id :=
  fun _ hmem hne => absurd (List.mem_singleton.mp hmem) hne

theorem resolves_db : Resolves asciiJs (.standalone [db]) (.row db) "web01" false :=
  (resolves_iff asciiLowering (.standalone [db]) (.row db) "web01" .prefixedSlug false (List.mem_singleton_self _) rfl
    ⟨"alice_-_web01","alice",rfl⟩ (db_alone "web01")).mpr
      (.inr ⟨.prefixedSlug,by decide,"host_web01",rfl,by decide,rfl⟩)

theorem database_unresolved : ¬ ∀ (js : Lowering) (inventory : Inventory) (r : Record) (id : String) (c : NameClass)
    (allowRawIPs : Bool), r ∈ inventory.records → r.Identifier js.toJs id c → AcceptedTarget id →
      Alone js.toJs inventory r id → Resolves js.toJs inventory r id allowRawIPs := by
  intro hclaim
  have hresolves := hclaim asciiLowering (.standalone [db]) (.row db) "Database" .displayName false
    (List.mem_singleton_self _) rfl database_legal (db_alone "Database")
  have hthrows : matchTarget asciiJs "Database" (accessibleHosts (.standalone [db])) false =
      .error ("No accessible host matches '" ++ "Database" ++ "'") := by decide
  cases hthrows.symm.trans hresolves

end Standalone

end JumpHost.Hosts
