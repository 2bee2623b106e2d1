import JumpHost.Value

namespace JumpHost.Mesh

def MAX_SITE_ID : Int := 254

def MIN_SITE_ID : Int := 1

def MESH_PREFIX : String := "172.24.0"

def SHADOW_SLOTS : List Nat := [168,172]

def assertSiteId (siteId : Value) : Except String Int :=
  let refused := "site id must be an integer in [" ++ toString MIN_SITE_ID ++ ", " ++
    toString MAX_SITE_ID ++ "], got " ++ siteId.text
  match siteId.number with
  | .int id => if id < MIN_SITE_ID ∨ MAX_SITE_ID < id then .error refused else .ok id
  | _ => .error refused

theorem assertSiteId_ok {siteId : Value} {id : Int} (h : assertSiteId siteId = .ok id) :
    ∃ n : Nat, 1 ≤ n ∧ n ≤ 254 ∧ id = n ∧ siteId.number = .int n := by
  unfold assertSiteId at h
  split at h
  · next m hm =>
    split at h
    · cases h
    · next hrange =>
      cases h
      simp only [MIN_SITE_ID, MAX_SITE_ID, not_or, Int.not_lt] at hrange
      obtain ⟨n,rfl⟩ := Int.eq_ofNat_of_zero_le (show 0 ≤ id by omega)
      exact ⟨n,by omega,by omega,rfl,hm⟩
  · cases h

theorem map_assertSiteId_ok {α : Type} {siteId : Value} {f : Int → α} {a : α}
    (h : (assertSiteId siteId).map f = .ok a) : ∃ n : Nat, n ≤ 254 ∧ siteId.number = .int n ∧ a = f n := by
  cases hid : assertSiteId siteId with
  | error err =>
    rw [hid] at h
    cases h
  | ok id =>
    rw [hid] at h
    cases h
    obtain ⟨n,-,hn,rfl,hnumber⟩ := assertSiteId_ok hid
    exact ⟨n,hn,hnumber,rfl⟩

def meshAddress (siteId : Value) : Except String String :=
  (assertSiteId siteId).map fun id => MESH_PREFIX ++ "." ++ toString id ++ "/32"

def siteCidr (siteId : Value) : Except String String :=
  (assertSiteId siteId).map fun id => "10." ++ toString id ++ ".0.0/16"

def siteGatewayCidr (siteId : Value) : Except String String :=
  (assertSiteId siteId).map fun id => "10." ++ toString id ++ ".0.1/16"

def clientPoolCidr (siteId : Value) : Except String String :=
  (assertSiteId siteId).map fun id => "10." ++ toString id ++ ".128.0/17"

def peerAllowedIps (siteId : Value) : Except String (List String) := do
  let id ← assertSiteId siteId
  return [MESH_PREFIX ++ "." ++ toString id ++ "/32",← siteCidr siteId]

theorem peerAllowedIps_eq (siteId : Value) : peerAllowedIps siteId = (assertSiteId siteId).map fun id =>
    [MESH_PREFIX ++ "." ++ toString id ++ "/32","10." ++ toString id ++ ".0.0/16"] := by
  unfold peerAllowedIps siteCidr
  cases assertSiteId siteId with
  | error err => rfl
  | ok id => rfl

def hubAllowedIps : List String := ["10.0.0.0/8","172.24.0.0/16"]

-- the id goes into the shadow as it was given, not as the integer it was checked to be
def shadowCidr (siteId : Value) (slot : Nat) : Except String String :=
  match assertSiteId siteId with
  | .error err => .error err
  | .ok _ =>
      if SHADOW_SLOTS.contains slot then
        .ok ("10." ++ siteId.text ++ "." ++ toString slot ++ ".0/24")
      else .error ("shadow slot must be one of " ++ ", ".intercalate (SHADOW_SLOTS.map toString) ++
        ", got " ++ toString slot)

end JumpHost.Mesh
