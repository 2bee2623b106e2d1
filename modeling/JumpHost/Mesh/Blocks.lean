import JumpHost.Library.Quad
import JumpHost.Mesh.Addressing

namespace JumpHost.Mesh

section Texts

variable {n : Nat}

theorem quad_four (a b c d : Nat) : Net.quad [a,b,c,d] = Nat.toDigits 10 a ++ '.' :: (Nat.toDigits 10 b ++
    '.' :: (Nat.toDigits 10 c ++ '.' :: Nat.toDigits 10 d)) := by
  simp [Net.quad, List.intercalate_cons_cons]

theorem octets_site (h : n ≤ 254) {c d : Nat} (hc : c < 256) (hd : d < 256) : Octets 10 n c d :=
  ⟨by decide,by omega,hc,hd⟩

theorem parse_site (h : n ≤ 254) :
    Net.parse ("10." ++ toString (n : Int) ++ ".0.0/16") = some (Net.block [10,n]) := by
  have htext : ("10." ++ toString (n : Int) ++ ".0.0/16").toList =
      Net.quad [10,n,0,0] ++ '/' :: Nat.toDigits 10 16 := by
    simp only [String.toList_append, Text.toList_int, quad_four]
    simp
    rfl
  rw [(Net.parse_quad (octets_site h (by decide) (by decide)) (by decide) htext).1]
  exact congrArg some (ofAddr_quad 10 n 0 0 2)

theorem parse_gateway (h : n ≤ 254) :
    Net.parse (MESH_PREFIX ++ "." ++ toString (n : Int) ++ "/32") = some (Net.block [172,24,0,n]) := by
  have hoctets : Octets 172 24 0 n := ⟨by decide,by decide,by decide,by omega⟩
  have htext : (MESH_PREFIX ++ "." ++ toString (n : Int) ++ "/32").toList =
      Net.quad [172,24,0,n] ++ '/' :: Nat.toDigits 10 32 := by
    simp only [MESH_PREFIX, String.toList_append, Text.toList_int, quad_four]
    simp
    rfl
  rw [(Net.parse_quad hoctets (by decide) htext).1]
  exact congrArg some (ofAddr_quad 172 24 0 n 4)

theorem parse_pool (h : n ≤ 254) :
    Net.parse ("10." ++ toString (n : Int) ++ ".128.0/17") = some (Net.ofAddr (.quad 10 n 128 0) 17) := by
  have htext : ("10." ++ toString (n : Int) ++ ".128.0/17").toList =
      Net.quad [10,n,128,0] ++ '/' :: Nat.toDigits 10 17 := by
    simp only [String.toList_append, Text.toList_int, quad_four]
    simp
    rfl
  exact (Net.parse_quad (octets_site h (by decide) (by decide)) (by decide) htext).1

theorem parse_hub : Net.parse "10.0.0.0/8" = some (Net.block [10]) ∧
    Net.parse "172.24.0.0/16" = some (Net.block [172,24]) := by
  constructor <;> decide +kernel

end Texts

section Pool

variable {siteId : Value} {ip : String} {n a b c d : Nat}

def Pooled (siteId : Value) (ip : String) : Prop := ∃ pool net x, clientPoolCidr siteId = .ok pool ∧
  Net.parse pool = some net ∧ Text.addr ip.toList = some x ∧ net.contains x = true

theorem contains_pool (h : n ≤ 254) (hx : Octets a b c d)
    (hin : (Net.ofAddr (.quad 10 n 128 0) 17).contains (.quad a b c d) = true) : a = 10 ∧ b = n := by
  have hlen : 17 ≤ (Addr.quad 10 n 128 0).family.width := Nat.le_of_ble_eq_true rfl
  obtain ⟨hfamily,hbits⟩ := (Net.contains_ofAddr hlen).mp hin
  have hsite : (Net.ofAddr (.quad 10 n 128 0) (8 * 2)).contains (.quad a b c d) = true := by
    refine (Net.contains_ofAddr (Nat.le_trans (by decide) hlen)).mpr ⟨hfamily,?_⟩
    have htake := congrArg (List.take 16) hbits
    rwa [List.take_take, List.take_take] at htake
  rw [Net.contains_quad (octets_site h (by decide) (by decide)) hx (by decide)] at hsite
  obtain ⟨hten,hsite⟩ := List.cons.inj hsite
  exact ⟨hten.symm,(List.cons.inj hsite).1.symm⟩

theorem clientPoolCidr_ok {pool : String} (h : clientPoolCidr siteId = .ok pool) :
    ∃ n : Nat, n ≤ 254 ∧ siteId.number = .int n ∧ pool = "10." ++ toString (n : Int) ++ ".128.0/17" :=
  map_assertSiteId_ok h

theorem Pooled.quad (h : Pooled siteId ip) : ∃ n c d : Nat, n ≤ 254 ∧ siteId.number = .int n ∧ Octets 10 n c d ∧
    ip.toList = Net.quad [10,n,c,d] := by
  obtain ⟨pool,net,x,hpool,hparse,hx,hin⟩ := h
  obtain ⟨n,hn,hnumber,rfl⟩ := clientPoolCidr_ok hpool
  obtain rfl := Option.some.inj ((parse_pool hn).symm.trans hparse)
  have hv4 : x.family = .v4 := ((Net.contains_ofAddr (Nat.le_of_ble_eq_true rfl)).mp hin).1.symm
  obtain ⟨a,b,c,d,hoctets,htext,rfl⟩ := addr_text hx hv4
  obtain ⟨rfl,rfl⟩ := contains_pool hn hoctets hin
  exact ⟨_,c,d,hn,hnumber,hoctets,htext⟩

theorem parse_device (h : Octets a b c d) (hip : ip.toList = Net.quad [a,b,c,d]) :
    Net.parse (ip ++ "/32") = some (Net.block [a,b,c,d]) := by
  rw [Net.parse_dotted h hip, host_quad]

theorem pooled_of_quad (hid : assertSiteId siteId = .ok (n : Int))
    (hn : n ≤ 254) (hip : Text.addr ip.toList = some (.quad 10 n c d))
    (hin : (Net.ofAddr (.quad 10 n 128 0) 17).contains (.quad 10 n c d) = true) : Pooled siteId ip := by
  refine ⟨_,_,_,?_,parse_pool hn,hip,hin⟩
  rw [clientPoolCidr, hid]
  rfl

end Pool

end JumpHost.Mesh
