import JumpHost.Mesh.Readback

namespace JumpHost.Mesh

open AuditEvent (isSpace isDigit_of_isSpace)

section Reader

structure PeerStatus where
  endpoint : Option String
  latestHandshake : Nat
  handshakeAgeSeconds : Option Nat
  rxBytes : Nat
  txBytes : Nat
deriving DecidableEq

-- `Number(text) || 0`, of the digits the counters are printed in
def counter (text : List Char) : Nat :=
  if text ≠ [] ∧ text.all Char.isDigit = true then Rounding.nat 53 (Nat.ofDigitChars 10 text 0) else 0

-- one line of `wg show <name> dump`; `now - handshake` is cut off at nought
def peerOf (now : Nat) (line : List Char) : Option (String × PeerStatus) :=
  match line.splitOn '\t' with
  | key :: _ :: endpoint :: _ :: handshake :: rx :: tx :: _ =>
    let latestHandshake := counter handshake
    some (String.ofList key,{
      endpoint := if endpoint = "(none)".toList then none else some (String.ofList endpoint)
      latestHandshake
      handshakeAgeSeconds := if latestHandshake = 0 then none else some (now - latestHandshake)
      rxBytes := counter rx
      txBytes := counter tx })
  | _ => none

def peersOf (now : Nat) (out : String) : OrdMap String PeerStatus :=
  (((Scan.trim isSpace out.toList).splitOn '\n').drop 1).filterMap (peerOf now)
    |>.foldl (fun found peer => found.set peer.1 peer.2) .empty

end Reader

section Printer

structure WgShow where
  publicKey : String
  fwmark : String
  presharedKey : String → String
  latestHandshake : String → UInt64
  rx : String → UInt64
  tx : String → UInt64

def orNone (text : Option String) : List Char := (text.getD "(none)").toList

def WgPeer.allowed (p : WgPeer) : List Char :=
  if p.allowedIPs = [] then "(none)".toList else [','].intercalate (p.allowedIPs.map fun net => net.cidr.toList)

def WgShow.peerFields (shown : WgShow) (key : String) (p : WgPeer) : List (List Char) :=
  [key.toList,(shown.presharedKey key).toList,orNone p.endpoint,p.allowed,
    Nat.toDigits 10 (shown.latestHandshake key).toNat,Nat.toDigits 10 (shown.rx key).toNat,
    Nat.toDigits 10 (shown.tx key).toNat,
    if p.keepalive = 0 then "off".toList else Nat.toDigits 10 p.keepalive]

def WgShow.ifaceFields (shown : WgShow) (port : String) (l : Link) : List (List Char) :=
  [orNone l.privateKey,shown.publicKey.toList,port.toList,shown.fwmark.toList]

def WgShow.rows (shown : WgShow) (port : String) (l : Link) : List (List (List Char)) :=
  shown.ifaceFields port l :: l.peers.entries.map fun e => shown.peerFields e.1 e.2

def WgShow.dump (shown : WgShow) (port : String) (l : Link) : String :=
  String.ofList (['\n'].intercalate ((shown.rows port l).map ['\t'].intercalate) ++ ['\n'])

structure Printable (shown : WgShow) (port : String) (l : Link) : Prop where
  privateKey : Scan.Field isSpace (orNone l.privateKey)
  publicKey : Scan.Field isSpace shown.publicKey.toList
  port : Scan.Field isSpace port.toList
  fwmark : Scan.Field isSpace shown.fwmark.toList
  key : ∀ key ∈ l.peers.keys, Scan.Field isSpace key.toList
  presharedKey : ∀ key ∈ l.peers.keys, Scan.Field isSpace (shown.presharedKey key).toList
  endpoint : ∀ e ∈ l.peers.entries, Scan.Field isSpace (orNone e.2.endpoint)
  named : ∀ e ∈ l.peers.entries, e.2.endpoint ≠ some "(none)"

theorem printable_iff {shown : WgShow} {port : String} {l : Link} : Printable shown port l ↔
    Scan.Field isSpace (orNone l.privateKey) ∧ Scan.Field isSpace shown.publicKey.toList ∧
    Scan.Field isSpace port.toList ∧ Scan.Field isSpace shown.fwmark.toList ∧
    (∀ key ∈ l.peers.keys, Scan.Field isSpace key.toList) ∧
    (∀ key ∈ l.peers.keys, Scan.Field isSpace (shown.presharedKey key).toList) ∧
    (∀ e ∈ l.peers.entries, Scan.Field isSpace (orNone e.2.endpoint)) ∧
    ∀ e ∈ l.peers.entries, e.2.endpoint ≠ some "(none)" :=
  ⟨fun h => ⟨h.privateKey,h.publicKey,h.port,h.fwmark,h.key,h.presharedKey,h.endpoint,h.named⟩,
    fun ⟨h₁,h₂,h₃,h₄,h₅,h₆,h₇,h₈⟩ => ⟨h₁,h₂,h₃,h₄,h₅,h₆,h₇,h₈⟩⟩

instance (shown : WgShow) (port : String) (l : Link) : Decidable (Printable shown port l) :=
  decidable_of_iff _ printable_iff.symm

def counted (n : UInt64) : Nat := Rounding.nat 53 n.toNat

def WgShow.status (shown : WgShow) (now : Nat) (key : String) (p : WgPeer) : PeerStatus where
  endpoint := p.endpoint
  latestHandshake := counted (shown.latestHandshake key)
  handshakeAgeSeconds :=
    if counted (shown.latestHandshake key) = 0 then none else some (now - counted (shown.latestHandshake key))
  rxBytes := counted (shown.rx key)
  txBytes := counted (shown.tx key)

end Printer

section RoundTrip

variable {shown : WgShow} {port : String} {l : Link} {p : WgPeer} {key : String}

theorem field_digits (n : Nat) : Scan.Field isSpace (Nat.toDigits 10 n) := ⟨Nat.toDigits_ne_nil,toDigits_plain n⟩

theorem counter_digits (n : Nat) : counter (Nat.toDigits 10 n) = Rounding.nat 53 n := by
  have hdigits : (Nat.toDigits 10 n).all Char.isDigit = true :=
    List.all_eq_true.mpr fun _ hc => Nat.isDigit_of_mem_toDigits (by decide) (by decide) hc
  rw [counter, if_pos ⟨Nat.toDigits_ne_nil,hdigits⟩]
  rw [Nat.ofDigitChars_ten_toDigits]

theorem cidr_plain (net : Net) : ∀ c ∈ net.cidr.toList, isSpace c = false := by
  intro c hc
  by_contra hspace
  rw [Bool.not_eq_false] at hspace
  have hdigit := isDigit_of_isSpace hspace
  refine Net.not_mem_of_parse (Net.parse_cidr net) ?_ hc
  rw [Text.allowed, hdigit, Bool.false_or, List.contains_eq_mem, decide_eq_false_iff_not]
  intro hmem
  have hall : ∀ d ∈ "abcdefABCDEF.:/".toList, isSpace d = false := Scan.plain_of_all (by decide)
  rw [hall c hmem] at hspace
  cases hspace

theorem field_allowed (p : WgPeer) : Scan.Field isSpace p.allowed := by
  unfold WgPeer.allowed
  split
  · exact ⟨by decide,Scan.plain_of_all (by decide)⟩
  · next hne =>
    have hparts : p.allowedIPs.map (fun net => net.cidr.toList) ≠ [] := mt List.map_eq_nil_iff.mp hne
    refine ⟨?_,fun c hc => ?_⟩
    · obtain ⟨cs,hcs⟩ := Scan.intercalate_head ',' hparts
      rw [hcs, List.head_map, Net.toList_cidr]
      simp
    · rcases Net.mem_intercalate hc with rfl | ⟨part,hpart,hmem⟩
      · rfl
      · obtain ⟨net,-,rfl⟩ := List.mem_map.mp hpart
        exact cidr_plain net c hmem

theorem field_peer (h : Printable shown port l) {e : String × WgPeer} (he : e ∈ l.peers.entries) :
    ∀ field ∈ shown.peerFields e.1 e.2, Scan.Field isSpace field := by
  have hkey : e.1 ∈ l.peers.keys := List.mem_map_of_mem he
  have hkeepalive : Scan.Field isSpace (if e.2.keepalive = 0 then "off".toList else Nat.toDigits 10 e.2.keepalive) := by
    split
    · exact ⟨by decide,Scan.plain_of_all (by decide)⟩
    · exact field_digits _
  simp only [WgShow.peerFields, List.forall_mem_cons, List.not_mem_nil, false_implies, implies_true, and_true]
  exact ⟨h.key _ hkey,h.presharedKey _ hkey,h.endpoint e he,field_allowed e.2,field_digits _,field_digits _,
    field_digits _,hkeepalive⟩

theorem field_row (h : Printable shown port l) : ∀ row ∈ shown.rows port l,
    row ≠ [] ∧ ∀ field ∈ row, Scan.Field isSpace field := by
  intro row hrow
  rcases List.mem_cons.mp hrow with rfl | hrow
  · simp only [WgShow.ifaceFields, List.forall_mem_cons, List.not_mem_nil, false_implies, implies_true, and_true]
    exact ⟨List.cons_ne_nil _ _,h.privateKey,h.publicKey,h.port,h.fwmark⟩
  · obtain ⟨e,he,rfl⟩ := List.mem_map.mp hrow
    exact ⟨List.cons_ne_nil _ _,field_peer h he⟩

theorem splitOn_row (h : Printable shown port l) {row : List (List Char)} (hrow : row ∈ shown.rows port l) :
    (['\t'].intercalate row).splitOn '\t' = row :=
  List.splitOn_intercalate '\t' (fun field hfield => ((field_row h row hrow).2 field hfield).not_mem (by decide))
    (field_row h row hrow).1

theorem row_newline (h : Printable shown port l) {row : List (List Char)} (hrow : row ∈ shown.rows port l) :
    '\n' ∉ ['\t'].intercalate row := by
  intro hmem
  rcases Net.mem_intercalate hmem with heq | ⟨field,hfield,hc⟩
  · cases heq
  · exact ((field_row h row hrow).2 field hfield).not_mem (by decide) hc

theorem trim_dump (h : Printable shown port l) : Scan.trim isSpace (shown.dump port l).toList =
    ['\n'].intercalate ((shown.rows port l).map ['\t'].intercalate) := by
  have hne : (shown.rows port l).map ['\t'].intercalate ≠ [] := List.cons_ne_nil _ _
  obtain ⟨tail,hhead⟩ := Scan.intercalate_head '\n' hne
  obtain ⟨front,hlast⟩ := Scan.intercalate_last '\n' hne
  have hrows : shown.rows port l ≠ [] := List.cons_ne_nil _ _
  have hfirst := field_row h _ (List.head_mem hrows)
  have hfinal := field_row h _ (List.getLast_mem hrows)
  obtain ⟨more,hrow⟩ := Scan.intercalate_head '\t' hfirst.1
  obtain ⟨before,hend⟩ := Scan.intercalate_last '\t' hfinal.1
  rw [WgShow.dump, String.toList_ofList]
  refine Scan.trim_append ?_ ?_ ?_ (List.all_eq_true.mp (by decide))
  · rw [hhead, List.head_map, hrow, List.append_assoc]
    exact (hfirst.2 _ (List.head_mem hfirst.1)).ends _
  · rw [hlast, List.getLast_map, hend, List.reverse_append, List.reverse_append, List.append_assoc]
    exact (hfinal.2 _ (List.getLast_mem hfinal.1)).reverse.ends _
  · rw [hhead, List.head_map, hrow]
    simp [(hfirst.2 _ (List.head_mem hfirst.1)).nonempty]

theorem peerOf_row (h : Printable shown port l) (now : Nat) {e : String × WgPeer} (he : e ∈ l.peers.entries) :
    peerOf now (['\t'].intercalate (shown.peerFields e.1 e.2)) = some (e.1,shown.status now e.1 e.2) := by
  have hrow : shown.peerFields e.1 e.2 ∈ shown.rows port l :=
    List.mem_cons_of_mem _ (List.mem_map_of_mem (f := fun e => shown.peerFields e.1 e.2) he)
  have hendpoint : (if orNone e.2.endpoint = "(none)".toList then none
      else some (String.ofList (orNone e.2.endpoint))) = e.2.endpoint := by
    cases hend : e.2.endpoint with
    | none => rfl
    | some text =>
      have hne : text.toList ≠ "(none)".toList := fun heq =>
        h.named e he (hend.trans (congrArg some (String.toList_inj.mp heq)))
      rw [orNone, Option.getD_some, if_neg hne, String.ofList_toList]
  rw [peerOf, splitOn_row h hrow]
  simp only [WgShow.peerFields, counter_digits, String.ofList_toList, hendpoint]
  rfl

theorem entries_foldl_set {κ ν : Type} [DecidableEq κ] (es : List (κ × ν)) : ∀ m : OrdMap κ ν,
    (m.entries ++ es).Pairwise (fun e e' => e.1 ≠ e'.1) →
      (es.foldl (fun found e => found.set e.1 e.2) m).entries = m.entries ++ es := by
  induction es with
  | nil => simp
  | cons e es ih =>
    intro m hdistinct
    have hnew : e.1 ∉ m.keys := by
      intro hmem
      obtain ⟨e',he',heq⟩ := List.mem_map.mp hmem
      exact (List.pairwise_append.mp hdistinct).2.2 e' he' e List.mem_cons_self heq
    have hset : (m.set e.1 e.2).entries = m.entries ++ [e] := by
      unfold OrdMap.set
      rw [dif_neg hnew]
    rw [List.foldl_cons, ih (m.set e.1 e.2) (by rw [hset, List.append_assoc]; exact hdistinct), hset,
      List.append_assoc]
    rfl

theorem peersOf_dump (h : Printable shown port l) (now : Nat) :
    (peersOf now (shown.dump port l)).entries = l.peers.entries.map fun e => (e.1,shown.status now e.1 e.2) := by
  have hne : (shown.rows port l).map ['\t'].intercalate ≠ [] := List.cons_ne_nil _ _
  have hlines : ∀ line ∈ (shown.rows port l).map ['\t'].intercalate, '\n' ∉ line := by
    intro line hline
    obtain ⟨row,hrow,rfl⟩ := List.mem_map.mp hline
    exact row_newline h hrow
  have hread : l.peers.entries.filterMap (fun e => peerOf now (['\t'].intercalate (shown.peerFields e.1 e.2))) =
      l.peers.entries.map fun e => (e.1,shown.status now e.1 e.2) := by
    rw [← List.filterMap_eq_map]
    exact List.filterMap_congr fun e he => peerOf_row h now he
  have hdistinct : (l.peers.entries.map fun e => (e.1,shown.status now e.1 e.2)).Pairwise
      fun e e' => e.1 ≠ e'.1 := by
    rw [List.pairwise_map]
    exact List.pairwise_map.mp l.peers.nodup
  rw [peersOf, trim_dump h, List.splitOn_intercalate '\n' hlines hne, WgShow.rows, List.map_cons, List.drop_succ_cons,
    List.drop_zero, List.map_map, List.filterMap_map]
  have hfold := entries_foldl_set (l.peers.entries.map fun e => (e.1,shown.status now e.1 e.2)) .empty hdistinct
  rw [← hread] at hfold ⊢
  exact hfold

end RoundTrip

end JumpHost.Mesh
