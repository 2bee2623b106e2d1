import JumpHost.Value
import JumpHost.Ssh.UsernameGrammar

namespace JumpHost.TargetMatch

open UsernameGrammar

structure Metadata where
  ip : Option String := none
  address : Option String := none
  sshPort : Value := .undefined
  sshHostKeyFp : Option String := none
deriving DecidableEq

structure Host where
  slug : Option String
  name : Option String := none
  metadata : Option Metadata := none
deriving DecidableEq

structure Endpoint where
  address : Option String
  port : Num
deriving DecidableEq

structure Matched where
  host : Option Host
  raw : Option String
deriving DecidableEq

variable (js : Js)

def addrHost (address : Option String) : Option String :=
  match address with
  | none => none
  | some a =>
      if a = "" then none
      else
        let url := if (indexOf "://".toList a.toList).isSome then a else "ssh://" ++ a
        some ((js.hostname url).getD a)

def isNamed (name : Option String) (t : String) : Bool :=
  truthy name && name.any (fun s => js.toLowerCase s == t)

def matchTarget (target : String) (hosts : List Host) (allowRawIPs : Bool) :
    Except String Matched :=
  let t := js.toLowerCase target
  match hosts.find? (fun h => isNamed js h.slug t) with
  | some h => .ok ⟨some h,none⟩
  | none => match hosts.find? (fun h => isNamed js h.slug ("host_" ++ t)) with
    | some h => .ok ⟨some h,none⟩
    | none => match hosts.find? (fun h => isNamed js h.name t) with
      | some h => .ok ⟨some h,none⟩
      | none => match hosts.find? (fun h => h.metadata.any (fun md => md.ip == some target)) with
        | some h => .ok ⟨some h,none⟩
        | none => match hosts.find? (fun h =>
              isNamed js (addrHost js (h.metadata.bind Metadata.address)) t) with
          | some h => .ok ⟨some h,none⟩
          | none =>
              if isIPv4 target && allowRawIPs then .ok ⟨none,some target⟩
              else .error ("No accessible host matches '" ++ target ++ "'")

def hostEndpoint (host : Host) (defaultPort : Num) : Endpoint :=
  let md := host.metadata.getD {}
  ⟨firstTruthy [md.ip,addrHost js md.address],md.sshPort.number.or defaultPort⟩

theorem hostEndpoint_truthy {host : Host} {port : Num} :
    truthy (hostEndpoint js host port).address = true ↔
      (hostEndpoint js host port).address ≠ none := by
  cases ha : (hostEndpoint js host port).address with
  | none => simp [truthy]
  | some a =>
    have hne : a ≠ "" := firstTruthy_ne_empty ha
    simp [truthy, hne]

end JumpHost.TargetMatch
