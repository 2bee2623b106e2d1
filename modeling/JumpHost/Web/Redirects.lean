import JumpHost.Library.Url
import JumpHost.Library.Utf8

namespace JumpHost.Web.Redirects

open Url

section SearchParams

abbrev Params := List (List Char × List Char)

def hexValue (b : UInt8) : Option UInt8 :=
  if 0x30 ≤ b ∧ b ≤ 0x39 then some (b - 0x30)
  else if 0x41 ≤ b ∧ b ≤ 0x46 then some (b - 0x41 + 10)
  else if 0x61 ≤ b ∧ b ≤ 0x66 then some (b - 0x61 + 10)
  else none

def percentDecoded : List UInt8 → List UInt8
  | [] => []
  | [a] => [a]
  | [a,b] => [a,b]
  | a :: b :: c :: rest =>
      match a == 0x25,hexValue b,hexValue c with
      | true,some high,some low => (16 * high + low) :: percentDecoded rest
      | _,_,_ => a :: percentDecoded (b :: c :: rest)

def decoded (bytes : List UInt8) : List Char :=
  Utf8.decode (percentDecoded (bytes.map (fun b => if b == 0x2B then 0x20 else b)))

def withoutFirst (c : Char) (text : List Char) : List Char := if text.head? = some c then text.tail else text

-- `new URLSearchParams(init)`
def searchParams (init : List Char) : Params :=
  let bytes := (withoutFirst '?' init).flatMap String.utf8EncodeChar
  ((bytes.splitOn 0x26).filter (!·.isEmpty)).map fun pair =>
    (decoded (pair.takeWhile (· != 0x3D)),decoded ((pair.dropWhile (· != 0x3D)).tail))

def Params.get (params : Params) (name : String) : Option (List Char) :=
  (params.find? (·.1 = name.toList)).map (·.2)

-- `text || other`
def orText (text : Option (List Char)) (other : List Char) : List Char :=
  match text with
  | none | some [] => other
  | some text => text

-- `text.replace(pattern, '')`
def withoutPattern (pattern : List Char) : List Char → List Char
  | [] => []
  | c :: rest =>
      if pattern.isPrefixOf (c :: rest) then (c :: rest).drop pattern.length
      else c :: withoutPattern pattern rest

end SearchParams

section Redirecting

structure Location where
  hash : List Char
  pathname : List Char
  search : List Char
  href : List Char
  origin : List Char

inductive Step where
  | setToken (token : List Char)
  | replaceState (address : List Char)
  | assign (href : Rooted)

def root : Rooted := ⟨['/'],rfl⟩

def safeInternalPath (path : Option (List Char)) : Rooted :=
  match path with
  | none => root
  | some path =>
      if h : path.head? = some '/' ∧ path[1]? ≠ some '/' ∧ path[1]? ≠ some '\\' then ⟨path,h.1⟩ else root

def fragmentParams (location : Location) : Params := searchParams (withoutFirst '#' location.hash)

def redirectParam (location : Location) : List Char := orText ((fragmentParams location).get "redirect") ['/']

def tokenParam (location : Location) : List Char := orText ((fragmentParams location).get "token") []

def consumeTokenFragment (location : Location) : Bool × List Step :=
  if location.hash.isEmpty then (false,[])
  else if (tokenParam location).isEmpty then (false,[])
  else (true,[.setToken (tokenParam location),.replaceState (location.pathname ++ location.search),
    .assign (safeInternalPath (some (redirectParam location)))])

def target (location : Location) : List Char :=
  orText ((searchParams location.search).get "redirect")
    (orText (some (withoutPattern (location.origin ++ "/login".toList) location.href)) ['/'])

def logInRedirect (location : Location) : List Step := [.assign (safeInternalPath (some (target location)))]

end Redirecting

section Staying

variable {Host : Type*}

structure Browser (Host : Type*) extends Parser Host where
  rewritable : List Char → Bool

def Browser.destination (browser : Browser Host) (page : Origin Host) : List Step → Option (Origin Host)
  | [] => none
  | .setToken _ :: rest => browser.destination page rest
  | .replaceState address :: rest => if browser.rewritable address then browser.destination page rest else none
  | .assign href :: _ => resolve browser.toParser page href

def Slips (path authority : List Char) : Prop :=
  ∃ gap c tail, path = '/' :: (gap ++ c :: tail) ∧ gap ≠ [] ∧ (∀ g ∈ gap, tabOrNewline g = true) ∧ slash c = true ∧
    authority = (tidied tail).dropWhile slash

def Consumes (browser : Browser Host) (location : Location) : Prop :=
  location.hash ≠ [] ∧ tokenParam location ≠ [] ∧ browser.rewritable (location.pathname ++ location.search) = true

variable {browser : Browser Host} {page : Origin Host} {location : Location} {path authority : List Char}

theorem safeInternalPath_led (h : path.head? = some '/' ∧ path[1]? ≠ some '/' ∧ path[1]? ≠ some '\\') :
    (safeInternalPath (some path)).text = path := by
  simp only [safeInternalPath, dif_pos h]

theorem root_not_leads : ¬ Leads root.text authority := by
  rintro ⟨gap,c,tail,htext,-⟩
  have hlength := congrArg List.length htext
  simp [root] at hlength

theorem leads_iff_slips : Leads (safeInternalPath (some path)).text authority ↔ Slips path authority := by
  constructor
  · intro hleads
    by_cases hled : path.head? = some '/' ∧ path[1]? ≠ some '/' ∧ path[1]? ≠ some '\\'
    · rw [safeInternalPath_led hled] at hleads
      obtain ⟨gap,c,tail,rfl,hgap,hc,hauthority⟩ := hleads
      refine ⟨gap,c,tail,rfl,?_,hgap,hc,hauthority⟩
      rintro rfl
      obtain ⟨-,hslash,hback⟩ := hled
      simp only [slash, Bool.or_eq_true, decide_eq_true_eq] at hc
      rcases hc with rfl | rfl
      · exact hslash rfl
      · exact hback rfl
    · simp only [safeInternalPath, dif_neg hled] at hleads
      exact absurd hleads root_not_leads
  · rintro ⟨gap,c,tail,rfl,hgap,hdeleted,hc,hauthority⟩
    obtain ⟨g,gap,rfl⟩ := List.exists_cons_of_ne_nil hgap
    have hg : tabOrNewline g = true := hdeleted g List.mem_cons_self
    rw [safeInternalPath_led ⟨rfl,?_,?_⟩]
    · exact ⟨g :: gap,c,tail,rfl,hdeleted,hc,hauthority⟩
    · rintro h
      obtain rfl := Option.some.inj h
      exact absurd hg (by decide)
    · rintro h
      obtain rfl := Option.some.inj h
      exact absurd hg (by decide)

theorem destination_consume_iff :
    (∀ origin, browser.destination page (consumeTokenFragment location).2 = some origin → origin = page) ↔
      (Consumes browser location → ∀ authority, Slips (redirectParam location) authority →
        ∀ origin, Names browser.toParser authority origin → origin = page) := by
  unfold consumeTokenFragment
  by_cases hhash : location.hash = []
  · simp [hhash, Consumes, Browser.destination]
  · by_cases htoken : tokenParam location = []
    · simp [hhash, htoken, Consumes, Browser.destination]
    · rw [if_neg (mt List.isEmpty_iff.mp hhash), if_neg (mt List.isEmpty_iff.mp htoken)]
      by_cases hrewritable : browser.rewritable (location.pathname ++ location.search) = true
      · have hconsumes : Consumes browser location := ⟨hhash,htoken,hrewritable⟩
        simp only [Browser.destination, if_pos hrewritable, resolve_within_iff, leads_iff_slips, hconsumes,
          true_implies]
      · have hconsumes : ¬ Consumes browser location := fun h => hrewritable h.2.2
        simp [Browser.destination, hrewritable, hconsumes]

theorem destination_logIn_iff :
    (∀ origin, browser.destination page (logInRedirect location) = some origin → origin = page) ↔
      ∀ authority, Slips (target location) authority →
        ∀ origin, Names browser.toParser authority origin → origin = page := by
  simp only [logInRedirect, Browser.destination, resolve_within_iff, leads_iff_slips]

theorem redirects_stay_iff (browser : Browser Host) (page : Origin Host) (location : Location) (path : List Char) :
    (resolve browser.toParser page (safeInternalPath (some path)) = some page ↔
      ∀ authority, Slips path authority → Names browser.toParser authority page) ∧
    ((∀ origin, browser.destination page (consumeTokenFragment location).2 = some origin → origin = page) ↔
      (Consumes browser location → ∀ authority, Slips (redirectParam location) authority →
        ∀ origin, Names browser.toParser authority origin → origin = page)) ∧
    ((∀ origin, browser.destination page (logInRedirect location) = some origin → origin = page) ↔
      ∀ authority, Slips (target location) authority →
        ∀ origin, Names browser.toParser authority origin → origin = page) := by
  refine ⟨?_,destination_consume_iff,destination_logIn_iff⟩
  simp only [resolve_base_iff, leads_iff_slips]

def asciiBrowser : Browser (List Char) where
  defaultPort := 443
  host name := if name.all (fun c => c.isAlphanum || c == '.' || c == '-') then some (name.map Char.toLower) else none
  rewritable address := "/login".toList.isPrefixOf address

def jump : Origin (List Char) := ⟨"jump.test".toList,none⟩

def evil : Origin (List Char) := ⟨"evil.com".toList,none⟩

def login : Location where
  hash := "#token=t&redirect=/%09/evil.com".toList
  pathname := "/login".toList
  search := "?redirect=/%09/evil.com".toList
  href := "https://jump.test/login?redirect=/%09/evil.com#token=t&redirect=/%09/evil.com".toList
  origin := "https://jump.test".toList

theorem redirects_leave : evil ≠ jump ∧
    resolve asciiBrowser.toParser jump (safeInternalPath (some "/\t/evil.com".toList)) = some evil ∧
    asciiBrowser.destination jump (consumeTokenFragment login).2 = some evil ∧
    asciiBrowser.destination jump (logInRedirect login) = some evil := by
  refine ⟨?_,?_,?_,?_⟩
  · decide
  · decide
  · decide
  · decide

end Staying

end JumpHost.Web.Redirects
