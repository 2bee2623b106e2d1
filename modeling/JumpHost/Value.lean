import JumpHost.Library.Rounding

namespace JumpHost

-- a JavaScript number: the integers, NaN, and every other double by its printed text, which has a point, an
-- exponent or is an infinity's
inductive Num where
  | nan
  | int (n : Int)
  | frac (text : String) (inexact : text.toList.any ['.','e','I'].contains = true)
deriving DecidableEq, Repr

def Num.truthy : Num → Bool
  | .nan => false
  | .int n => n != 0
  | .frac _ _ => true

def Num.text : Num → String
  | .nan => "NaN"
  | .int n => toString n
  | .frac text _ => text

def Num.nearest (n : Int) : Int := Rounding.int 53 n

-- `base + n`; of a sum that is no integer only that it is none is kept
def Num.above (n : Num) (base : Int) : Num :=
  match n with
  | .nan => .nan
  | .int m => .int (Num.nearest (base + m))
  | .frac text inexact => .frac (toString base ++ "+" ++ text) (by
      rw [String.toList_append, List.any_append, inexact, Bool.or_true])

-- `now - n`, in the same way
def Num.below (n : Num) (now : Int) : Num :=
  match n with
  | .nan => .nan
  | .int m => .int (Num.nearest (now - m))
  | .frac text inexact => .frac (toString now ++ "-" ++ text) (by
      rw [String.toList_append, List.any_append, inexact, Bool.or_true])

theorem Num.nearest_of_lt {n : Int} (h : n.natAbs < 2 ^ 53) : Num.nearest n = n := Rounding.int_of_natAbs_lt h

theorem Num.nearest_eq_iff {n k : Int} (h : k.natAbs < 2 ^ 53) : Num.nearest n = k ↔ n = k :=
  Rounding.int_eq_iff (by decide) h

-- a JSON value as the code sees it: `String(v)`, `Number(v)`, `!v`, and `v === null || v === undefined`
structure Value where
  text : String
  number : Num
  truthy : Bool
  nullish : Bool
deriving DecidableEq, Repr

def Value.undefined : Value := ⟨"undefined",.nan,false,true⟩

def Value.null : Value := ⟨"null",.int 0,false,true⟩

def Value.noText : Value := ⟨"",.int 0,false,false⟩

def Value.ofInt (n : Int) : Value := ⟨toString n,.int n,n != 0,false⟩

def Num.or (n : Num) (default : Num) : Num := if n.truthy then n else default

def truthy (s : Option String) : Bool := s.any (· != "")

-- `a || b || null` on strings
def firstTruthy : List (Option String) → Option String
  | [] => none
  | s :: rest => if truthy s then s else firstTruthy rest

theorem firstTruthy_ne_empty {ss : List (Option String)} {s : String}
    (h : firstTruthy ss = some s) : s ≠ "" := by
  induction ss with
  | nil => simp [firstTruthy] at h
  | cons t ss ih =>
    simp only [firstTruthy] at h
    split at h
    · next ht =>
      subst h
      simpa [truthy] using ht
    · exact ih h

structure Js where
  toLowerCase : String → String
  hostname : String → Option String

-- what the code does with numbers of every kind: `a > b`, and `now + days * 86400000`
structure Doubles where
  greater : Num → Num → Bool
  daysAfter : Int → Num → Num

def integers : Doubles where
  greater a b := match a, b with
    | .int m, .int n => m > n
    | _, _ => false
  daysAfter now days := match days with
    | .int n => .int (now + n * 86400000)
    | n => n

end JumpHost
