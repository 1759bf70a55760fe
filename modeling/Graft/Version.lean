-- Semantic versions: three numbers, the identifiers of a pre-release, and the
-- identifiers of the build. They are totally ordered: a pre-release comes
-- before its release, numbers are compared as numbers, and where all else is
-- equal the build decides.
import Graft.Text.Lines

namespace Graft

/-- A semantic version. Identifiers are kept as they are written. -/
structure Version where
  major : Nat
  minor : Nat
  patch : Nat
  pre : List (List Char)
  build : List (List Char)
  deriving DecidableEq, Repr, Inhabited

namespace Version

/-- The release with these numbers. -/
def release (major minor patch : Nat) : Version := ⟨major, minor, patch, [], []⟩

/-- Identifiers with dots between them. -/
def dotted (ids : List (List Char)) : List Char := Text.joinWith ['.'] ids

/-- The identifiers behind their mark, or nothing if there are none. -/
def suffix (mark : Char) (ids : List (List Char)) : List Char :=
  if ids.isEmpty then [] else mark :: dotted ids

/-- A number in decimal. -/
def digits (n : Nat) : List Char := Nat.toDigits 10 n

def chars (v : Version) : List Char :=
  digits v.major ++ ['.'] ++ digits v.minor ++ ['.'] ++ digits v.patch ++
    suffix '-' v.pre ++ suffix '+' v.build

def text (v : Version) : String := String.ofList v.chars

/-! ## The order -/

/-- Characters by code point, from left to right. -/
def compareChars : List Char → List Char → Ordering
  | [], [] => .eq
  | [], _ :: _ => .lt
  | _ :: _, [] => .gt
  | a :: as, b :: bs => (compare a.toNat b.toNat).then (compareChars as bs)

def isNumeric (id : List Char) : Bool := id.all Char.isDigit

/-- Numbers without leading zeros: the longer one is greater. -/
def compareDigits (a b : List Char) : Ordering :=
  (compare a.length b.length).then (compareChars a b)

/-- A number comes before a word. -/
def comparePreId (a b : List Char) : Ordering :=
  match isNumeric a, isNumeric b with
  | true, true => compareDigits a b
  | true, false => .lt
  | false, true => .gt
  | false, false => compareChars a b

/-- As in a pre-release, but numbers may have leading zeros, which count last. -/
def compareBuildId (a b : List Char) : Ordering :=
  match isNumeric a, isNumeric b with
  | true, true =>
    (compareDigits (a.dropWhile (· == '0')) (b.dropWhile (· == '0'))).then
      (compare a.length b.length)
  | true, false => .lt
  | false, true => .gt
  | false, false => compareChars a b

/-- Lists item by item; a list that goes on is greater. -/
def compareIds (cmp : List Char → List Char → Ordering) :
    List (List Char) → List (List Char) → Ordering
  | [], [] => .eq
  | [], _ :: _ => .lt
  | _ :: _, [] => .gt
  | a :: as, b :: bs => (cmp a b).then (compareIds cmp as bs)

/-- A version without pre-release is greater than each of its pre-releases. -/
def comparePre (a b : List (List Char)) : Ordering :=
  match a, b with
  | [], [] => .eq
  | [], _ :: _ => .gt
  | _ :: _, [] => .lt
  | _, _ => compareIds comparePreId a b

def cmp (a b : Version) : Ordering :=
  (compare a.major b.major).then <| (compare a.minor b.minor).then <|
    (compare a.patch b.patch).then <| (comparePre a.pre b.pre).then <|
      compareIds compareBuildId a.build b.build

/-- `a` comes before `b`. -/
def before (a b : Version) : Bool := cmp a b == .lt

end Version
end Graft
