/-
  Versions and their order. Three numbers come first; a version with pre-release identifiers is
  below the one without, and build identifiers decide between versions equal in all else.
-/

namespace ProductSpec

/-- A version: three numbers and the identifiers of a pre-release and of a build. -/
structure Version where
  major : Nat
  minor : Nat
  patch : Nat
  pre : List String
  build : List String
deriving DecidableEq, Repr, Inhabited

namespace Version

def isNumeric (identifier : String) : Bool := identifier.toList.all Char.isDigit

/-- Without leading zeros the number with more digits is the greater one. -/
def compareNumbers (a b : String) : Ordering :=
  (compare a.length b.length).then (compare a b)

/-- Numbers are below other identifiers. -/
def compareIdentifiers (numbers : String → String → Ordering) (a b : String) : Ordering :=
  match isNumeric a, isNumeric b with
  | true, true => numbers a b
  | true, false => .lt
  | false, true => .gt
  | false, false => compare a b

/-- Identifiers are compared one by one; what is a beginning of the other is below it. -/
def compareAll (one : String → String → Ordering) : List String → List String → Ordering
  | [], [] => .eq
  | [], _ :: _ => .lt
  | _ :: _, [] => .gt
  | a :: as, b :: bs => (one a b).then (compareAll one as bs)

def comparePre : List String → List String → Ordering
  | [], [] => .eq
  | [], _ :: _ => .gt
  | _ :: _, [] => .lt
  | as, bs => compareAll (compareIdentifiers compareNumbers) as bs

def withoutZeros (s : String) : String := String.ofList (s.toList.dropWhile (· == '0'))

/-- Leading zeros of a build number count only between equal numbers: fewer are below more. -/
def compareBuildNumbers (a b : String) : Ordering :=
  (compareNumbers (withoutZeros a) (withoutZeros b)).then (compare a.length b.length)

def compareBuild (as bs : List String) : Ordering :=
  compareAll (compareIdentifiers compareBuildNumbers) as bs

/-- The order of versions. -/
def order (a b : Version) : Ordering :=
  (compare a.major b.major).then <| (compare a.minor b.minor).then <|
    (compare a.patch b.patch).then <| (comparePre a.pre b.pre).then (compareBuild a.build b.build)

instance : Ord Version := ⟨order⟩

def isMajorBumpFrom (new old : Version) : Bool := old.major < new.major

def isMinorBumpFrom (new old : Version) : Bool :=
  new.major == old.major && old.minor < new.minor

def isPatchBumpFrom (new old : Version) : Bool :=
  new.major == old.major && new.minor == old.minor && old.patch < new.patch

def preText (v : Version) : String := ".".intercalate v.pre

def buildText (v : Version) : String := ".".intercalate v.build

def text (v : Version) : String :=
  toString v.major ++ "." ++ toString v.minor ++ "." ++ toString v.patch ++
    (if v.pre.isEmpty then "" else "-" ++ v.preText) ++
    (if v.build.isEmpty then "" else "+" ++ v.buildText)

end Version

end ProductSpec
