import MBootCore.Support.Digits
import Mathlib

/-!
# Sdk — Version

`SemanticVersion` of `sdk/src/Version.cpp`. A `std::string` is the list of its bytes, as
characters; `long` has 64 bits.
-/

namespace MBootCore

structure SemanticVersion where
  major : UInt32 := 0
  minor : UInt32 := 1
  patch : UInt32 := 0
  preRelease : List Char := []
  buildMetadata : List Char := []
  deriving DecidableEq, Repr

namespace SemanticVersion

open Digits

def toString (v : SemanticVersion) : List Char :=
  Nat.toDigits 10 v.major.toNat ++ '.' :: (Nat.toDigits 10 v.minor.toNat ++
    '.' :: (Nat.toDigits 10 v.patch.toNat ++
      ((if v.preRelease = [] then [] else '-' :: v.preRelease) ++
        (if v.buildMetadata = [] then [] else '+' :: v.buildMetadata))))

/-- What every text that is refused gives. -/
def failure : SemanticVersion := ⟨0, 0, 0, [], []⟩

/-! ## Reading a version -/

/-- The tokens of `std::getline`: there is none behind a delimiter at the end. -/
def getlines (text : List Char) : List (List Char) :=
  let parts := text.splitOn '.'
  if parts.getLast? = some [] then parts.dropLast else parts

/-- `std::strtol` of a token of digits. -/
def strtol (token : List Char) : Nat := min ((readDigits 10 0 token).getD 0) (2 ^ 63 - 1)

def isDigit (c : Char) : Bool := '0' ≤ c ∧ c ≤ '9'

def setPart (v : SemanticVersion) (part : Nat) (val : Nat) : SemanticVersion :=
  if part = 0 then { v with major := UInt32.ofNat val }
  else if part = 1 then { v with minor := UInt32.ofNat val }
  else if part = 2 then { v with patch := UInt32.ofNat val }
  else v

/-- The loop over the tokens, with the number of parts read so far. -/
def readParts (v : SemanticVersion) (part : Nat) : List (List Char) → Option (SemanticVersion × Nat)
  | [] => some (v, part)
  | token :: rest =>
    if part > 2 then none
    else if token = [] then none
    else if !token.all isDigit then none
    -- behind a token of digits, `end` is the end, and no value is negative
    else readParts (setPart v part (strtol token)) (part + 1) rest

def fromString (str : List Char) : SemanticVersion :=
  if str = [] then failure
  else
    let searchRange := str.takeWhile (· ≠ '+')
    let buildPart := (str.dropWhile (· ≠ '+')).drop 1
    let versionPart := searchRange.takeWhile (· ≠ '-')
    let prePart := (searchRange.dropWhile (· ≠ '-')).drop 1
    if versionPart = [] then failure
    else
      match readParts {} 0 (getlines versionPart) with
      | none => failure
      | some (v, part) =>
        if part ≠ 3 then failure
        else { v with preRelease := prePart, buildMetadata := buildPart }

/-! ## Comparison -/

/-- `-1`, `0` or `1`; the strings are compared byte by byte. -/
def compare (v other : SemanticVersion) : Int :=
  if v.major ≠ other.major then if v.major < other.major then -1 else 1
  else if v.minor ≠ other.minor then if v.minor < other.minor then -1 else 1
  else if v.patch ≠ other.patch then if v.patch < other.patch then -1 else 1
  else if v.preRelease = [] ∧ other.preRelease ≠ [] then 1
  else if v.preRelease ≠ [] ∧ other.preRelease = [] then -1
  else if v.preRelease ≠ other.preRelease then
    if v.preRelease < other.preRelease then -1 else 1
  else 0

end SemanticVersion

end MBootCore
