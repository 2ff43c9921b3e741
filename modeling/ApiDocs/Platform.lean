import ApiDocs.Text.Blank
import ApiDocs.Text.Lines

/-!
# Platforms

A pass documents its sources for one platform and a list of targets.  The text form `jvm[jvm,android]`
names the pair wherever a text is needed.
-/

namespace ApiDocs

inductive Platform where
  | jvm
  | js
  | native
  | common
deriving DecidableEq

/-- Why a text names no platform. -/
inductive PlatformError where
  | unknownPlatform (name : String)
  | unclosedTargets (text : String)
deriving DecidableEq

namespace PlatformError

def message : PlatformError → String
  | unknownPlatform name => "Unknown platform: " ++ name
  | unclosedTargets text => "Malformed platform data: " ++ text

end PlatformError

namespace Platform

def display : Platform → String
  | jvm => "jvm"
  | js => "js"
  | native => "native"
  | common => "common"

/-- The place of a platform in the order of platforms. -/
def rank : Platform → Nat
  | jvm => 0
  | js => 1
  | native => 2
  | common => 3

theorem rank_injective {first second : Platform} (same : first.rank = second.rank) :
    first = second := by
  cases first <;> cases second <;> simp_all [rank]

/-- The platform a text names, whatever blanks surround it and however its ASCII letters are cased. -/
def parse (text : List Char) : Except PlatformError Platform :=
  match String.ofList ((Text.trim text).map Char.toLower) with
  | "jvm" => .ok jvm
  | "js" => .ok js
  | "native" => .ok native
  | "common" => .ok common
  | other => .error (.unknownPlatform other)

end Platform

/-- A platform together with the targets that a pass documents for it. -/
structure PlatformData where
  platform : Platform
  targets : List String
deriving DecidableEq

namespace PlatformData

/-- Platforms come first in the order, and then the lists of targets. -/
instance : Ord PlatformData where
  compare := compareLex (compareOn fun data => data.platform.rank) (compareOn PlatformData.targets)

instance : Std.TransOrd PlatformData :=
  inferInstanceAs (Std.TransCmp
    (compareLex (compareOn fun data : PlatformData => data.platform.rank)
      (compareOn PlatformData.targets)))

instance : Std.LawfulEqOrd PlatformData where
  eq_of_compare {first second} same := by
    obtain ⟨ranks, targets⟩ := compareLex_eq_eq.mp same
    obtain ⟨platform, list⟩ := first
    obtain ⟨other, otherList⟩ := second
    cases Platform.rank_injective (Std.LawfulEqCmp.eq_of_compare ranks)
    cases (Std.LawfulEqCmp.eq_of_compare targets : list = otherList)
    rfl

/-- The platform and, in brackets, its targets between commas. -/
def display (data : PlatformData) : String :=
  data.platform.display ++ "[" ++ String.intercalate "," data.targets ++ "]"

/-- The targets in the text between the brackets: trimmed, and without empty ones. -/
def parseTargets (text : List Char) : List String :=
  (((text.splitOn ',').map Text.trim).filter (· ≠ [])).map String.ofList

/-- Read a platform with or without a bracketed list of targets. -/
def parse (text : String) : Except PlatformError PlatformData :=
  match Text.cutAt? '[' text.toList with
  | none => return ⟨← Platform.parse text.toList, []⟩
  | some (name, bracketed) =>
      match Text.withoutTail? [']'] bracketed with
      | none => .error (.unclosedTargets text)
      | some inner => return ⟨← Platform.parse name, parseTargets inner⟩

end PlatformData

end ApiDocs
