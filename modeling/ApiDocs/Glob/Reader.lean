import ApiDocs.Glob

/-!
# Reading globs

A glob is read from left to right.  A backslash takes the special meaning from the character behind it, and
two stars stand for names only where they fill the place between slashes.
-/

namespace ApiDocs

/-- What is wrong with the text of a glob. -/
inductive GlobError where
  | unclosedClass
  | invalidRange (lower upper : Char)
  | unopenedGroup
  | unclosedGroup
  | danglingEscape
deriving DecidableEq

namespace GlobError

def message : GlobError → String
  | unclosedClass => "unclosed character class; missing ']'"
  | invalidRange lower upper =>
      "invalid range; '" ++ lower.toString ++ "' > '" ++ upper.toString ++ "'"
  | unopenedGroup =>
      "unopened alternate group; missing '\x7b' (maybe escape '\x7d' with '[\x7d]'?)"
  | unclosedGroup =>
      "unclosed alternate group; missing '\x7d' (maybe escape '\x7b' with '[\x7b]'?)"
  | danglingEscape => "dangling '\\'"

end GlobError

namespace Glob

/-- The ranges of a class from the range read last.  A dash extends that range, unless the class ends
behind the dash. -/
def extendRange (range : Char × Char) : List Char → Except GlobError (List (Char × Char))
  | [] => .ok [range]
  | ['-'] => .ok [range, ('-', '-')]
  | '-' :: upper :: rest =>
      if upper < range.1 then .error (.invalidRange range.1 upper)
      else extendRange (range.1, upper) rest
  | char :: rest => do
      return range :: (← extendRange (char, char) rest)

/-- The class whose text follows an opening bracket, and the text behind it.  The first character of a
class is always one of its members. -/
def readClass (text : List Char) : Except GlobError (GlobToken × List Char) :=
  let (negated, members) := match text with
    | '!' :: rest => (true, rest)
    | '^' :: rest => (true, rest)
    | text => (false, text)
  match members with
  | [] => .error .unclosedClass
  | first :: rest =>
      match Text.cutAt? ']' rest with
      | some (others, behind) => do
          return (.oneOf negated (← extendRange (first, first) others), behind)
      | none => do
          let _ ← extendRange (first, first) rest
          throw .unclosedClass

/-- A class takes at least a character of the text. -/
theorem length_of_readClass {text behind : List Char} {token : GlobToken}
    (read : readClass text = .ok (token, behind)) : behind.length < text.length := by
  unfold readClass at read
  obtain ⟨negated, members, split, shorter⟩ : ∃ negated members,
      (match text with
        | '!' :: rest => (true, rest)
        | '^' :: rest => (true, rest)
        | text => (false, text)) = (negated, members) ∧ members.length ≤ text.length := by
    split <;> exact ⟨_, _, rfl, by simp⟩
  rw [split] at read
  cases members with
  | nil => simp at read
  | cons first rest =>
      simp only at read
      split at read
      next others after cut =>
        cases ranges : extendRange (first, first) others with
        | error reason => simp [ranges, bind, Except.bind] at read
        | ok ranges' =>
            simp only [ranges, bind, Except.bind, pure, Except.pure, Except.ok.injEq,
              Prod.mk.injEq] at read
            have whole := congrArg List.length (Text.eq_of_cutAt? cut)
            simp only [List.length_append, List.length_cons] at whole shorter
            rw [← read.2]
            omega
      next =>
        cases ranges : extendRange (first, first) rest <;>
          simp [ranges, bind, Except.bind, throw, throwThe, MonadExceptOf.throw] at read

/-- A group that is being read: the glob before it and its branches that are complete, the last ones
first. -/
structure OpenGroup where
  before : List GlobToken
  branches : List Glob

/-- A glob that is being read, the last token first. -/
structure Draft where
  /-- The character read last. -/
  previous : Option Char
  tokens : List GlobToken
  /-- The groups around the tokens, the innermost first. -/
  groups : List OpenGroup
  /-- Whether an opening bracket is a character like others. -/
  plainBrackets : Bool

namespace Draft

def empty : Draft :=
  ⟨none, [], [], false⟩

def push (draft : Draft) (token : GlobToken) (previous : Char) : Draft :=
  { draft with tokens := token :: draft.tokens, previous := some previous }

/-- Two stars that do not stand between slashes are like one star each. -/
def pushStars (draft : Draft) : Draft :=
  (draft.push .anyName '*').push .anyName '*'

/-- Replace the last token, a slash, by names; names that are there already stay. -/
def replaceSlash (draft : Draft) (names : GlobToken) (previous : Char) : Draft :=
  match draft.tokens with
  | .leadingNames :: _ | .trailingNames :: _ => { draft with previous := some previous }
  | _ :: before => { draft with tokens := names :: before, previous := some previous }
  | [] => { draft with tokens := [names], previous := some previous }

/-- Read two stars before the given text; tells whether the slash behind the stars is read with them. -/
def doubleStar (draft : Draft) (following : Option Char) : Draft × Bool :=
  let startsGroup := draft.groups ≠ [] ∧ (draft.previous = some ',' ∨ draft.previous = some '\x7b')
  let endsBranch := draft.groups ≠ [] ∧ (following = some ',' ∨ following = some '\x7d')
  if draft.tokens.isEmpty then
    match following with
    | none => (draft.push .leadingNames '*', false)
    | some '/' => (draft.push .leadingNames '/', true)
    | some _ => (draft.pushStars, false)
  else if draft.previous ≠ some '/' ∧ ¬ startsGroup then (draft.pushStars, false)
  else if following = none ∨ endsBranch then (draft.replaceSlash .trailingNames '*', false)
  else if following = some '/' then (draft.replaceSlash .innerNames '/', true)
  else (draft.pushStars, false)

/-- Read an opening brace. -/
def openGroup (draft : Draft) : Draft :=
  { draft with
    previous := some '\x7b'
    tokens := []
    groups := ⟨draft.tokens, []⟩ :: draft.groups }

/-- Read a comma, which separates branches in a group. -/
def comma (draft : Draft) : Draft :=
  match draft.groups with
  | [] => draft.push (.literal ',') ','
  | group :: outer =>
      { draft with
        previous := some ','
        tokens := []
        groups := { group with branches := draft.tokens.reverse :: group.branches } :: outer }

/-- Read a closing brace. -/
def closeGroup (draft : Draft) : Except GlobError Draft :=
  match draft.groups with
  | [] => .error .unopenedGroup
  | group :: outer =>
      let token := .alternatives (draft.tokens.reverse :: group.branches).reverse
      .ok { draft with
        previous := some '\x7d'
        tokens := token :: group.before
        groups := outer }

end Draft

/-- Read the rest of a glob.  A lenient reader takes an opening bracket without a closing one, and every
bracket behind it, for a character. -/
def readFrom (lenient : Bool) (draft : Draft) : List Char → Except GlobError Glob
  | [] => if draft.groups.isEmpty then .ok draft.tokens.reverse else .error .unclosedGroup
  | '?' :: rest => readFrom lenient (draft.push .anyByte '?') rest
  | '*' :: '*' :: rest =>
      match draft.doubleStar rest.head? with
      | (next, true) => readFrom lenient next rest.tail
      | (next, false) => readFrom lenient next rest
  | '*' :: rest => readFrom lenient (draft.push .anyName '*') rest
  | '[' :: rest =>
      let plain := draft.push (.literal '[') '['
      if draft.plainBrackets then readFrom lenient plain rest
      else
        match found : readClass rest with
        | .ok (token, behind) =>
            have := length_of_readClass found
            readFrom lenient (draft.push token ']') behind
        | .error .unclosedClass =>
            if lenient then readFrom lenient { plain with plainBrackets := true } rest
            else .error .unclosedClass
        | .error reason => .error reason
  | '\x7b' :: rest => readFrom lenient draft.openGroup rest
  | '\x7d' :: rest =>
      match draft.closeGroup with
      | .ok next => readFrom lenient next rest
      | .error reason => .error reason
  | ',' :: rest => readFrom lenient draft.comma rest
  | ['\\'] => .error .danglingEscape
  | '\\' :: char :: rest => readFrom lenient (draft.push (.literal char) char) rest
  | char :: rest => readFrom lenient (draft.push (.literal char) char) rest
termination_by text => text.length

/-- The glob with a text. -/
def read (lenient : Bool) (text : List Char) : Except GlobError Glob :=
  readFrom lenient .empty text

end Glob

end ApiDocs
