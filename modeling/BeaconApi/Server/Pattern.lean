import BeaconApi.Text.Percent
import BeaconApi.Text.Split

namespace BeaconApi

/-- A piece of a pattern. -/
inductive Piece
  | character (c : Char)
  | placeholder (name : String)
deriving DecidableEq

/-- What a piece of a pattern is, whatever a placeholder is called. -/
def Piece.unnamed : Piece → Option Char
  | .character c => some c
  | .placeholder _ => none

/-- The pattern that a text describes. -/
abbrev Pattern := List Piece

namespace Pattern

/-- A segment with its placeholder in braces. A segment that begins with a colon is one placeholder
as a whole. -/
def braced : List Char → List Char
  | ':' :: name => '{' :: name ++ ['}']
  | segment => segment

/-- Read pieces from a text in which braces enclose the names of placeholders, and two equal braces
stand for one that encloses nothing. `name` is the name that is being read, last character first. -/
def ofBraced : (name : Option (List Char)) → List Char → Pattern
  | none, '{' :: '{' :: rest => .character '{' :: ofBraced none rest
  | none, '}' :: '}' :: rest => .character '}' :: ofBraced none rest
  | none, '{' :: rest => ofBraced (some []) rest
  | none, c :: rest => .character c :: ofBraced none rest
  | none, [] => []
  | some name, '{' :: '{' :: rest => ofBraced (some ('{' :: name)) rest
  | some name, '}' :: '}' :: rest => ofBraced (some ('}' :: name)) rest
  | some name, '}' :: rest => .placeholder (String.ofList name.reverse) :: ofBraced none rest
  | some name, c :: rest => ofBraced (some (c :: name)) rest
  | some name, [] => [.placeholder (String.ofList name.reverse)]

/-- The text of a pattern as a router takes it, with its placeholders in braces. One slash begins it, whether
the text has none or many there. -/
def translate (s : String) : List Char :=
  (Text.split '/' (s.toList.dropWhile (· = '/'))).flatMap fun segment => '/' :: braced segment

/-- Read a pattern from its text. -/
def ofString (s : String) : Pattern := ofBraced none (translate s)

/-- Read pieces as `ofBraced` does, but only from a text that the router library accepts: braces stand in
pairs, a name is not empty and has neither `*` nor `/`, and nothing follows a placeholder in its segment. The
library takes `*` at the beginning of a name for a placeholder that matches several segments. Patterns have no
such placeholder. -/
def parse? : (name : Option (List Char)) → List Char → Option Pattern
  | none, '{' :: '{' :: rest => (parse? none rest).map (.character '{' :: ·)
  | none, '}' :: '}' :: rest => (parse? none rest).map (.character '}' :: ·)
  | none, '{' :: rest => parse? (some []) rest
  | none, '}' :: _ => none
  | none, c :: rest => (parse? none rest).map (.character c :: ·)
  | none, [] => some []
  | some name, '{' :: '{' :: rest => parse? (some ('{' :: name)) rest
  | some name, '}' :: '}' :: rest => parse? (some ('}' :: name)) rest
  | some name, '}' :: rest =>
    if name = [] ∨ rest.head?.any (· ≠ '/') then none
    else (parse? none rest).map (.placeholder (String.ofList name.reverse) :: ·)
  | some name, c :: rest => if c = '*' ∨ c = '/' then none else parse? (some (c :: name)) rest
  | some _, [] => none

/-- The names of the placeholders of a pattern. -/
def names : Pattern → List String
  | [] => []
  | .character _ :: pattern => names pattern
  | .placeholder name :: pattern => name :: names pattern

/-- What the placeholders of a pattern stand for in a path, if the pattern matches. -/
def captures? : Pattern → List Char → Option (List (String × List Char))
  | [], [] => some []
  | .character c :: pattern, d :: path => if c = d then captures? pattern path else none
  | [.placeholder name], path =>
    if path.isEmpty || path.contains '/' then none else some [(name, path)]
  | .placeholder name :: pattern, path =>
    (captures? pattern (path.dropWhile (· ≠ '/'))).map ((name, path.takeWhile (· ≠ '/')) :: ·)
  | [], _ :: _ | .character _ :: _, [] => none

/-- Whether a pattern takes precedence over another that matches the same path. -/
def precedes : Pattern → Pattern → Bool
  | .character _ :: p, .character _ :: q => precedes p q
  | .character _ :: _, .placeholder _ :: _ => true
  | .placeholder _ :: _, .character _ :: _ => false
  | .placeholder _ :: p, .placeholder _ :: q => precedes p q
  | [], _ | _ :: _, [] => false

/-- The pattern that takes precedence among those that match a path, with its captures. -/
def best? (patterns : List Pattern) (path : List Char) :
    Option (Pattern × List (String × List Char)) :=
  patterns.foldl
    (fun best pattern =>
      match pattern.captures? path, best with
      | none, _ => best
      | some captures, none => some (pattern, captures)
      | some captures, some (other, _) =>
        if pattern.precedes other then some (pattern, captures) else best)
    none

end Pattern

/-- The text of a captured segment after percent-decoding, if it is UTF-8. -/
def decodeSegment? (segment : List Char) : Option String :=
  Utf8.decode? (Percent.decode (Utf8.encode (String.ofList segment)))

end BeaconApi
