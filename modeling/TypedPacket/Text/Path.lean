/-!
# Paths

The directory around a path is found in the text alone: its components stand between slashes, and
those that are empty or a single dot do not count, save for a dot at the very front.
-/

set_option autoImplicit false
set_option relaxedAutoImplicit false

namespace TypedPacket.Path

/-- Splits off the front that is no component: the slash of the root, or a leading dot. -/
def splitLead : List Char → List Char × List Char
  | '/' :: rest => (['/'], rest)
  | ['.'] => (['.'], [])
  | '.' :: '/' :: rest => (['.'], '/' :: rest)
  | path => ([], path)

/-- The texts between slashes, the last one first. -/
def segments (path : List Char) : List (List Char) :=
  go [] [] path
where
  go (sofar : List (List Char)) (segment : List Char) : List Char → List (List Char)
    | [] => segment.reverse :: sofar
    | '/' :: rest => go (segment.reverse :: sofar) [] rest
    | c :: rest => go sofar (c :: segment) rest

def countsNot (segment : List Char) : Bool := segment = [] || segment = ['.']

/-- The path without its last component. The root has no parent, and neither has the empty path. -/
def parent? (path : String) : Option String :=
  let (lead, body) := splitLead path.toList
  match (segments body).dropWhile countsNot with
  | _ :: before =>
    let kept := (before.dropWhile countsNot).reverse
    some (String.ofList (lead ++ ['/'].intercalate kept))
  | [] => if lead = ['.'] then some "" else none

end TypedPacket.Path
