import PipeShell.Pattern.Basic

/-! Search for a pattern in a line. The parts of a pattern are matched from left to
right, and each is told what must follow it: where that does not fit, the part tries
its next way to match. -/

namespace PipeShell.Pattern

/-- A place in a line, and what the groups have matched up to it. -/
structure Place where
  position : Nat
  before : Option Char
  rest : List Char
  captures : List (Nat × List Char)

def Place.start (line : List Char) : Place := ⟨0, none, line, []⟩

def Place.captured? (place : Place) (index : Nat) : Option (List Char) :=
  (place.captures.find? (·.1 = index)).map (·.2)

def Place.advance? (place : Place) : Option (Char × Place) :=
  match place.rest with
  | [] => none
  | c :: rest =>
      some (c, { place with position := place.position + 1, before := some c, rest })

/-- Keeps the text from here up to a later place as the text of a group. -/
def Place.capture (start : Place) (index : Nat) (stop : Place) : Place :=
  { stop with
    captures := (index, start.rest.take (stop.position - start.position)) ::
      stop.captures }

/-- What must follow a part: the place where all of it ends, if it fits. -/
abbrev Follow := Place → Option Place

/-- The ways in which a part can match, tried in order until what follows fits. -/
abbrev Part := Place → Follow → Option Place

def one (test : Char → Bool) : Part := fun place follow =>
  match place.advance? with
  | some (c, next) => if test c then follow next else none
  | none => none

def Anchor.holds (anchor : Anchor) (place : Place) : Bool :=
  let wordBefore := (place.before.map Text.isWordChar).getD false
  let wordAfter := (place.rest.head?.map Text.isWordChar).getD false
  let emptyLine := place.before.isNone && place.rest.isEmpty
  match anchor with
  | .lineStart => place.before.isNone
  | .lineEnd => place.rest.isEmpty || place.rest = ['\n']
  | .textEnd => place.rest.isEmpty
  | .wordEdge => !emptyLine && wordBefore != wordAfter
  | .noWordEdge => !emptyLine && wordBefore == wordAfter

def literally (same : Char → Char → Bool) : List Char → Part
  | [], place, follow => follow place
  | c :: text, place, follow =>
      one (same c) place fun next => literally same text next follow

def exactly (part : Part) : (count : Nat) → Part
  | 0, place, follow => follow place
  | count + 1, place, follow => part place fun next => exactly part count next follow

/-- At most `limit` times, most first. No repetition starts where the one before it
did. -/
def mostFirst (part : Part) : (limit : Nat) → (last : Option Nat) → Part
  | 0, _, place, follow => follow place
  | limit + 1, last, place, follow =>
      if last = some place.position then follow place
      else
        match part place fun next =>
          mostFirst part limit (some place.position) next follow with
        | some stop => some stop
        | none => follow place

def leastFirst (part : Part) : (limit : Nat) → (last : Option Nat) → Part
  | 0, _, place, follow => follow place
  | limit + 1, last, place, follow =>
      match follow place with
      | some stop => some stop
      | none =>
          if last = some place.position then none
          else part place fun next =>
            leastFirst part limit (some place.position) next follow

/-- Where the first way to match leads, whatever follows. -/
def alone (part : Part) (place : Place) : Option Place :=
  part place some

def firstOnly (part : Part) : Part := fun place follow =>
  (alone part place).bind follow

/-- At most `limit` times, as often as possible and in no other way. -/
def farthest (part : Part) : (limit : Nat) → (last : Option Nat) → Place → Place
  | 0, _, place => place
  | limit + 1, last, place =>
      if last = some place.position then place
      else
        match alone part place with
        | some next => farthest part limit (some place.position) next
        | none => place

/-- At least `least` times and at most `most` times. A part that can be empty is
repeated beyond the least number only as long as it moves on, so a line has room for
no more than its length and one more. -/
def repeatedly (part : Part) (least : Nat) (most : Option Nat) (greed : Greed) :
    Part :=
  fun place follow =>
    let limit (place : Place) : Nat :=
      match most with
      | some most => most - least
      | none => place.rest.length + 1
    match greed with
    | .most => exactly part least place fun place =>
        mostFirst part (limit place) none place follow
    | .least => exactly part least place fun place =>
        leastFirst part (limit place) none place follow
    | .all => exactly (firstOnly part) least place fun place =>
        follow (farthest part (limit place) none place)

def sameLetter (ignoreCase : Bool) (a b : Char) : Bool :=
  if ignoreCase then Text.small a = Text.small b else a = b

def Node.part (ignoreCase : Bool) : Node → Part
  | .empty => fun place follow => follow place
  | .any => one (· ≠ '\n')
  | .oneOf items => one fun c => items.any (SetItem.contains ignoreCase c)
  | .noneOf items => one fun c => !items.any (SetItem.contains ignoreCase c)
  | .anchor kind => fun place follow => if kind.holds place then follow place
        else none
  | .cat first second => fun place follow =>
      first.part ignoreCase place fun next => second.part ignoreCase next follow
  | .either first second => fun place follow =>
      match first.part ignoreCase place follow with
      | some stop => some stop
      | none => second.part ignoreCase place follow
  | .repeated least most greed body =>
      repeatedly (body.part ignoreCase) least most greed
  | .group index body => fun place follow =>
      body.part ignoreCase place fun stop => follow (place.capture index stop)
  | .again index => fun place follow =>
      match place.captured? index with
      | none => none
      | some text => literally (sameLetter ignoreCase) text place follow
  | .ahead body => fun place follow =>
      match alone (body.part ignoreCase) place with
      | none => none
      | some stop => follow { place with captures := stop.captures }
  | .notAhead body => fun place follow =>
      match alone (body.part ignoreCase) place with
      | none => follow place
      | some _ => none

/-- Whether a part matches at a place or at a later one. -/
def matchesFrom (part : Part) : (rest : List Char) → Place → Bool
  | [], place => (alone part place).isSome
  | _ :: rest, place =>
      (alone part place).isSome ||
        match place.advance? with
        | some (_, next) => matchesFrom part rest next
        | none => false

def Node.foundIn (node : Node) (ignoreCase : Bool) (line : String) : Bool :=
  matchesFrom (node.part ignoreCase) line.toList (Place.start line.toList)

end PipeShell.Pattern
