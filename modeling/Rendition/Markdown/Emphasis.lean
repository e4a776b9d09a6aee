import Rendition.Event.Basic
import Rendition.Text.Punctuation
import Rendition.Text.White

/-!
# Emphasis in Markdown

Emphasis, strong emphasis and struck-out text stand between runs of equal marks.  What is
on both sides of a run says whether it can open and whether it can close, and a run that
closes is a pair with the nearest run before it that fits.  A pair spends marks of both
runs, two at a time from the inside out, and what is left of either can be part of further
pairs.  A mark without a counterpart is text.

`resolve` takes the pieces of a text, runs among them, and gives its events.
-/

namespace Rendition.Markdown

/-- The marks of emphasis. -/
inductive Mark where
  | star
  | underscore
  | tilde
  deriving DecidableEq, Repr

namespace Mark

def all : List Mark :=
  [star, underscore, tilde]

def char : Mark → Char
  | star => '*'
  | underscore => '_'
  | tilde => '~'

def ofChar? (c : Char) : Option Mark :=
  all.find? fun mark => mark.char = c

/-- A run of the mark as it is written. -/
def text (mark : Mark) (count : Nat) : List Event :=
  [.text (String.ofList (List.replicate count mark.char))]

/-- The tag between two single marks. -/
def single : Mark → Tag
  | tilde => .strikethrough
  | _ => .emphasis

/-- The tag between two double marks. -/
def double : Mark → Tag
  | tilde => .strikethrough
  | _ => .strong

/-- The events between `count` marks on both sides: two of them at a time from the inside
out, and an odd one is the outermost. -/
def enclose (mark : Mark) : (count : Nat) → List Event → List Event
  | 0, inner => inner
  | 1, inner => mark.single.enclose inner
  | count + 2, inner => mark.enclose count (mark.double.enclose inner)

end Mark

/-! ## Runs -/

/-- What a run has next to it. -/
inductive Side where
  /-- White space, or nothing. -/
  | white
  | punctuation
  | word
  deriving DecidableEq, Repr

def Side.of : Option Char → Side
  | none => white
  | some c =>
    if Text.isWhite c then white else if Text.isPunctuation c then punctuation else word

/-- A run of equal marks, and what it can do. -/
structure Run where
  mark : Mark
  length : Nat
  opens : Bool
  closes : Bool
  deriving DecidableEq, Repr

namespace Run

/-- A run between two sides.  It opens nothing in front of white space and closes nothing
behind it.  At a word it can do what punctuation or white space on the other side leaves
open; within a word, only stars and double tildes do anything.  Stars do so towards words
alone, and double tildes always. -/
def between (mark : Mark) (length : Nat) (before after : Side) : Run where
  mark
  length
  opens := after ≠ .white &&
    (before ≠ .word || (mark = .star && after = .word) || (mark = .tilde && 1 < length))
  closes := before ≠ .white &&
    (after ≠ .word || ((mark = .star || (mark = .tilde && 1 < length)) && before = .word))

/-- Whether a run can be part of a pair at all.  There are no more than two tildes. -/
def isUsable (run : Run) : Bool :=
  (run.opens || run.closes) && (run.mark ≠ .tilde || run.length ≤ 2)

/-- Whether a run can both open and close. -/
def isTwofold (run : Run) : Bool :=
  run.opens && run.closes

/-- Whether an opening and a closing run are a pair.  They have the same mark, and tildes
the same number of it.  If one of them is twofold, their lengths do not add up to a multiple
of three, unless both are such multiples. -/
def pairs (opener closer : Run) : Bool :=
  opener.mark = closer.mark &&
    (closer.mark ≠ .tilde || opener.length = closer.length) &&
    (!(opener.isTwofold || closer.isTwofold) ||
      (opener.length + closer.length) % 3 ≠ 0 || closer.length % 3 = 0)

end Run

/-! ## Pairs -/

/-- A part of a text: its events, or a run whose part is still open. -/
inductive Piece where
  | whole (events : List Event)
  | run (run : Run)

/-- A run that can still be closed: what is before it, and how many of its marks are
left. -/
structure OpenRun where
  before : List Event
  run : Run
  left : Nat

/-- How far a text has been resolved: the runs that are open, innermost first, and what is
behind the innermost one. -/
structure Scope where
  openRuns : List OpenRun := []
  inner : List Event := []

/-- The events of an open run and of what is around it, if the run is text after all. -/
def OpenRun.asText (openRun : OpenRun) (inner : List Event) : List Event :=
  openRun.before ++ openRun.run.mark.text openRun.left ++ inner

/-- Closes runs with `count` marks of a closing run: how many of them are left then, and
what is open.  Open runs inside a pair are text.  There is nothing to be had if none of the
open runs is a pair with the closing one. -/
def close? (closer : Run) : (count : Nat) → List OpenRun → List Event → Option (Nat × Scope)
  | _, [], _ => none
  | count, openRun :: outer, inner =>
    if openRun.run.pairs closer then
      let enclosed := closer.mark.enclose (min count openRun.left) inner
      if count < openRun.left then
        some (0, ⟨{ openRun with left := openRun.left - count } :: outer, enclosed⟩)
      else
        let inner := openRun.before ++ enclosed
        let count := count - openRun.left
        if count = 0 then some (0, ⟨outer, inner⟩)
        else some ((close? closer count outer inner).getD (count, ⟨outer, inner⟩))
    else
      close? closer count outer (openRun.asText inner)

namespace Scope

def add (scope : Scope) (events : List Event) : Scope :=
  { scope with inner := scope.inner ++ events }

/-- Goes on with a piece.  A run closes what it can, and what is left of it opens or is
text. -/
def step (scope : Scope) : Piece → Scope
  | .whole events => scope.add events
  | .run run =>
    let (left, scope) :=
      ((if run.closes then close? run run.length scope.openRuns scope.inner else none).getD
        (run.length, scope))
    if left = 0 then scope
    else if run.opens then ⟨⟨scope.inner, run, left⟩ :: scope.openRuns, []⟩
    else scope.add (run.mark.text left)

/-- The events of a text that ends here: the runs that are open are text. -/
def finish (scope : Scope) : List Event :=
  scope.openRuns.foldl (fun inner openRun => openRun.asText inner) scope.inner

end Scope

/-- The events of a text, given its pieces. -/
def resolve (pieces : List Piece) : List Event :=
  (pieces.foldl Scope.step {}).finish

end Rendition.Markdown
