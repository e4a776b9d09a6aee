import Rendition.Markdown.Line

/-!
# Code in Markdown

Code stands between two runs of marks.  Within a text the runs are equally long.  As a block
of its own, code is fenced by lines of at least three marks, and the closing fence is no
shorter than the opening one; or it has no fence and is indented.
-/

namespace Rendition.Markdown

/-- The mark around code. -/
def codeMark : Char := Char.ofNat 0x60

/-- Scans up to the first run of exactly `count` marks: what is before it, and what
follows.  The marks that have just been passed are `run`. -/
def cutMarks? (count : Nat) : (run : Nat) → List Char → Option (List Char × List Char)
  | run, [] => if run = count then some ([], []) else none
  | run, c :: rest =>
    if c = codeMark then cutMarks? count (run + 1) rest
    else if run = count then some ([], c :: rest)
    else
      (cutMarks? count 0 rest).map fun (inside, rest) =>
        (List.replicate run codeMark ++ c :: inside, rest)

/-- Scans code from behind the `count` marks that open it: what is between the marks, and
what follows them. -/
def code? (count : Nat) (text : List Char) : Option (List Char × List Char) :=
  cutMarks? count 0 text

/-- The code between two runs of marks.  The ends of lines count as blanks, and a blank at
either end keeps the marks away from the code and is not part of it, unless there are only
blanks. -/
def codeText (inside : List Char) : List Char :=
  let line := inside.map fun c => if c = '\n' then ' ' else c
  match line with
  | ' ' :: rest =>
    if rest.getLast? = some ' ' && line.any (· ≠ ' ') then rest.dropLast else line
  | _ => line

/-! ## Blocks of code -/

/-- The fence that opens a block of code. -/
structure Fence where
  /-- How far the fence is indented; the code is set as far to the right. -/
  offset : Nat
  mark : Char
  length : Nat
  /-- The info string behind the marks. -/
  info : Line

/-- The fence on a line.  It is made of code marks or tildes, and there are no more code marks
behind those of a fence. -/
def fence? (line : Line) : Option Fence :=
  (opening? line).bind fun opening =>
    match opening with
    | [] => none
    | mark :: _ =>
      let length := (opening.takeWhile (· = mark)).length
      let info := opening.drop length
      if 3 ≤ length && ((mark = codeMark && !info.contains codeMark) || mark = '~') then
        some ⟨indent line, mark, length, info⟩
      else
        none

/-- Whether a line closes a block of code. -/
def Fence.closes (fence : Fence) (line : Line) : Bool :=
  ((opening? line).map fun opening =>
    fence.length ≤ (opening.takeWhile (· = fence.mark)).length &&
      (opening.dropWhile (· = fence.mark)).all fun c => c = ' ' || c = '\n').getD false

/-- The lines of a block of code behind its fence, and the lines behind the block.  A block
without a closing fence goes on to the end. -/
def Fence.cut (fence : Fence) (lines : List Line) : List Line × List Line :=
  let isCode (line : Line) := !fence.closes line
  ((lines.takeWhile isCode).map (dropIndent fence.offset), (lines.dropWhile isCode).drop 1)

/-- The columns by which code is indented that has no fence. -/
def codeIndent : Nat := 4

/-- The lines of a block of code without a fence, and the lines behind the block.  Blank lines
at the end are not part of it. -/
def cutIndented (lines : List Line) : List Line × List Line :=
  let inside := lines.takeWhile fun line => isBlankLine line || codeIndent ≤ indent line
  let code := (inside.reverse.dropWhile isBlankLine).reverse
  (code.map (dropIndent codeIndent), lines.drop code.length)

end Rendition.Markdown
