import Rendition.Markdown.Emphasis
import Rendition.Markdown.Extensions
import Rendition.Markdown.Link

/-!
# Inline content of Markdown

Inline content is text with emphasis, code, links, images and breaks in it.  It is cut into
pieces first: code, links and images are whole pieces, because no emphasis starts on one
side of their ends and stops on the other.  Then the emphasis among the pieces is resolved.
-/

namespace Rendition.Markdown

/-- Whether a character can be the first of something other than text. -/
def isSpecial (c : Char) : Bool :=
  (Mark.ofChar? c).isSome || c = codeMark || c = '[' || c = '!' || c = '\\' || c = '\n'

/-- The break at the start of a text, and how many characters it takes with the blanks
around it.  A backslash or two blanks before the end of a line make the break a hard one. -/
def lineEnd? (text : List Char) : Option (Event × Nat) :=
  let blanks := (text.takeWhile isBlank).length
  let taken (event : Event) (count : Nat) (next : List Char) :=
    some (event, count + (next.takeWhile isIndent).length)
  match text.drop blanks with
  | '\n' :: next => taken (if 2 ≤ blanks then .hardBreak else .softBreak) (blanks + 1) next
  | '\\' :: '\n' :: next => if blanks = 0 then taken .hardBreak 2 next else none
  | _ => none

/-- Cuts a text into pieces.  What is before the text and what comes behind it decide
together with the text what its runs of marks can do.  A link has no links inside; what
would be such a link is its own pieces.  Every step uses up a unit of `fuel`. -/
def piecesWith (extensions : Extensions) :
    (fuel : Nat) → (before after : Option Char) → List Char → List Piece
  | 0, _, _, _ => []
  | _, _, _, [] => []
  | fuel + 1, before, after, first :: rest =>
    let text := first :: rest
    let takenAs (pieces : List Piece) (count : Nat) :=
      pieces ++ piecesWith extensions fuel (text.take count).getLast? after (text.drop count)
    let asText (count : Nat) : List Piece :=
      takenAs [.whole [.text (String.ofList (text.take count))]] count
    let targeted (opening : Nat) (mayHoldLinks : Bool) (tag : String → String → Tag) :=
      match bracketed? text.length 0 (text.drop opening) with
      | none => asText opening
      | some (inside, rest) =>
        match target? rest with
        | none => asText opening
        | some (destination, title, rest) =>
          let pieces := piecesWith extensions fuel (some '[') (some ']') inside
          let inner := resolve pieces
          if hasLink inner && !mayHoldLinks then
            takenAs (.whole [.text (String.ofList (text.take opening))] :: pieces)
              (opening + inside.length)
          else
            takenAs [.whole ((tag destination title).enclose inner)]
              (text.length - rest.length)
    match lineEnd? text with
    | some (event, count) => takenAs [.whole [event]] count
    | none =>
      match first, rest with
      | '!', '[' :: _ => targeted 2 true .image
      | '[', _ => targeted 1 false .link
      | '\\', c :: _ =>
        if Text.isBasicPunctuation c then
          takenAs [.whole [.text (String.singleton c)]] 2
        else
          asText 1
      | _, _ =>
        let count := (text.takeWhile (· = first)).length
        if first = codeMark then
          match code? count (text.drop count) with
          | none => asText count
          | some (inside, _) =>
            takenAs [.whole [.code (String.ofList (codeText inside))]]
              (count + inside.length + count)
        else
          match Mark.ofChar? first with
          | some mark =>
            let next := ((text.drop count).head?).or after
            let run := Run.between mark count (.of before) (.of next)
            if run.isUsable && (mark ≠ .tilde || extensions.strikethrough) then
              takenAs [.run run] count
            else
              asText count
          | none =>
            let plain := first :: rest.takeWhile fun c => !isSpecial c
            let written := trimEnd plain
            asText (if written = [] then plain.length else written.length)

/-- The events of inline content.  Blanks at its end do not count. -/
def inlines (extensions : Extensions) (text : List Char) : List Event :=
  let text := trimEnd text
  resolve (piecesWith extensions (text.length + 1) none none text)

end Rendition.Markdown
