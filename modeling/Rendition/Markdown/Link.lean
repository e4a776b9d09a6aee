import Rendition.Event.Basic
import Rendition.Markdown.Code
import Rendition.Text.Punctuation

/-!
# Links and images of Markdown

A link is a text in brackets with a target right behind it, in parentheses: where it
leads, and a title in quotes if there is one.  A backslash takes away what the mark behind
it means.
-/

namespace Rendition.Markdown

/-- A text without the backslashes that take away what a mark means. -/
def unescape : List Char → List Char
  | [] => []
  | '\\' :: c :: rest =>
    if Text.isBasicPunctuation c then c :: unescape rest else '\\' :: unescape (c :: rest)
  | c :: rest => c :: unescape rest

/-! ## Targets -/

/-- How many parentheses may be open within a destination. -/
def maxParentheses : Nat := 33

/-- Scans the destination of a link up to a blank, another control character or the end of the
parentheses around it.  Parentheses inside come in pairs, of which `depth` are open. -/
def plainDestination? : (depth : Nat) → List Char → Option (List Char × List Char)
  | _, [] => none
  | depth, '\\' :: c :: rest =>
    if Text.isBasicPunctuation c then
      (plainDestination? depth rest).map fun (inside, rest) => (c :: inside, rest)
    else
      (plainDestination? depth (c :: rest)).map fun (inside, rest) => ('\\' :: inside, rest)
  | depth, c :: rest =>
    let kept (depth : Nat) :=
      (plainDestination? depth rest).map fun (inside, rest) => (c :: inside, rest)
    if c = '(' then
      if depth < maxParentheses then kept (depth + 1) else none
    else if c = ')' || c.toNat ≤ 0x20 then
      match depth with
      | 0 => some ([], c :: rest)
      | depth + 1 => if c = ')' then kept depth else none
    else kept depth

/-- Scans up to a mark that no backslash precedes: what is before it, and what follows.
There is nothing to be had if a character that is `refused` comes first. -/
def unescapedUntil? (mark : Char) (refused : Char → Bool) :
    List Char → Option (List Char × List Char)
  | [] => none
  | '\\' :: c :: rest =>
    if Text.isBasicPunctuation c then
      (unescapedUntil? mark refused rest).map fun (inside, rest) => (c :: inside, rest)
    else
      (unescapedUntil? mark refused (c :: rest)).map fun (inside, rest) =>
        ('\\' :: inside, rest)
  | c :: rest =>
    if c = mark then some ([], rest)
    else if refused c then none
    else (unescapedUntil? mark refused rest).map fun (inside, rest) => (c :: inside, rest)

/-- Scans the destination of a link, which may stand in angle brackets. -/
def destination? (text : List Char) : Option (List Char × List Char) :=
  match text with
  | '<' :: rest => unescapedUntil? '>' (fun c => c = '<' || c = '\n') rest
  | _ => plainDestination? 0 text

/-- Scans the title of a link, which stands in quotes of either kind or in parentheses. -/
def title? (text : List Char) : Option (List Char × List Char) :=
  match text with
  | '"' :: rest => unescapedUntil? '"' (fun _ => false) rest
  | '\'' :: rest => unescapedUntil? '\'' (fun _ => false) rest
  | '(' :: rest => unescapedUntil? ')' (· = '(') rest
  | _ => none

/-- Scans the target of a link or image, in parentheses: where it leads, and the title,
which is empty if there is none. -/
def target? (text : List Char) : Option (String × String × List Char) :=
  match text with
  | '(' :: rest =>
    match destination? (rest.dropWhile isGap) with
    | none => none
    | some (destination, rest) =>
      let rest := rest.dropWhile isGap
      let (title, rest) := (title? rest).getD ([], rest)
      match rest.dropWhile isGap with
      | ')' :: rest => some (String.ofList destination, String.ofList title, rest)
      | _ => none
  | _ => none

/-- How many characters the target at the start of a text has, if there is one. -/
def targetLength (text : List Char) : Nat :=
  match target? text with
  | none => 0
  | some (_, _, rest) => text.length - rest.length

/-- Scans what is in brackets from behind the opening one: the inside, and what follows
the closing one.  Brackets inside come in pairs, of which `depth` are open; those in code,
in the targets of inner links and behind backslashes do not count.  Every step uses up a
unit of `fuel`. -/
def bracketed? : (fuel depth : Nat) → List Char → Option (List Char × List Char)
  | 0, _, _ => none
  | _, _, [] => none
  | fuel + 1, depth, c :: rest =>
    let kept (count depth : Nat) :=
      (bracketed? fuel depth (rest.drop count)).map fun (inside, after) =>
        (c :: rest.take count ++ inside, after)
    if c = '[' then kept 0 (depth + 1)
    else if c = ']' then
      match depth with
      | 0 => some ([], rest)
      | depth + 1 => kept (targetLength rest) depth
    else if c = '\\' then
      kept (if (rest.head?.map Text.isBasicPunctuation).getD false then 1 else 0) depth
    else if c = codeMark then
      let marks := (rest.takeWhile (· = codeMark)).length
      match code? (marks + 1) (rest.drop marks) with
      | none => kept marks depth
      | some (inside, _) => kept (marks + inside.length + marks + 1) depth
    else kept 0 depth

/-- Whether there is a link among events. -/
def hasLink (events : List Event) : Bool :=
  events.any fun
    | .start (.link _ _) => true
    | _ => false

end Rendition.Markdown
