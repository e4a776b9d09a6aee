import Rendition.Proofs.Html.Tokens

/-!
# The text of markup

Markup and outline are made by two traversals, and each hands out the ids of headings by
itself: the markup while it descends, the outline while it goes through a list of pending
trees.  That they hand out the same ids is shown by another way to write rich text
(`Element.written`), which knows neither ids nor pieces of markup: it writes every container
and leaf as text of its own, and gives the headings the levels and ids of a list of entries,
by number.  With the entries of the outline it writes the text that the markup has
(`Element.print_markup`), and where nothing is raw, the headings of this text can be read off it
again (`Element.filter_tokens`).

What carries the induction is the number of headings before an element: it is the position
in the list where the entries of the element begin.
-/

namespace Rendition

open Html Outline

/-! ## Another serializer -/

namespace Html

/-- The characters that are written as entities.  The ampersand is the first one, as it is also
part of the entities. -/
def entities : List (Char × String) :=
  [('&', "&amp;"), ('<', "&lt;"), ('>', "&gt;"), ('"', "&quot;"), ('\'', "&#x27;")]

/-- A text with an entity wherever it has a character. -/
def replaced (text : List Char) (c : Char) (entity : String) : List Char :=
  text.flatMap fun other => if other = c then entity.toList else [other]

/-- A text with all its entities, which have been put in one after another. -/
def escaped (text : List Char) : List Char :=
  entities.foldl (fun text (c, entity) => replaced text c entity) text

/-- The attribute of a title, if there is one. -/
def titleText : Option String → String
  | none => ""
  | some title => " title=\"" ++ escape title ++ "\""

/-- Where a link leads. -/
def href : Option String → String → String
  | none, destination => destination
  | some base, destination => resolveLink destination base

/-- The attribute that aligns a table cell. -/
def styleText : Alignment → String
  | .none => ""
  | .left => " style=\"text-align:left\""
  | .center => " style=\"text-align:center\""
  | .right => " style=\"text-align:right\""

end Html

/-- The text of a leaf. -/
def Leaf.written : Leaf → String
  | .text content => escape content
  | .code content => "<code>" ++ escape content ++ "</code>"
  | .lineBreak => "<br>"
  | .softBreak => "\n"
  | .rule => "<hr>"
  | .image source alt title =>
    "<img src=\"" ++ escape source ++ "\"" ++ titleText title ++ " alt=\"" ++ escape alt ++ "\">"
  | .checkbox true => "<input type=\"checkbox\" checked disabled> "
  | .checkbox false => "<input type=\"checkbox\" disabled> "
  | .rawHtml html => html

/-- The text of a container around that of what it holds.  A heading has the level and the id of
its entry, and links are resolved if there is a base. -/
def ContainerKind.written (base : Option String) (entry : Option Outline.Entry) (inner : String) :
    ContainerKind → String
  | .document => inner
  | .paragraph => "<p>" ++ inner ++ "</p>"
  | .heading .. =>
    match entry with
    | none => inner
    | some entry =>
      "<h" ++ toString entry.level ++ " id=\"" ++ escape entry.id ++ "\">" ++ inner ++
        "</h" ++ toString entry.level ++ ">"
  | .quote none => "<blockquote>" ++ inner ++ "</blockquote>"
  | .quote (some alert) =>
    "<div class=\"alert alert-" ++ alert.ident ++ "\"><div class=\"alert-title\">" ++
      alert.title ++ "</div><div class=\"alert-content\">" ++ inner ++ "</div></div>"
  | .list none => "<ul>" ++ inner ++ "</ul>"
  | .list (some start) =>
    if start = 1 then "<ol>" ++ inner ++ "</ol>"
    else "<ol start=\"" ++ toString start ++ "\">" ++ inner ++ "</ol>"
  | .listItem => "<li>" ++ inner ++ "</li>"
  | .codeBlock none => "<pre><code>" ++ inner ++ "</code></pre>"
  | .codeBlock (some language) =>
    "<pre><code class=\"language-" ++ escape language ++ "\">" ++ inner ++ "</code></pre>"
  | .table => "<table>" ++ inner ++ "</table>"
  | .tableHead => "<thead><tr>" ++ inner ++ "</tr></thead>"
  | .tableRow => "<tr>" ++ inner ++ "</tr>"
  | .tableCell true align => "<th" ++ styleText align ++ ">" ++ inner ++ "</th>"
  | .tableCell false align => "<td" ++ styleText align ++ ">" ++ inner ++ "</td>"
  | .definitionList => "<dl>" ++ inner ++ "</dl>"
  | .definitionTitle => "<dt>" ++ inner ++ "</dt>"
  | .definitionDetails => "<dd>" ++ inner ++ "</dd>"
  | .span .emphasis => "<em>" ++ inner ++ "</em>"
  | .span .strong => "<strong>" ++ inner ++ "</strong>"
  | .span .strikethrough => "<del>" ++ inner ++ "</del>"
  | .span .superscript => "<sup>" ++ inner ++ "</sup>"
  | .span .subscript => "<sub>" ++ inner ++ "</sub>"
  | .hyperlink destination title =>
    "<a href=\"" ++ escape (href base destination) ++ "\"" ++ titleText title ++ ">" ++ inner ++
      "</a>"
  | .custom name => "<div data-kind=\"" ++ escape name ++ "\">" ++ inner ++ "</div>"

/-- The text of what a table holds, from that of each of its children.  What begins with the first
row is the body. -/
def Html.tableText : List Element → List String → String
  | child :: children, text :: rest =>
    if child.isTableRow then "<tbody>" ++ String.join (text :: rest) ++ "</tbody>"
    else text ++ tableText children rest
  | _, _ => ""

namespace Element

mutual

/-- The text of an element whose headings have the entries from number `k` on. -/
def written (base : Option String) (toc : List Outline.Entry) (k : Nat) : Element → String
  | .leaf content => content.written
  | .container kind children =>
    let each := writtenEach base toc (if kind.isHeading then k + 1 else k) children
    kind.written base toc[k]? (if kind = .table then tableText children each else String.join each)

/-- The text of each of a list of elements whose headings have the entries from number `k` on. -/
def writtenEach (base : Option String) (toc : List Outline.Entry) (k : Nat) :
    List Element → List String
  | [] => []
  | element :: rest =>
    element.written base toc k :: writtenEach base toc (k + element.headings.length) rest

end

end Element

/-! ## Pieces as text -/

namespace Html

theorem escaped_append (first second : List Char) :
    escaped (first ++ second) = escaped first ++ escaped second := by
  unfold escaped
  induction entities generalizing first second with
  | nil => rfl
  | cons pair rest ih =>
    obtain ⟨c, entity⟩ := pair
    rw [List.foldl_cons, List.foldl_cons, List.foldl_cons, ← ih]
    exact congrArg (rest.foldl _) List.flatMap_append

theorem escaped_singleton (c : Char) : escaped [c] = escapeChar c := by
  unfold escapeChar
  split
  · rfl
  · rfl
  · rfl
  · rfl
  · rfl
  · -- no entity is for the character
    rename_i hamp hlt hgt hquot hapos
    simp only [escaped, entities, replaced, List.foldl_cons, List.foldl_nil, List.flatMap_singleton,
      if_neg hamp, if_neg hlt, if_neg hgt, if_neg hquot, if_neg hapos]

/-- **Escaping** is to put in one entity after another. -/
theorem toList_escape (text : String) : (escape text).toList = escaped text.toList := by
  rw [escape, String.toList_ofList]
  induction text.toList with
  | nil => rfl
  | cons c rest ih =>
    rw [← List.singleton_append, escaped_append, escaped_singleton, ← ih]
    rfl

theorem escape_append (first second : String) :
    escape (first ++ second) = escape first ++ escape second := by
  rw [escape, String.toList_append, List.flatMap_append, String.ofList_append]
  rfl

theorem print_append (first second : List Piece) :
    print (first ++ second) = print first ++ print second := by
  rw [print, List.map_append, String.join_append]
  rfl

theorem print_singleton (piece : Piece) : print [piece] = piece.print := by
  rw [print, List.map_singleton, String.join_cons, String.join_nil, String.append_empty]

/-- A tag with attributes, the first of which is always there. -/
theorem print_tag (name key value : String) (more : List (String × String)) :
    print [tag name ((key, value) :: more)] =
      "<" ++ name ++ " " ++ key ++ "=\"" ++ escape value ++ "\"" ++
        String.join (more.map fun (key, value) => (Attribute.mk key (some value)).print) ++ ">" := by
  have hprint (key value : String) : (Attribute.mk key (some value)).print =
      " " ++ key ++ "=\"" ++ escape value ++ "\"" := rfl
  rw [print_singleton, tag, Piece.print, List.map_map, List.map_cons, String.join_cons]
  simp only [Function.comp_def, hprint, String.append_assoc]

theorem join_titleAttr (title : Option String) :
    String.join ((titleAttr title).map fun (key, value) => (Attribute.mk key (some value)).print) =
      titleText title := by
  cases title with
  | none => rfl
  | some title => simp [titleAttr, titleText, Attribute.print]

theorem escapeChar_of_isDigit {c : Char} (h : c.isDigit = true) : escapeChar c = [c] := by
  unfold escapeChar
  split
  · cases h
  · cases h
  · cases h
  · cases h
  · cases h
  · rfl

/-- Numbers are written as they are. -/
theorem escape_toString (number : Nat) : escape (toString number) = toString number := by
  have hplain : ∀ c ∈ Nat.toDigits 10 number, escapeChar c = [c] := fun _ hc =>
    escapeChar_of_isDigit (Nat.isDigit_of_mem_toDigits (by omega) (by omega) hc)
  rw [← String.toList_inj, escape, String.toList_ofList, Nat.toString_eq_repr, Nat.toList_repr,
    List.flatMap_congr hplain, List.flatMap_singleton']

end Html

/-- A leaf is written piece by piece. -/
theorem Leaf.print_markup (content : Leaf) : print content.markup = content.written := by
  cases content with
  | text content => exact print_singleton (.text content)
  | code content => rfl
  | image source alt title =>
    change print [tag "img" (("src", source) :: (titleAttr title ++ [("alt", alt)]))] =
      "<img src=\"" ++ escape source ++ "\"" ++ titleText title ++ " alt=\"" ++ escape alt ++ "\">"
    rw [print_tag, List.map_append, String.join_append, join_titleAttr, ← String.toList_inj]
    simp [Attribute.print]
  | checkbox checked => cases checked <;> rfl
  | rawHtml html => exact print_singleton (.raw html)
  | _ => rfl

/-- What stands before and after the content of a container is the text around it. -/
theorem ContainerKind.print_markup (kind : ContainerKind) (children : List Element)
    (base : Option String) (ids : Anchors) (inner : List Piece) {entry : Option Outline.Entry}
    (hentry : kind.isHeading → entry = Container.entry? ⟨kind, children⟩ ids) :
    print (opening base ((Container.mk kind children).anchor ids).1 kind ++ inner ++ closing kind) =
      kind.written base entry (print inner) := by
  rw [print_append, print_append]
  generalize print inner = inside
  cases kind with
  | document =>
    change "" ++ inside ++ "" = inside
    rw [String.empty_append, String.append_empty]
  | heading level id =>
    rw [hentry rfl]
    change _ = "<h" ++ toString level ++ " id=\"" ++ escape _ ++ "\">" ++ inside ++ "</h" ++
      toString level ++ ">"
    rw [opening, print_tag, closing, print_singleton, ← String.toList_inj]
    have hletter : (toString "h").toList = ['h'] := rfl
    simp [Piece.print, hletter]
  | quote alert =>
    cases alert with
    | none => rfl
    | some alert => cases alert <;> rfl
  | list start =>
    cases start with
    | none => rfl
    | some start =>
      by_cases hstart : start = 1
      · subst hstart
        rfl
      · have hwritten : (list (some start)).written base entry inside =
            "<ol start=\"" ++ toString start ++ "\">" ++ inside ++ "</ol>" := if_neg hstart
        have hclose : print (closing (.list (some start))) = "</ol>" := rfl
        rw [opening, startAttr, if_neg hstart, print_tag, escape_toString, hclose, hwritten,
          ← String.toList_inj]
        simp
  | codeBlock language =>
    cases language with
    | none => rfl
    | some language =>
      have hopen : opening base ((Container.mk (.codeBlock (some language)) children).anchor ids).1
          (.codeBlock (some language)) =
            [bare "pre"] ++ [tag "code" [("class", "language-" ++ language)]] := rfl
      have hprefix : escape "language-" = "language-" := rfl
      have hclose : print (closing (.codeBlock (some language))) = "</code></pre>" := rfl
      have hpre : print [bare "pre"] = "<pre>" := rfl
      change _ = "<pre><code class=\"language-" ++ escape language ++ "\">" ++ inside ++
        "</code></pre>"
      rw [hopen, print_append, print_tag, escape_append, hprefix, hpre, hclose, ← String.toList_inj]
      simp
  | tableCell header align => cases header <;> cases align <;> rfl
  | span style => cases style <;> rfl
  | hyperlink destination title =>
    have hhref : (base.map (resolveLink destination)).getD destination = href base destination := by
      cases base <;> rfl
    have hclose : print (closing (.hyperlink destination title)) = "</a>" := rfl
    change _ = "<a href=\"" ++ escape (href base destination) ++ "\"" ++ titleText title ++ ">" ++
      inside ++ "</a>"
    rw [opening, print_tag, join_titleAttr, hhref, hclose, ← String.toList_inj]
    simp
  | custom name =>
    have hclose : print (closing (.custom name)) = "</div>" := rfl
    change _ = "<div data-kind=\"" ++ escape name ++ "\">" ++ inside ++ "</div>"
    rw [opening, print_tag, hclose, ← String.toList_inj]
    simp
  | _ => rfl

/-! ## Trees as text -/

theorem Container.isSome_entry (container : Container) (ids : Anchors) :
    (container.entry? ids).isSome = container.kind.isHeading := by
  obtain ⟨kind, children⟩ := container
  cases kind <;> rfl

namespace Element

variable {base : Option String}

mutual

/-- **An element has the headings that its entries say**, wherever these stand in a list. -/
theorem print_markup (element : Element) (ids : Anchors) (earlier later : List Outline.Entry) :
    print (element.markup base ids).1 =
      element.written base (earlier ++ entries ids element.containers ++ later) earlier.length := by
  cases element with
  | leaf content => exact content.print_markup
  | container kind children =>
    let heading : Container := ⟨kind, children⟩
    let own := (heading.entry? ids).toList
    let inner := entries (heading.anchor ids).2 (containersAll children)
    have hentries : earlier ++ entries ids (container kind children).containers ++ later =
        earlier ++ own ++ inner ++ later := by
      rw [containers, entries_cons, ← List.append_assoc]
    have hsome : (heading.entry? ids).isSome = kind.isHeading := heading.isSome_entry ids
    have hfound : kind.isHeading →
        (earlier ++ own ++ inner ++ later)[earlier.length]? = heading.entry? ids := by
      intro hkind
      obtain ⟨entry, hentry⟩ := Option.isSome_iff_exists.mp (hsome.trans hkind)
      simp [own, hentry]
    have hbegin : (if kind.isHeading then earlier.length + 1 else earlier.length) =
        (earlier ++ own).length := by
      rw [← hsome, List.length_append]
      cases hentry : heading.entry? ids <;> simp [own, hentry]
    have hinner := print_markupAll children (kind = .table) (heading.anchor ids).2
      (earlier ++ own) later
    rw [hentries, markup, written, hbegin]
    refine (kind.print_markup children base ids _ hfound).trans ?_
    rw [hinner]
    simp only [decide_eq_true_eq]
    rfl

theorem print_markupAll (elements : List Element) (bodyAhead : Bool) (ids : Anchors)
    (earlier later : List Outline.Entry) :
    print (markupAll base bodyAhead elements ids).1 =
      let each := writtenEach base (earlier ++ entries ids (containersAll elements) ++ later)
        earlier.length elements
      if bodyAhead then tableText elements each else String.join each := by
  cases elements with
  | nil => cases bodyAhead <;> rfl
  | cons element rest =>
    let others := entries (ids.past element.containers) (containersAll rest)
    let toc := earlier ++ entries ids element.containers ++ (others ++ later)
    let each := writtenEach base toc (earlier.length + element.headings.length) rest
    have hentries : earlier ++ entries ids (containersAll (element :: rest)) ++ later = toc := by
      rw [containersAll, entries_append, ← List.append_assoc, List.append_assoc _ others]
    have hfirst : print (element.markup base ids).1 = element.written base toc earlier.length :=
      print_markup element ids earlier (others ++ later)
    have hrest (ahead : Bool) :
        print (markupAll base ahead rest (ids.past element.containers)).1 =
          if ahead then tableText rest each else String.join each := by
      have hall := print_markupAll rest ahead (ids.past element.containers)
        (earlier ++ entries ids element.containers) later
      rwa [List.length_append, length_entries, List.append_assoc _ others] at hall
    rw [hentries]
    simp only [markupAll, writtenEach, markup_snd]
    cases bodyAhead with
    | false =>
      simp only [Bool.false_and, Bool.not_false, Bool.and_true, Bool.false_eq_true, ↓reduceIte]
      rw [print_append, hfirst, hrest, String.join_cons]
      rfl
    | true =>
      cases hrow : element.isTableRow with
      | true =>
        -- the row opens the body, which holds all that is left
        have hbody : print [bare "tbody"] = "<tbody>" := rfl
        have hend : print [.closeTag "tbody"] = "</tbody>" := rfl
        rw [tableText, if_pos hrow, String.join_cons]
        simp only [Bool.and_true, Bool.not_true, Bool.and_false, ↓reduceIte]
        rw [← List.singleton_append, print_append, print_append, print_append, hfirst, hrest, hbody,
          hend]
        simp only [String.append_assoc]
        rfl
      | false =>
        rw [tableText, hrow]
        simp only [Bool.and_false, Bool.not_false, Bool.and_true, Bool.false_eq_true, ↓reduceIte]
        rw [print_append, hfirst, hrest]
        rfl

end

end Element

/-! ## Headings that are read back -/

/-- The tag that opens the heading of an entry. -/
def Outline.Entry.token (entry : Outline.Entry) : Token :=
  .openTag s!"h{entry.level}" [⟨"id", some entry.id⟩]

namespace Html

/-- Whether the token opens a heading: the name of its tag is a letter and a number. -/
def Token.isHeading : Token → Bool
  | .openTag name _ =>
    match name.toList with
    | 'h' :: number => number ≠ [] && number.all Char.isDigit
    | _ => false
  | _ => false

theorem isHeading_token (entry : Outline.Entry) : entry.token.isHeading = true := by
  have hname : s!"h{entry.level}".toList = 'h' :: Nat.toDigits 10 entry.level :=
    toList_headingName entry.level
  have hdigits : (Nat.toDigits 10 entry.level).all Char.isDigit = true :=
    List.all_eq_true.mpr fun _ => Nat.isDigit_of_mem_toDigits (by omega) (by omega)
  rw [Outline.Entry.token, Token.isHeading, hname]
  exact Bool.and_eq_true_iff.mpr ⟨decide_eq_true Nat.toDigits_ne_nil, hdigits⟩

/-- A tag that is not that of a heading adds no heading. -/
theorem filter_element {name : String} {attributes : List (String × String)} {inner : List Token}
    (hname : (Token.openTag name []).isHeading = false) :
    (element name attributes inner).filter Token.isHeading = inner.filter Token.isHeading := by
  have hopen (given : List Attribute) : (Token.openTag name given).isHeading = false := hname
  have hclose : (Token.closeTag name).isHeading = false := rfl
  rw [element, List.filter_append, List.filter_cons_of_neg (ne_true_of_eq_false (hopen _)),
    List.filter_cons_of_neg (ne_true_of_eq_false hclose), List.filter_nil, List.append_nil]

/-- To join texts adds none either. -/
theorem filter_joinText (run : String) (tokens : List Token) :
    (joinText run tokens).filter Token.isHeading = tokens.filter Token.isHeading := by
  have hrun (run : String) : (Token.run run).filter Token.isHeading = [] := by
    unfold Token.run
    split <;> rfl
  induction tokens generalizing run with
  | nil => exact hrun run
  | cons token rest ih =>
    cases token with
    | text content => exact ih (run ++ content)
    | openTag | closeTag =>
      rw [joinText, List.filter_append, hrun, List.nil_append, List.filter_cons, ih,
        ← List.filter_cons]

theorem filter_tableTokens (children : List Element) (each : List (List Token)) :
    (tableTokens children each).filter Token.isHeading =
      each.flatten.filter Token.isHeading := by
  unfold tableTokens
  dsimp only
  split
  · rw [List.filter_append, filter_element rfl, ← List.filter_append, ← List.flatten_append,
      List.take_append_drop]
  · rfl

end Html

theorem Leaf.filter_tokens (content : Leaf) : content.tokens.filter Token.isHeading = [] := by
  cases content with
  | image source alt title => cases title <;> rfl
  | checkbox checked => cases checked <;> rfl
  | _ => rfl

/-- A container opens the heading of its entry, if it has one. -/
theorem ContainerKind.filter_tokens (kind : ContainerKind) (children : List Element)
    (base : Option String) (ids : Anchors) (inner : List Token) :
    (kind.tokens base ((Container.mk kind children).anchor ids).1 inner).filter Token.isHeading =
      (Container.entry? ⟨kind, children⟩ ids).toList.map Outline.Entry.token ++
        inner.filter Token.isHeading := by
  cases kind with
  | document => rfl
  | heading level id =>
    let heading : Container := ⟨.heading level id, children⟩
    let entry : Outline.Entry := ⟨level, heading.headingText, (heading.anchor ids).1⟩
    have hclose : (Token.closeTag s!"h{level}").isHeading = false := rfl
    change (entry.token :: inner ++ [Token.closeTag s!"h{level}"]).filter Token.isHeading =
      entry.token :: inner.filter Token.isHeading
    rw [List.filter_append, List.filter_cons_of_pos (isHeading_token entry),
      List.filter_cons_of_neg (ne_true_of_eq_false hclose), List.filter_nil, List.append_nil]
  | quote alert =>
    cases alert with
    | none => exact filter_element rfl
    | some alert =>
      refine (filter_element rfl).trans ?_
      rw [List.filter_append, filter_element rfl, filter_element rfl]
      rfl
  | list start => cases start <;> exact filter_element rfl
  | codeBlock language =>
    cases language <;> exact (filter_element rfl).trans (filter_element rfl)
  | tableHead => exact (filter_element rfl).trans (filter_element rfl)
  | tableCell header align => cases header <;> exact filter_element rfl
  | span style => cases style <;> exact filter_element rfl
  | hyperlink destination title => cases title <;> exact filter_element rfl
  | _ => exact filter_element rfl

namespace Element

variable {base : Option String}

mutual

/-- **The headings among the tokens of an element** are those of its entries. -/
theorem filter_tokens (element : Element) (ids : Anchors) :
    (element.tokens base ids).filter Token.isHeading =
      (entries ids element.containers).map Outline.Entry.token := by
  cases element with
  | leaf content => exact content.filter_tokens
  | container kind children =>
    have heach := filter_tokensEach children ((Container.mk kind children).anchor ids).2
    rw [tokens, containers, entries_cons, List.map_append, ← heach]
    refine (kind.filter_tokens children base ids _).trans (congrArg _ ?_)
    split
    · exact filter_tableTokens children _
    · rfl

theorem filter_tokensEach (elements : List Element) (ids : Anchors) :
    (tokensEach base ids elements).flatten.filter Token.isHeading =
      (entries ids (containersAll elements)).map Outline.Entry.token := by
  cases elements with
  | nil => rfl
  | cons element rest =>
    rw [tokensEach, containersAll, List.flatten_cons, List.filter_append, entries_append,
      List.map_append, filter_tokens element ids, filter_tokensEach rest]

end

end Element

/-- **Markup and outline agree on headings.**  The table of contents has one entry for each
heading of the tree, in order, and the text of the markup is what these entries say, with each
level as a number and each id with entities in the place of characters.  Where nothing is raw, a
reader finds the headings that the entries say, and no others.  With the title extracted, the
first entry of level 1 is missing from the table of contents, and all others are as they were. -/
theorem toHtml_toc (root : Container) (base : Option String) :
    let toc := (Outline.ofRoot root false).toc
    let titled := Outline.ofRoot root true
    toc.length = root.toElement.headings.length ∧
    List.Forall₂ Outline.Entry.Describes toc root.toElement.headings ∧
    root.toHtml base = root.toElement.written base toc 0 ∧
    (∀ text : String, (escape text).toList = escaped text.toList) ∧
    (root.toElement.rawFree = true →
      (tokenize (root.toHtml base)).map (·.filter Token.isHeading) =
        some (toc.map fun entry => .openTag s!"h{entry.level}" [⟨"id", some entry.id⟩])) ∧
    titled.title = (toc.find? (·.level = 1)).map (·.title) ∧
    titled.toc = toc.eraseP (·.level = 1) ∧ titled.toc.Sublist toc := by
  intro toc titled
  have htoc : toc = entries {} root.toElement.containers := Outline.toc_ofRoot root
  have htitled : titled = toc.foldl (Outline.add true) {} := by
    rw [htoc, ← Container.toList_walk]
    rfl
  have houtline := htitled.trans (Outline.foldl_add_untitled [] toc)
  have hrest : titled.toc = toc.eraseP (·.level = 1) := by rw [houtline, List.nil_append]
  refine ⟨?_, ?_, ?_, toList_escape, fun hraw => ?_, ?_, hrest, hrest ▸ List.eraseP_sublist⟩
  · rw [htoc, Outline.length_entries]
  · rw [htoc]
    exact Outline.describes_entries {} _
  · have hwritten : print (root.toElement.markup base {}).1 = _ :=
      root.toElement.print_markup {} [] []
    rw [List.nil_append, List.append_nil, ← htoc] at hwritten
    exact hwritten
  · rw [root.tokenize_markup base hraw, Option.map_some, filter_joinText,
      root.toElement.filter_tokens, ← htoc]
    rfl
  · rw [houtline]

/-- A heading in a table that has the title of an earlier one, and one in a quote with an id of its
own that would end its attribute. -/
theorem toHtml_toc_nested :
    let root : Container := ⟨.document,
      [.container (.heading 2 none) [.leaf (.text "A")],
        .container .table [.container .tableRow [.container (.tableCell false .none)
          [.container (.heading 1 none) [.leaf (.text "A")]]]],
        .container (.quote none) [.container (.heading 1 (some "\"><h1>")) [.leaf (.text " B ")]]]⟩
    root.toElement.rawFree = true ∧
      (tokenize (root.toHtml none)).map (·.filter Token.isHeading) = some
        [.openTag "h2" [⟨"id", some "a"⟩], .openTag "h1" [⟨"id", some "a-1"⟩],
          .openTag "h1" [⟨"id", some "\"><h1>"⟩]] ∧
      (Outline.ofRoot root true).title = some "A" ∧
      (Outline.ofRoot root true).toc = [⟨2, "A", "a"⟩, ⟨1, "B", "\"><h1>"⟩] := by
  intro root
  have hraw : root.toElement.rawFree = true := rfl
  have htoc : (Outline.ofRoot root false).toc =
      [⟨2, "A", "a"⟩, ⟨1, "A", "a-1"⟩, ⟨1, "B", "\"><h1>"⟩] := by decide +kernel
  obtain ⟨-, -, -, -, hread, htitle, hrest, -⟩ := toHtml_toc root none
  rw [htoc] at hread htitle hrest
  exact ⟨hraw, hread hraw, htitle, hrest⟩

end Rendition
