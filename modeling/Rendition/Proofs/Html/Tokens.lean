import Rendition.Proofs.Html.Headings
import Rendition.Proofs.Html.Tokenizer

/-!
# The tokens of rich text

What a reader is to find in the HTML of rich text can be said without any markup
(`Element.tokens`): each container is a tag around the tokens of what it holds, or a few tags
one inside the other, and each leaf is a text or a tag that encloses nothing.  Attribute values
and texts are those of the tree.  Unless there is raw markup in the tree, this is what a
reader does find: the markup has these tokens (`Element.tokens_markup`), and it is read back as
it was written (`Html.tokenize_print`).

That the tags are properly nested is seen of the tokens, and so is that no string of the tree
has a say in which tags and attributes there are: with all strings blanked, they are the same.
-/

namespace Rendition

open Html

/-! ## Tokens of a tree -/

namespace Html

/-- A tag around tokens, with attributes that all have values. -/
def element (name : String) (attributes : List (String × String)) (inner : List Token) :
    List Token :=
  .openTag name (attributes.map fun (key, value) => ⟨key, some value⟩) :: inner ++
    [.closeTag name]

/-- A tag that encloses nothing and is not closed. -/
def void (name : String) (attributes : List Attribute) : List Token :=
  [.openTag name attributes]

end Html

/-- The tokens of a leaf.  Raw markup has none of its own. -/
def Leaf.tokens : Leaf → List Token
  | .text content => [.text content]
  | .code content => element "code" [] [.text content]
  | .lineBreak => void "br" []
  | .softBreak => [.text "\n"]
  | .rule => void "hr" []
  | .image source alt none => void "img" [⟨"src", some source⟩, ⟨"alt", some alt⟩]
  | .image source alt (some title) =>
    void "img" [⟨"src", some source⟩, ⟨"title", some title⟩, ⟨"alt", some alt⟩]
  | .checkbox true =>
    void "input" [⟨"type", some "checkbox"⟩, ⟨"checked", none⟩, ⟨"disabled", none⟩] ++ [.text " "]
  | .checkbox false =>
    void "input" [⟨"type", some "checkbox"⟩, ⟨"disabled", none⟩] ++ [.text " "]
  | .rawHtml _ => []

/-- The attributes of a table cell. -/
def Alignment.cellStyle : Alignment → List (String × String)
  | none => []
  | left => [("style", "text-align:left")]
  | center => [("style", "text-align:center")]
  | right => [("style", "text-align:right")]

/-- The tokens of a container around those of what it holds.  `anchor` is the id of a heading,
and links are resolved if there is a base. -/
def ContainerKind.tokens (base : Option String) (anchor : String) (inner : List Token) :
    ContainerKind → List Token
  | .document => inner
  | .paragraph => element "p" [] inner
  | .heading level _ => element s!"h{level}" [("id", anchor)] inner
  | .quote none => element "blockquote" [] inner
  | .quote (some alert) =>
    element "div" [("class", s!"alert alert-{alert.ident}")]
      (element "div" [("class", "alert-title")] [.text alert.title] ++
        element "div" [("class", "alert-content")] inner)
  | .list none => element "ul" [] inner
  | .list (some start) =>
    element "ol" (if start = 1 then [] else [("start", toString start)]) inner
  | .listItem => element "li" [] inner
  | .codeBlock none => element "pre" [] (element "code" [] inner)
  | .codeBlock (some language) =>
    element "pre" [] (element "code" [("class", s!"language-{language}")] inner)
  | .table => element "table" [] inner
  | .tableHead => element "thead" [] (element "tr" [] inner)
  | .tableRow => element "tr" [] inner
  | .tableCell true align => element "th" align.cellStyle inner
  | .tableCell false align => element "td" align.cellStyle inner
  | .definitionList => element "dl" [] inner
  | .definitionTitle => element "dt" [] inner
  | .definitionDetails => element "dd" [] inner
  | .span .emphasis => element "em" [] inner
  | .span .strong => element "strong" [] inner
  | .span .strikethrough => element "del" [] inner
  | .span .superscript => element "sup" [] inner
  | .span .subscript => element "sub" [] inner
  | .hyperlink destination title =>
    let href := match base with
      | none => destination
      | some base => resolveLink destination base
    match title with
    | none => element "a" [("href", href)] inner
    | some title => element "a" [("href", href), ("title", title)] inner
  | .custom name => element "div" [("data-kind", name)] inner

/-- The tokens of a table, from those of each of its children.  What begins with the first row
is the body. -/
def Html.tableTokens (children : List Element) (each : List (List Token)) : List Token :=
  let ahead := children.findIdx Element.isTableRow
  if ahead < children.length then
    (each.take ahead).flatten ++ element "tbody" [] (each.drop ahead).flatten
  else
    each.flatten

namespace Element

mutual

/-- The tokens of an element, where `ids` are the ids used before it. -/
def tokens (base : Option String) (ids : Anchors) : Element → List Token
  | .leaf content => content.tokens
  | .container kind children =>
    let heading : Container := ⟨kind, children⟩
    let each := tokensEach base (heading.anchor ids).2 children
    kind.tokens base (heading.anchor ids).1
      (if kind = .table then tableTokens children each else each.flatten)

/-- The tokens of each of a list of elements. -/
def tokensEach (base : Option String) (ids : Anchors) : List Element → List (List Token)
  | [] => []
  | element :: rest =>
    element.tokens base ids :: tokensEach base (ids.past element.containers) rest

end

mutual

/-- Whether there is no raw markup in the element. -/
def rawFree : Element → Bool
  | .leaf (.rawHtml _) => false
  | .leaf _ => true
  | .container _ children => rawFreeAll children

def rawFreeAll : List Element → Bool
  | [] => true
  | element :: rest => element.rawFree && rawFreeAll rest

end

end Element

/-! ## The markup has these tokens -/

theorem Leaf.tokens_markup (content : Leaf) :
    content.markup.filterMap Piece.token? = content.tokens := by
  cases content with
  | image source alt title => cases title <;> rfl
  | checkbox checked => cases checked <;> rfl
  | _ => rfl

/-- What stands before and after the content of a container is its tags. -/
theorem ContainerKind.tokens_markup (kind : ContainerKind) (base : Option String) (anchor : String)
    (inner : List Piece) :
    (opening base anchor kind ++ inner ++ closing kind).filterMap Piece.token? =
      kind.tokens base anchor (inner.filterMap Piece.token?) := by
  rw [List.filterMap_append, List.filterMap_append]
  generalize inner.filterMap Piece.token? = inside
  cases kind with
  | document => exact List.append_nil _
  | quote alert =>
    cases alert with
    | none => rfl
    | some alert =>
      -- with a tag right inside another, the same list is put together in another way
      simp [opening, closing, tag, Piece.token?, tokens, element]
  | list start => cases start <;> rfl
  | codeBlock language =>
    cases language with
    | none => simp [opening, closing, bare, Piece.token?, tokens, element]
    | some language => simp [opening, closing, bare, tag, Piece.token?, tokens, element]
  | tableHead => simp [opening, closing, bare, Piece.token?, tokens, element]
  | tableCell header align => cases header <;> cases align <;> rfl
  | span style => cases style <;> rfl
  | hyperlink destination title => cases base <;> cases title <;> rfl
  | _ => rfl

namespace Html

/-- Ahead of the first row there is no body. -/
theorem tableTokens_cons {child : Element} (h : child.isTableRow = false) (children : List Element)
    (first : List Token) (each : List (List Token)) :
    tableTokens (child :: children) (first :: each) = first ++ tableTokens children each := by
  unfold tableTokens
  simp only [List.findIdx_cons, h, cond_false, List.length_cons, Nat.add_lt_add_iff_right,
    List.take_succ_cons, List.drop_succ_cons, List.flatten_cons, List.append_assoc]
  split <;> rfl

/-- With the first row the body begins. -/
theorem tableTokens_cons_row {child : Element} (h : child.isTableRow = true)
    (children : List Element) (each : List (List Token)) :
    tableTokens (child :: children) each = element "tbody" [] each.flatten := by
  unfold tableTokens
  simp [List.findIdx_cons, h]

end Html

namespace Element

variable {base : Option String}

mutual

/-- **The markup of an element has its tokens.** -/
theorem tokens_markup (element : Element) (ids : Anchors) :
    (element.markup base ids).1.filterMap Piece.token? = element.tokens base ids := by
  cases element with
  | leaf content => exact content.tokens_markup
  | container kind children =>
    have hinner := tokens_markupAll children (kind = .table)
      ((Container.mk kind children).anchor ids).2
    rw [markup, tokens]
    simp only [ContainerKind.tokens_markup, hinner, decide_eq_true_eq]

theorem tokens_markupAll (elements : List Element) (bodyAhead : Bool) (ids : Anchors) :
    (markupAll base bodyAhead elements ids).1.filterMap Piece.token? =
      if bodyAhead then tableTokens elements (tokensEach base ids elements)
      else (tokensEach base ids elements).flatten := by
  cases elements with
  | nil => cases bodyAhead <;> rfl
  | cons element rest =>
    have hfirst := tokens_markup element ids
    have hrest := fun ahead => tokens_markupAll rest ahead (ids.past element.containers)
    simp only [markupAll, tokensEach, markup_snd]
    cases bodyAhead with
    | false =>
      simp only [Bool.false_and, Bool.not_false, Bool.and_true, Bool.false_eq_true, ↓reduceIte]
      rw [List.filterMap_append, hfirst, hrest]
      rfl
    | true =>
      cases hrow : element.isTableRow with
      | true =>
        -- the row opens the body, which holds all that is left
        rw [tableTokens_cons_row hrow, List.flatten_cons]
        simp only [Bool.and_true, Bool.not_true, Bool.and_false, ↓reduceIte, List.filterMap_append,
          List.filterMap_cons, List.cons_append]
        rw [hfirst, hrest]
        rfl
      | false =>
        rw [tableTokens_cons hrow]
        simp only [Bool.and_false, Bool.not_false, Bool.and_true, Bool.false_eq_true, ↓reduceIte]
        rw [List.filterMap_append, hfirst, hrest]
        rfl

end

end Element

/-! ## All names are names -/

namespace Html

/-- The name of a heading is a letter and a number. -/
theorem toList_headingName (level : Nat) :
    s!"h{level}".toList = 'h' :: Nat.toDigits 10 level := by
  have hletter : (toString "h").toList = ['h'] := rfl
  simp only [String.toList_append, Nat.toString_eq_repr, Nat.toList_repr, hletter,
    List.singleton_append]

theorem isName_heading (level : Nat) : isName s!"h{level}" = true := by
  unfold isName
  rw [toList_headingName]
  refine Bool.and_eq_true_iff.mpr ⟨rfl, List.all_eq_true.mpr fun c hc => ?_⟩
  have hdigit := Nat.isDigit_of_mem_toDigits (by omega) (by omega) hc
  simp [isNameChar, Char.isAlphanum, hdigit]

/-- For a tag it is the names that matter. -/
@[simp] theorem isPlain_tag (name : String) (attributes : List (String × String)) :
    (tag name attributes).isPlain = (isName name && (attributes.map Prod.fst).all isName) := by
  rw [tag, Piece.isPlain, List.all_map, List.all_map]
  rfl

@[simp] theorem isPlain_text (content : String) : (Piece.text content).isPlain = true := rfl

theorem isPlain_opening (base : Option String) (anchor : String) (kind : ContainerKind) :
    (opening base anchor kind).all Piece.isPlain = true := by
  cases kind with
  | heading level id => simpa +decide [opening] using isName_heading level
  | quote alert => cases alert <;> simp +decide [opening]
  | list start =>
    cases start with
    | none => rfl
    | some start => by_cases hstart : start = 1 <;> simp +decide [opening, startAttr, hstart]
  | codeBlock language => cases language <;> simp +decide [opening]
  | tableCell header align => cases header <;> cases align <;> rfl
  | span style => cases style <;> rfl
  | hyperlink destination title => cases title <;> simp +decide [opening, titleAttr]
  | custom name => simp +decide [opening]
  | _ => rfl

theorem isPlain_closing (kind : ContainerKind) : (closing kind).all Piece.isPlain = true := by
  cases kind with
  | heading level id => exact Bool.and_eq_true_iff.mpr ⟨isName_heading level, rfl⟩
  | quote alert => cases alert <;> rfl
  | list start => cases start <;> rfl
  | tableCell header align => cases header <;> rfl
  | span style => cases style <;> rfl
  | _ => rfl

end Html

namespace Element

variable {base : Option String}

theorem isPlain_leaf {content : Leaf} (h : (Element.leaf content).rawFree = true) :
    content.markup.all Piece.isPlain = true := by
  cases content with
  | rawHtml html => cases h
  | image source alt title => cases title <;> simp +decide [Leaf.markup, titleAttr]
  | checkbox checked => cases checked <;> rfl
  | _ => rfl

mutual

/-- Without raw markup there is nothing but text and tags. -/
theorem isPlain_markup (element : Element) (h : element.rawFree = true) (ids : Anchors) :
    (element.markup base ids).1.all Piece.isPlain = true := by
  cases element with
  | leaf content => exact isPlain_leaf h
  | container kind children =>
    have hinner := isPlain_markupAll children h (kind = .table)
      ((Container.mk kind children).anchor ids).2
    rw [markup]
    simp only [List.all_append, isPlain_opening, isPlain_closing, hinner, Bool.and_self]

theorem isPlain_markupAll (elements : List Element) (h : rawFreeAll elements = true)
    (bodyAhead : Bool) (ids : Anchors) :
    (markupAll base bodyAhead elements ids).1.all Piece.isPlain = true := by
  cases elements with
  | nil => rfl
  | cons element rest =>
    obtain ⟨helement, hothers⟩ := Bool.and_eq_true_iff.mp h
    have hfirst := isPlain_markup element helement ids
    have hrest := fun ahead => isPlain_markupAll rest hothers ahead (element.markup base ids).2
    simp only [markupAll]
    split
    · have hbody : (bare "tbody").isPlain = true ∧ (Piece.closeTag "tbody").isPlain = true :=
        ⟨rfl, rfl⟩
      simp only [List.all_append, List.all_cons, List.all_nil, hfirst, hrest, hbody, Bool.and_self]
    · simp only [List.all_append, hfirst, hrest, Bool.and_self]

end

end Element

/-! ## Nesting -/

namespace Html

/-- The tags that enclose nothing. -/
def isVoid (name : String) : Bool :=
  name = "br" || name = "hr" || name = "img" || name = "input"

/-- The tags that are still open after the tokens, innermost first.  What is closed has to be
the innermost one. -/
def nest (openTags : List String) : List Token → Option (List String)
  | [] => some openTags
  | .openTag name _ :: rest => nest (if isVoid name then openTags else name :: openTags) rest
  | .closeTag name :: rest =>
    match openTags with
    | [] => none
    | innermost :: outer => if innermost = name then nest outer rest else none
  | .text _ :: rest => nest openTags rest

/-- The tokens close what they open, and nothing else. -/
def Balanced (tokens : List Token) : Prop :=
  ∀ openTags rest, nest openTags (tokens ++ rest) = nest openTags rest

theorem balanced_nil : Balanced [] := fun _ _ => rfl

theorem balanced_text (content : String) : Balanced [.text content] := fun _ _ => rfl

theorem Balanced.append {first second : List Token} (hfirst : Balanced first)
    (hsecond : Balanced second) : Balanced (first ++ second) := by
  intro openTags rest
  rw [List.append_assoc, hfirst, hsecond]

theorem Balanced.flatten {each : List (List Token)} (h : ∀ tokens ∈ each, Balanced tokens) :
    Balanced each.flatten := by
  induction each with
  | nil => exact balanced_nil
  | cons tokens rest ih =>
    obtain ⟨hfirst, hrest⟩ := List.forall_mem_cons.mp h
    exact hfirst.append (ih hrest)

theorem balanced_void {name : String} (hvoid : isVoid name = true) (attributes : List Attribute) :
    Balanced (void name attributes) := by
  intro openTags rest
  rw [void, List.singleton_append, nest, if_pos hvoid]

/-- A tag around what is balanced. -/
theorem Balanced.element {inner : List Token} (h : Balanced inner) {name : String}
    (hvoid : isVoid name = false) (attributes : List (String × String)) :
    Balanced (element name attributes inner) := by
  intro openTags rest
  have hinner := h (name :: openTags) (.closeTag name :: rest)
  rw [Html.element, List.append_assoc, List.cons_append, nest, hvoid, List.singleton_append,
    if_neg Bool.false_ne_true, hinner, nest, if_pos rfl]

/-- Joining texts moves no tag. -/
theorem nest_joinText (tokens : List Token) (run : String) (openTags : List String) :
    nest openTags (joinText run tokens) = nest openTags tokens := by
  have hrun : ∀ run openTags rest, nest openTags (Token.run run ++ rest) = nest openTags rest := by
    intro run openTags rest
    unfold Token.run
    split <;> rfl
  induction tokens generalizing run openTags with
  | nil =>
    have hend := hrun run openTags []
    rwa [List.append_nil] at hend
  | cons token rest ih =>
    cases token with
    | text content => exact ih _ _
    | openTag name attributes => rw [joinText, hrun, nest, nest, ih]
    | closeTag name =>
      rw [joinText, hrun]
      cases openTags with
      | nil => rfl
      | cons innermost outer => rw [nest, nest, ih]

theorem isVoid_heading (level : Nat) : isVoid s!"h{level}" = false := by
  -- behind the letter there are digits only
  have hne : ∀ (name : String) (c : Char), c ∈ name.toList.tail → c.isDigit = false →
      s!"h{level}" ≠ name := by
    rintro name c hc hother rfl
    rw [toList_headingName, List.tail_cons] at hc
    have hdigit := Nat.isDigit_of_mem_toDigits (by omega) (by omega) hc
    exact Bool.false_ne_true (hother.symm.trans hdigit)
  simp only [isVoid, hne "br" 'r' (by decide) rfl, hne "hr" 'r' (by decide) rfl,
    hne "img" 'm' (by decide) rfl, hne "input" 'n' (by decide) rfl, decide_false, Bool.or_self]

theorem balanced_tableTokens (children : List Element) {each : List (List Token)}
    (h : ∀ tokens ∈ each, Balanced tokens) : Balanced (tableTokens children each) := by
  unfold tableTokens
  extract_lets ahead
  split
  · refine .append (.flatten ?_) (.element (.flatten ?_) rfl [])
    · exact fun tokens hmem => h tokens (List.mem_of_mem_take hmem)
    · exact fun tokens hmem => h tokens (List.mem_of_mem_drop hmem)
  · exact .flatten h

end Html

theorem Leaf.balanced_tokens (content : Leaf) : Balanced content.tokens := by
  cases content with
  | text | softBreak => exact balanced_text _
  | code content => exact (balanced_text content).element rfl []
  | lineBreak | rule => exact balanced_void rfl []
  | image source alt title => cases title <;> exact balanced_void rfl _
  | checkbox checked => cases checked <;> exact (balanced_void rfl _).append (balanced_text " ")
  | rawHtml => exact balanced_nil

theorem ContainerKind.balanced_tokens (kind : ContainerKind) (base : Option String)
    (anchor : String) {inner : List Token} (h : Balanced inner) :
    Balanced (kind.tokens base anchor inner) := by
  cases kind with
  | document => exact h
  | heading level id => exact h.element (isVoid_heading level) _
  | quote alert =>
    cases alert with
    | none => exact h.element rfl _
    | some alert =>
      have htitle : Balanced (element "div" [("class", "alert-title")] [.text alert.title]) :=
        (balanced_text alert.title).element rfl _
      exact (htitle.append (h.element rfl _)).element rfl _
  | list start => cases start <;> exact h.element rfl _
  | codeBlock language => cases language <;> exact (h.element rfl _).element rfl _
  | tableHead => exact (h.element rfl _).element rfl _
  | tableCell header align => cases header <;> exact h.element rfl _
  | span style => cases style <;> exact h.element rfl _
  | hyperlink destination title => cases title <;> exact h.element rfl _
  | _ => exact h.element rfl _

namespace Element

variable {base : Option String}

mutual

/-- **The tokens of an element are properly nested.** -/
theorem balanced_tokens (element : Element) (ids : Anchors) :
    Balanced (element.tokens base ids) := by
  cases element with
  | leaf content => exact content.balanced_tokens
  | container kind children =>
    have heach := balanced_tokensEach children ((Container.mk kind children).anchor ids).2
    rw [tokens]
    refine kind.balanced_tokens base _ ?_
    split
    · exact balanced_tableTokens children heach
    · exact .flatten heach

theorem balanced_tokensEach (elements : List Element) (ids : Anchors) :
    ∀ tokens ∈ tokensEach base ids elements, Balanced tokens := by
  cases elements with
  | nil => nofun
  | cons element rest =>
    exact List.forall_mem_cons.mpr ⟨balanced_tokens element ids, balanced_tokensEach rest _⟩

end

end Element

/-! ## What does not depend on strings -/

/-- The kind without its strings. -/
def ContainerKind.blank : ContainerKind → ContainerKind
  | heading level id => heading level (id.map fun _ => "")
  | codeBlock language => codeBlock (language.map fun _ => "")
  | hyperlink _ title => hyperlink "" (title.map fun _ => "")
  | custom _ => custom ""
  | kind => kind

/-- The leaf without its strings. -/
def Leaf.blank : Leaf → Leaf
  | text _ => text ""
  | code _ => code ""
  | image _ _ title => image "" "" (title.map fun _ => "")
  | rawHtml _ => rawHtml ""
  | leaf => leaf

namespace Element

mutual

/-- The element without its strings. -/
def blank : Element → Element
  | .leaf content => .leaf content.blank
  | .container kind children => .container kind.blank (blankAll children)

def blankAll : List Element → List Element
  | [] => []
  | element :: rest => element.blank :: blankAll rest

end

theorem blankAll_eq_map (elements : List Element) : blankAll elements = elements.map blank := by
  induction elements with
  | nil => rfl
  | cons element rest ih => rw [blankAll, ih, List.map_cons]

theorem isTableRow_blank (element : Element) : element.blank.isTableRow = element.isTableRow := by
  cases element with
  | leaf content => rfl
  | container kind children => cases kind <;> rfl

end Element

namespace Html

/-- A tag without the values of its attributes. -/
def Token.bare? : Token → Option Token
  | openTag name attributes =>
    some (.openTag name (attributes.map fun given =>
      { given with value := given.value.map fun _ => "" }))
  | closeTag name => some (.closeTag name)
  | text _ => none

/-- The tags among tokens, with the names of their attributes. -/
def skeleton (tokens : List Token) : List Token :=
  tokens.filterMap Token.bare?

theorem skeleton_append (first second : List Token) :
    skeleton (first ++ second) = skeleton first ++ skeleton second :=
  List.filterMap_append

theorem skeleton_flatten (each : List (List Token)) :
    skeleton each.flatten = (each.map skeleton).flatten := by
  induction each with
  | nil => rfl
  | cons tokens rest ih =>
    rw [List.flatten_cons, skeleton_append, ih, List.map_cons, List.flatten_cons]

theorem skeleton_flatten_congr {each others : List (List Token)}
    (h : each.map skeleton = others.map skeleton) :
    skeleton each.flatten = skeleton others.flatten := by
  rw [skeleton_flatten, skeleton_flatten, h]

/-- Joining texts changes no tag. -/
theorem skeleton_joinText (tokens : List Token) (run : String) :
    skeleton (joinText run tokens) = skeleton tokens := by
  have hrun : ∀ run, skeleton (Token.run run) = [] := by
    intro run
    unfold Token.run
    split <;> rfl
  induction tokens generalizing run with
  | nil => exact hrun run
  | cons token rest ih =>
    cases token with
    | text content => exact ih _
    | openTag | closeTag =>
      rw [joinText, skeleton_append, hrun, List.nil_append]
      exact congrArg (List.cons _) (ih "")

/-- What counts of a tag are the names of its attributes. -/
theorem skeleton_element {name : String} {attributes others : List (String × String)}
    {inner otherInner : List Token} (h : skeleton inner = skeleton otherInner)
    (hnames : attributes.map Prod.fst = others.map Prod.fst) :
    skeleton (element name attributes inner) = skeleton (element name others otherInner) := by
  have hbare : ∀ attributes : List (String × String), ∀ inner,
      skeleton (element name attributes inner) =
        .openTag name ((attributes.map Prod.fst).map fun key => ⟨key, some ""⟩) ::
          skeleton inner ++ [.closeTag name] := by
    intro attributes inner
    rw [element, skeleton_append]
    simp [skeleton, Token.bare?, Function.comp_def]
  rw [hbare, hbare, h, hnames]

/-- The first row of a table is where it was. -/
theorem skeleton_tableTokens (children : List Element) {each others : List (List Token)}
    (h : each.map skeleton = others.map skeleton) :
    skeleton (tableTokens children each) =
      skeleton (tableTokens (Element.blankAll children) others) := by
  have hrow : Element.isTableRow ∘ Element.blank = Element.isTableRow :=
    funext Element.isTableRow_blank
  unfold tableTokens
  rw [Element.blankAll_eq_map, List.findIdx_map, hrow, List.length_map]
  extract_lets ahead
  split
  · have htake : (each.take ahead).map skeleton = (others.take ahead).map skeleton := by
      rw [List.map_take, List.map_take, h]
    have hdrop : (each.drop ahead).map skeleton = (others.drop ahead).map skeleton := by
      rw [List.map_drop, List.map_drop, h]
    rw [skeleton_append, skeleton_append, skeleton_flatten_congr htake,
      skeleton_element (skeleton_flatten_congr hdrop) rfl]
  · exact skeleton_flatten_congr h

end Html

theorem ContainerKind.skeleton_tokens (kind : ContainerKind) (base otherBase : Option String)
    (anchor otherAnchor : String) {inner otherInner : List Token}
    (h : skeleton inner = skeleton otherInner) :
    skeleton (kind.tokens base anchor inner) =
      skeleton (kind.blank.tokens otherBase otherAnchor otherInner) := by
  cases kind with
  | document => exact h
  | quote alert =>
    cases alert with
    | none => exact skeleton_element h rfl
    | some alert =>
      refine skeleton_element ?_ rfl
      rw [skeleton_append, skeleton_append, skeleton_element h rfl]
  | list start => cases start <;> exact skeleton_element h rfl
  | codeBlock language =>
    cases language <;> exact skeleton_element (skeleton_element h rfl) rfl
  | tableHead => exact skeleton_element (skeleton_element h rfl) rfl
  | tableCell header align => cases header <;> exact skeleton_element h rfl
  | span style => cases style <;> exact skeleton_element h rfl
  | hyperlink destination title => cases title <;> exact skeleton_element h rfl
  | _ => exact skeleton_element h rfl

theorem Leaf.skeleton_tokens (content : Leaf) :
    skeleton content.tokens = skeleton content.blank.tokens := by
  cases content with
  | image source alt title => cases title <;> rfl
  | _ => rfl

namespace Element

mutual

/-- **Without its strings an element has the same tags**, whatever ids and base there are. -/
theorem skeleton_tokens (element : Element) (base otherBase : Option String)
    (ids otherIds : Anchors) :
    skeleton (element.tokens base ids) = skeleton (element.blank.tokens otherBase otherIds) := by
  cases element with
  | leaf content => exact content.skeleton_tokens
  | container kind children =>
    have heach := skeleton_tokensEach children base otherBase
      ((Container.mk kind children).anchor ids).2
      ((Container.mk kind.blank (blankAll children)).anchor otherIds).2
    rw [tokens, blank, tokens]
    have htable : kind.blank = .table ↔ kind = .table := by
      cases kind <;> simp [ContainerKind.blank]
    refine kind.skeleton_tokens base otherBase _ _ ?_
    simp only [htable]
    split
    · exact skeleton_tableTokens children heach
    · exact skeleton_flatten_congr heach

theorem skeleton_tokensEach (elements : List Element) (base otherBase : Option String)
    (ids otherIds : Anchors) :
    (tokensEach base ids elements).map skeleton =
      (tokensEach otherBase otherIds (blankAll elements)).map skeleton := by
  cases elements with
  | nil => rfl
  | cons element rest =>
    rw [tokensEach, blankAll, tokensEach, List.map_cons, List.map_cons,
      skeleton_tokens element base otherBase ids otherIds, skeleton_tokensEach]

end

mutual

theorem rawFree_blank (element : Element) : element.blank.rawFree = element.rawFree := by
  cases element with
  | leaf content => cases content <;> rfl
  | container kind children => exact rawFreeAll_blankAll children

theorem rawFreeAll_blankAll (elements : List Element) :
    rawFreeAll (blankAll elements) = rawFreeAll elements := by
  cases elements with
  | nil => rfl
  | cons element rest =>
    rw [blankAll, rawFreeAll, rawFreeAll, rawFree_blank element, rawFreeAll_blankAll rest]

end

end Element

/-- Where nothing is raw, a reader finds the tokens of the tree. -/
theorem Container.tokenize_markup (root : Container) (base : Option String)
    (hraw : root.toElement.rawFree = true) :
    tokenize (root.toHtml base) = some (joinText "" (root.toElement.tokens base {})) := by
  rw [toHtml, tokenize_print _ (root.toElement.isPlain_markup hraw {}), Element.tokens_markup]

/-- **HTML is read back as the tokens of the tree**, if there is no raw markup in it: texts and
attribute values are those of the tree, and adjacent texts are one.  The tags are properly
nested, and another tree that differs only in its strings, published anywhere, has the same
tags with the same attributes. -/
theorem tokenize_toHtml (root : Container) (base : Option String)
    (hraw : root.toElement.rawFree = true) :
    let tokens := joinText "" (root.toElement.tokens base {})
    tokenize (root.toHtml base) = some tokens ∧ nest [] tokens = some [] ∧
    ∀ (other : Container) (otherBase : Option String),
      other.toElement.blank = root.toElement.blank →
      (tokenize (other.toHtml otherBase)).map skeleton = some (skeleton tokens) := by
  intro tokens
  refine ⟨root.tokenize_markup base hraw, ?_, ?_⟩
  · have hbalanced : Balanced (root.toElement.tokens base {}) := root.toElement.balanced_tokens {}
    have hnest := hbalanced [] []
    rw [List.append_nil] at hnest
    exact (nest_joinText _ "" []).trans hnest
  · intro other otherBase hsame
    have hother : other.toElement.rawFree = true := by
      rw [← Element.rawFree_blank, hsame, Element.rawFree_blank, hraw]
    rw [other.tokenize_markup otherBase hother, Option.map_some, skeleton_joinText, skeleton_joinText,
      other.toElement.skeleton_tokens otherBase base {} {}, hsame,
      ← root.toElement.skeleton_tokens base base {} {}]

/-- Strings that would end a value, a tag or a text if they were not escaped. -/
theorem tokenize_toHtml_hostile :
    let root : Container :=
      ⟨.document,
        [.container (.heading 1 (some "\"><b>")) [.leaf (.text "</h1>"), .leaf (.text "&lt;")],
          .container (.hyperlink "guide/intro.md#a&b" none) [.leaf (.code "'")]]⟩
    root.toElement.rawFree = true ∧
      tokenize (root.toHtml (some "docs")) = some
        [.openTag "h1" [⟨"id", some "\"><b>"⟩], .text "</h1>&lt;", .closeTag "h1",
          .openTag "a" [⟨"href", some "/docs/guide/intro#a&b"⟩], .openTag "code" [], .text "'",
          .closeTag "code", .closeTag "a"] := by
  intro root
  have hraw : root.toElement.rawFree = true := rfl
  obtain ⟨hread, -, -⟩ := tokenize_toHtml root (some "docs") hraw
  exact ⟨hraw, hread.trans (by decide +kernel)⟩

end Rendition
