import Rendition.Html.Markup

/-!
# Reading markup back

`tokenize` is a plain reader of HTML: a tag runs from one angle bracket to the other, with
double quotes around attribute values, and everything else is text.  In text and attribute
values the five entities that `escape` writes stand for their characters, and an ampersand
that begins no such entity is an error, as is every slip in a tag.  The reader is a machine
that takes one character after another (`Mode.step`).

Read back from its written form, markup is what it was (`scan_print`), except that text that
adjoins other text has become one with it.  Whatever stands in a text or a value, the reader
is back in text mode after each piece: escaped text holds neither a bracket, by which it could
begin a tag, nor a quote, by which it could end a value.
-/

namespace Rendition.Html

/-! ## The reader -/

/-- The character that a named entity stands for. -/
def entity? (name : List Char) : Option Char :=
  let names := [("amp", '&'), ("lt", '<'), ("gt", '>'), ("quot", '"'), ("#x27", '\'')]
  (names.find? fun known => known.1.toList = name).map (·.2)

/-- What a run of written characters means, where the given characters are those of an entity
that has begun. -/
def decodeFrom (begun : Option (List Char)) : List Char → Option (List Char)
  | [] => if begun.isNone then some [] else none
  | c :: rest =>
    match begun with
    | none =>
      if c = '&' then decodeFrom (some []) rest else (decodeFrom none rest).map (c :: ·)
    | some name =>
      if c = ';' then
        (entity? name).bind fun meant => (decodeFrom none rest).map (meant :: ·)
      else
        decodeFrom (some (name ++ [c])) rest

/-- What a run of written characters means. -/
def decode (run : List Char) : Option (List Char) :=
  decodeFrom none run

/-- What a reader reads. -/
inductive Token where
  | openTag (name : String) (attributes : List Attribute)
  | closeTag (name : String)
  | text (content : String)
  deriving DecidableEq, Repr

/-- A text, unless it is empty. -/
def Token.run (content : String) : List Token :=
  if content = "" then [] else [.text content]

/-- Whether a character may stand in a name. -/
def isNameChar (c : Char) : Bool :=
  c.isAlphanum || c = '-'

/-- A tag that is being read. -/
structure TagHead where
  name : String
  attributes : List Attribute := []

/-- What has been read of the token at hand. -/
inductive Mode where
  | text (run : List Char)
  /-- Behind the bracket that begins a tag. -/
  | tagStart
  | closeName (name : List Char)
  | openName (name : List Char)
  /-- Behind the space ahead of an attribute. -/
  | attributeStart (tag : TagHead)
  | attributeName (tag : TagHead) (name : List Char)
  /-- Between the name of an attribute and its value. -/
  | valueStart (tag : TagHead) (name : List Char)
  | value (tag : TagHead) (name run : List Char)
  /-- Behind a value. -/
  | attributeEnd (tag : TagHead)

/-- The tag with one more attribute. -/
def TagHead.append (tag : TagHead) (added : Attribute) : TagHead :=
  { tag with attributes := tag.attributes ++ [added] }

/-- Takes the character behind a name or a value, which ends the tag or leads on to an
attribute. -/
def TagHead.goOn (tag : TagHead) (c : Char) : Option (List Token × Mode) :=
  if c = '>' then some ([.openTag tag.name tag.attributes], .text [])
  else if c = ' ' then some ([], .attributeStart tag)
  else none

/-- The text that a run of written characters makes. -/
def readRun (run : List Char) : Option (List Token) :=
  (decode run).map fun meant => Token.run (String.ofList meant)

/-- Takes a character: the tokens that it ends, and what is read then. -/
def Mode.step : Mode → Char → Option (List Token × Mode)
  | text run, c =>
    if c = '<' then (readRun run).map (·, tagStart) else some ([], text (run ++ [c]))
  | tagStart, c =>
    if c = '/' then some ([], closeName [])
    else if c.isAlpha then some ([], openName [c])
    else none
  | closeName name, c =>
    if isNameChar c then some ([], closeName (name ++ [c]))
    else if c = '>' ∧ name ≠ [] then some ([.closeTag (String.ofList name)], text [])
    else none
  | openName name, c =>
    if isNameChar c then some ([], openName (name ++ [c]))
    else TagHead.goOn ⟨String.ofList name, []⟩ c
  | attributeStart tag, c => if isNameChar c then some ([], attributeName tag [c]) else none
  | attributeName tag name, c =>
    if isNameChar c then some ([], attributeName tag (name ++ [c]))
    else if c = '=' then some ([], valueStart tag name)
    else (tag.append ⟨String.ofList name, none⟩).goOn c
  | valueStart tag name, c => if c = '"' then some ([], value tag name []) else none
  | value tag name run, c =>
    if c = '"' then
      (decode run).map fun meant =>
        ([], attributeEnd (tag.append ⟨String.ofList name, some (String.ofList meant)⟩))
    else some ([], value tag name (run ++ [c]))
  | attributeEnd tag, c => tag.goOn c

/-- The tokens of what is still to be read.  It must not end within a tag. -/
def scan (mode : Mode) : List Char → Option (List Token)
  | [] =>
    match mode with
    | .text run => readRun run
    | _ => none
  | c :: rest =>
    (mode.step c).bind fun (tokens, next) => (scan next rest).map (tokens ++ ·)

/-- Reads HTML. -/
def tokenize (html : String) : Option (List Token) :=
  scan (.text []) html.toList

/-- Joins each text with those that follow it at once, the first one with the given text. -/
def joinText (run : String) : List Token → List Token
  | [] => Token.run run
  | .text content :: rest => joinText (run ++ content) rest
  | .openTag name attributes :: rest =>
    Token.run run ++ .openTag name attributes :: joinText "" rest
  | .closeTag name :: rest => Token.run run ++ .closeTag name :: joinText "" rest

/-! ## Escaped text -/

/-- **Decoding undoes escaping.** -/
theorem decode_escape (text : List Char) : decode (text.flatMap escapeChar) = some text := by
  induction text with
  | nil => rfl
  | cons c rest ih =>
    rw [List.flatMap_cons, decode]
    have hchar : decodeFrom none (escapeChar c ++ rest.flatMap escapeChar) =
        (decode (rest.flatMap escapeChar)).map (c :: ·) := by
      unfold escapeChar
      split
      · rfl
      · rfl
      · rfl
      · rfl
      · rfl
      · -- the character stands for itself, and it begins no entity
        rename_i hamp _ _ _ _
        rw [List.singleton_append, decodeFrom]
        exact if_neg hamp
    rw [hchar, ih]
    rfl

/-- Escaped text holds no character by which it could leave the text or the value it is in. -/
theorem not_mem_escape {text : List Char} {c : Char} (h : c ∈ text.flatMap escapeChar) :
    c ≠ '<' ∧ c ≠ '"' := by
  obtain ⟨meant, -, hc⟩ := List.mem_flatMap.mp h
  have hall : (escapeChar meant).all (fun written => written ≠ '<' && written ≠ '"') = true := by
    unfold escapeChar
    split
    · rfl
    · rfl
    · rfl
    · rfl
    · rfl
    · rename_i hlt _ hquot _
      simpa using And.intro hlt hquot
  simpa using List.all_eq_true.mp hall c hc

theorem readRun_escape (text : String) :
    readRun (text.toList.flatMap escapeChar) = some (Token.run text) := by
  rw [readRun, decode_escape, Option.map_some, String.ofList_toList]

/-! ## Reading a run of characters -/

section Scan

variable {mode next : Mode} {c : Char} {tokens : List Token}

theorem scan_cons (h : mode.step c = some (tokens, next)) (rest : List Char) :
    scan mode (c :: rest) = (scan next rest).map (tokens ++ ·) := by
  rw [scan, h]
  rfl

/-- A character that ends no token. -/
theorem scan_cons_silent (h : mode.step c = some ([], next)) (rest : List Char) :
    scan mode (c :: rest) = scan next rest := by
  rw [scan_cons h]
  exact Option.map_id'

/-- Characters that are all put away in the same way. -/
theorem scan_run {mode : List Char → Mode} {added : List Char}
    (h : ∀ run, ∀ c ∈ added, (mode run).step c = some ([], mode (run ++ [c])))
    (run rest : List Char) :
    scan (mode run) (added ++ rest) = scan (mode (run ++ added)) rest := by
  induction added generalizing run with
  | nil => rw [List.append_nil, List.nil_append]
  | cons c added ih =>
    have hrest : ∀ run, ∀ c ∈ added, (mode run).step c = some ([], mode (run ++ [c])) :=
      fun run c hc => h run c (List.mem_cons_of_mem _ hc)
    rw [List.cons_append, scan_cons_silent (h run c List.mem_cons_self), ih hrest,
      List.append_assoc, List.singleton_append]

end Scan

/-! ## Tags -/

/-- Whether a text is a name: a letter, and then letters, digits and dashes. -/
def isName (name : String) : Bool :=
  match name.toList with
  | [] => false
  | first :: rest => first.isAlpha && rest.all isNameChar

/-- A name, character by character. -/
theorem exists_of_isName {name : String} (h : isName name = true) :
    ∃ first rest, name.toList = first :: rest ∧ first.isAlpha = true ∧
      isNameChar first = true ∧ ∀ c ∈ rest, isNameChar c = true := by
  unfold isName at h
  split at h
  · cases h
  · rename_i first rest hname
    obtain ⟨hfirst, hrest⟩ := Bool.and_eq_true_iff.mp h
    refine ⟨first, rest, hname, hfirst, ?_, List.all_eq_true.mp hrest⟩
    simp [isNameChar, Char.isAlphanum, hfirst]

/-- The mode is behind a name or a value in the head of a tag. -/
def Mode.Behind (tag : TagHead) (mode : Mode) : Prop :=
  ∀ c, c = '>' ∨ c = ' ' → mode.step c = tag.goOn c

theorem behind_openName (name : List Char) :
    Mode.Behind ⟨String.ofList name, []⟩ (.openName name) := by
  rintro c (rfl | rfl) <;> rfl

theorem behind_attributeName (tag : TagHead) (name : List Char) :
    Mode.Behind (tag.append ⟨String.ofList name, none⟩) (.attributeName tag name) := by
  rintro c (rfl | rfl) <;> rfl

theorem behind_attributeEnd (tag : TagHead) : Mode.Behind tag (.attributeEnd tag) :=
  fun _ _ => rfl

/-- **Reading an attribute** adds it to the tag, whatever its value is. -/
theorem scan_attribute {tag : TagHead} {mode : Mode} (hmode : mode.Behind tag) {given : Attribute}
    (hname : isName given.name = true) :
    ∃ behind : Mode, behind.Behind (tag.append given) ∧
      ∀ rest, scan mode (given.print.toList ++ rest) = scan behind rest := by
  obtain ⟨first, others, hlist, -, hfirst, hothers⟩ := exists_of_isName hname
  obtain ⟨name, value⟩ := given
  have hspace : mode.step ' ' = some ([], .attributeStart tag) := hmode ' ' (.inr rfl)
  have hstart : (Mode.attributeStart tag).step first = some ([], .attributeName tag [first]) :=
    if_pos hfirst
  have hrun : ∀ run, ∀ c ∈ others, (Mode.attributeName tag run).step c =
      some ([], .attributeName tag (run ++ [c])) := fun run c hc => if_pos (hothers c hc)
  have hread : ∀ rest, scan mode (' ' :: name.toList ++ rest) =
      scan (.attributeName tag name.toList) rest := by
    intro rest
    rw [hlist, List.cons_append, scan_cons_silent hspace, List.cons_append,
      scan_cons_silent hstart, scan_run hrun]
    rfl
  cases value with
  | none =>
    -- only the next character shows that there is no value
    have hprint : (Attribute.print ⟨name, none⟩).toList = ' ' :: name.toList :=
      String.toList_append
    have hbehind := behind_attributeName tag name.toList
    rw [String.ofList_toList] at hbehind
    exact ⟨_, hbehind, fun rest => hprint ▸ hread rest⟩
  | some value =>
    have hprint : (Attribute.print ⟨name, some value⟩).toList =
        ' ' :: name.toList ++ '=' :: '"' :: (value.toList.flatMap escapeChar ++ ['"']) := by
      simp [Attribute.print, escape]
    have hvalue : ∀ run, ∀ c ∈ value.toList.flatMap escapeChar,
        (Mode.value tag name.toList run).step c =
          some ([], .value tag name.toList (run ++ [c])) :=
      fun run c hc => if_neg (not_mem_escape hc).2
    have hquote : (Mode.value tag name.toList (value.toList.flatMap escapeChar)).step '"' =
        some ([], .attributeEnd (tag.append ⟨name, some value⟩)) := by
      simp only [Mode.step, decode_escape, ↓reduceIte, Option.map_some, String.ofList_toList]
    refine ⟨_, behind_attributeEnd _, fun rest => ?_⟩
    calc scan mode ((Attribute.print ⟨name, some value⟩).toList ++ rest)
        = scan (.attributeName tag name.toList)
            ('=' :: '"' :: (value.toList.flatMap escapeChar ++ '"' :: rest)) := by
          rw [hprint, List.append_assoc, hread]
          simp
      _ = scan (.value tag name.toList []) (value.toList.flatMap escapeChar ++ '"' :: rest) := by
          rw [scan_cons_silent rfl, scan_cons_silent rfl]
      _ = scan (.value tag name.toList (value.toList.flatMap escapeChar)) ('"' :: rest) :=
          scan_run hvalue [] _
      _ = scan (.attributeEnd (tag.append ⟨name, some value⟩)) rest := scan_cons_silent hquote rest

/-- Reading attributes adds them all. -/
theorem scan_attributes (attributes : List Attribute)
    (hnames : ∀ given ∈ attributes, isName given.name = true) {tag : TagHead} {mode : Mode}
    (hmode : mode.Behind tag) :
    ∃ behind : Mode, behind.Behind { tag with attributes := tag.attributes ++ attributes } ∧
      ∀ rest, scan mode ((String.join (attributes.map (·.print))).toList ++ rest) =
        scan behind rest := by
  induction attributes generalizing tag mode with
  | nil =>
    rw [List.append_nil]
    exact ⟨mode, hmode, fun _ => rfl⟩
  | cons given others ih =>
    obtain ⟨hgiven, hothers⟩ := List.forall_mem_cons.mp hnames
    obtain ⟨middle, hmiddle, hfirst⟩ := scan_attribute hmode hgiven
    obtain ⟨behind, hbehind, hrest⟩ := ih hothers hmiddle
    refine ⟨behind, ?_, fun rest => ?_⟩
    · rw [List.append_cons]
      exact hbehind
    · rw [List.map_cons, String.join_cons, String.toList_append, List.append_assoc, hfirst, hrest]

/-- What the reader makes of text that a tag follows. -/
theorem step_bracket (text : String) :
    (Mode.text (text.toList.flatMap escapeChar)).step '<' = some (Token.run text, .tagStart) := by
  simp only [Mode.step, readRun_escape, ↓reduceIte, Option.map_some]

/-- **Reading an opening tag.** -/
theorem scan_openTag {name : String} {attributes : List Attribute} (hname : isName name = true)
    (hnames : ∀ given ∈ attributes, isName given.name = true) (text : String) (rest : List Char) :
    scan (.text (text.toList.flatMap escapeChar))
        ((Piece.openTag name attributes).print.toList ++ rest) =
      (scan (.text []) rest).map (Token.run text ++ .openTag name attributes :: ·) := by
  obtain ⟨first, others, hlist, hletter, -, hothers⟩ := exists_of_isName hname
  have hslash : first ≠ '/' := by
    rintro rfl
    exact absurd hletter (by decide)
  have hstart : Mode.tagStart.step first = some ([], .openName [first]) := by
    simp only [Mode.step, hslash, hletter, ↓reduceIte]
  have hrun : ∀ run, ∀ c ∈ others, (Mode.openName run).step c =
      some ([], .openName (run ++ [c])) := fun run c hc => if_pos (hothers c hc)
  obtain ⟨behind, hbehind, hattributes⟩ :=
    scan_attributes attributes hnames (behind_openName name.toList)
  rw [String.ofList_toList] at hbehind
  have hend : behind.step '>' = some ([.openTag name attributes], .text []) :=
    hbehind '>' (.inl rfl)
  have hprint : (Piece.openTag name attributes).print.toList ++ rest =
      '<' :: (name.toList ++ ((String.join (attributes.map (·.print))).toList ++ '>' :: rest)) := by
    simp [Piece.print]
  have hname : scan .tagStart
      (name.toList ++ ((String.join (attributes.map (·.print))).toList ++ '>' :: rest)) =
        (scan (.text []) rest).map ([.openTag name attributes] ++ ·) := by
    rw [hlist, List.cons_append, scan_cons_silent hstart, scan_run hrun, List.singleton_append,
      ← hlist, hattributes, scan_cons hend]
  rw [hprint, scan_cons (step_bracket text), hname, Option.map_map]
  rfl

/-- **Reading a closing tag.** -/
theorem scan_closeTag {name : String} (hname : isName name = true) (text : String)
    (rest : List Char) :
    scan (.text (text.toList.flatMap escapeChar)) ((Piece.closeTag name).print.toList ++ rest) =
      (scan (.text []) rest).map (Token.run text ++ .closeTag name :: ·) := by
  obtain ⟨first, others, hlist, -, hfirst, hothers⟩ := exists_of_isName hname
  have hall : ∀ c ∈ name.toList, isNameChar c = true := by
    rw [hlist]
    exact List.forall_mem_cons.mpr ⟨hfirst, hothers⟩
  have hslash : Mode.tagStart.step '/' = some ([], .closeName []) := rfl
  have hrun : ∀ run, ∀ c ∈ name.toList, (Mode.closeName run).step c =
      some ([], .closeName (run ++ [c])) := fun run c hc => if_pos (hall c hc)
  have hend : (Mode.closeName name.toList).step '>' = some ([.closeTag name], .text []) := by
    have hne : name.toList ≠ [] := by simp [hlist]
    have hbracket : isNameChar '>' = false := rfl
    simp [Mode.step, hbracket, hne]
  have hprint : (Piece.closeTag name).print.toList ++ rest =
      '<' :: '/' :: (name.toList ++ '>' :: rest) := by
    simp [Piece.print]
  have hread : scan .tagStart ('/' :: (name.toList ++ '>' :: rest)) =
      (scan (.text []) rest).map ([.closeTag name] ++ ·) := by
    rw [scan_cons_silent hslash, scan_run hrun, List.nil_append, scan_cons hend]
  rw [hprint, scan_cons (step_bracket text), hread, Option.map_map]
  rfl

/-! ## Markup -/

namespace Piece

/-- What a reader is to make of the piece.  Raw markup is no token. -/
def token? : Piece → Option Token
  | openTag name attributes => some (.openTag name attributes)
  | closeTag name => some (.closeTag name)
  | text content => some (.text content)
  | raw _ => none

/-- Whether the piece is text, or a tag whose names are names. -/
def isPlain : Piece → Bool
  | openTag name attributes => isName name && attributes.all fun given => isName given.name
  | closeTag name => isName name
  | text _ => true
  | raw _ => false

end Piece

/-- **Markup is read back as it was written**, with each text joined to the ones it adjoins. -/
theorem scan_print (pieces : List Piece) (hplain : pieces.all Piece.isPlain = true)
    (text : String) :
    scan (.text (text.toList.flatMap escapeChar)) (print pieces).toList =
      some (joinText text (pieces.filterMap Piece.token?)) := by
  induction pieces generalizing text with
  | nil => exact readRun_escape text
  | cons piece rest ih =>
    obtain ⟨hpiece, hrest⟩ := Bool.and_eq_true_iff.mp hplain
    have hprint : (print (piece :: rest)).toList = piece.print.toList ++ (print rest).toList := by
      rw [print, List.map_cons, String.join_cons, String.toList_append]
      rfl
    have hfresh : scan (.text []) (print rest).toList =
        some (joinText "" (rest.filterMap Piece.token?)) := ih hrest ""
    rw [hprint]
    cases piece with
    | openTag name attributes =>
      obtain ⟨hname, hnames⟩ := Bool.and_eq_true_iff.mp hpiece
      rw [scan_openTag hname (List.all_eq_true.mp hnames), hfresh]
      rfl
    | closeTag name =>
      rw [scan_closeTag hpiece, hfresh]
      rfl
    | text content =>
      -- the text goes on, so nothing is read yet
      have hrun : ∀ run, ∀ c ∈ content.toList.flatMap escapeChar,
          (Mode.text run).step c = some ([], .text (run ++ [c])) :=
        fun run c hc => if_neg (not_mem_escape hc).1
      have hmore := ih hrest (text ++ content)
      rw [String.toList_append, List.flatMap_append] at hmore
      have hcontent : (Piece.text content).print.toList = content.toList.flatMap escapeChar :=
        String.toList_ofList
      rw [hcontent, scan_run hrun, hmore]
      rfl
    | raw content => cases hpiece

theorem tokenize_print (pieces : List Piece) (hplain : pieces.all Piece.isPlain = true) :
    tokenize (print pieces) = some (joinText "" (pieces.filterMap Piece.token?)) :=
  scan_print pieces hplain ""

/-- A value without quotes is no value. -/
example : tokenize "<a href=x>" = none := rfl

end Rendition.Html
