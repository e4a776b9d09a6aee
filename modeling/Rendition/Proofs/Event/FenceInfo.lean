import Mathlib.Data.List.Basic
import Rendition.Event.FenceInfo
import Rendition.Proofs.Text.Fields

/-!
# Info strings are read as they are written

An info string is written from a language and the parts that follow it (`FenceInfo.Part`): flags,
and keys with values in quotes of either kind or in none.  White space of any length stands between
them, and may stand around the whole.

What is written so is read back (`FenceInfo.parse_written`).  White space gives the words back as
they were, because it is in none of them; an equals sign gives key and value back, because it is
not in the key; and the quotes can be taken off, because the value itself neither begins nor ends
with one.  Of the pairs with one key the last one counts.
-/

namespace Rendition.FenceInfo

/-! ## Writing -/

/-- How a value is written. -/
inductive Quoting where
  | bare
  | double
  | single
  deriving DecidableEq, Repr

/-- What may follow the language. -/
inductive Part where
  /-- A word without meaning. -/
  | flag (word : String)
  | pair (key value : String) (quoting : Quoting)
  deriving DecidableEq, Repr

def Quoting.write (value : List Char) : Quoting → List Char
  | bare => value
  | double => '"' :: value ++ ['"']
  | single => '\'' :: value ++ ['\'']

def Part.write : Part → List Char
  | flag word => word.toList
  | pair key value quoting => key.toList ++ '=' :: quoting.write value.toList

/-- The key and the value of a pair. -/
def Part.pair? : Part → Option (String × String)
  | flag _ => none
  | pair key value _ => some (key, value)

/-- The text has no white space in it. -/
def Unbroken (text : String) : Prop :=
  ∀ c ∈ text.toList, Text.isWhite c = false

/-- The character is a quote of either kind. -/
def IsQuote (c : Char) : Prop :=
  c = '"' ∨ c = '\''

/-- The text neither begins nor ends with a quote. -/
def Unquoted (text : String) : Prop :=
  (∀ c ∈ text.toList.head?, ¬ IsQuote c) ∧ ∀ c ∈ text.toList.getLast?, ¬ IsQuote c

/-- The part can be told apart from what stands around it. -/
def Part.Clean : Part → Prop
  | flag word => word ≠ "" ∧ Unbroken word ∧ '=' ∉ word.toList
  | pair key value _ => Unbroken key ∧ '=' ∉ key.toList ∧ Unbroken value ∧ Unquoted value

instance (text : String) : Decidable (Unbroken text) :=
  List.decidableBAll _ text.toList

instance (c : Char) : Decidable (IsQuote c) :=
  inferInstanceAs (Decidable (_ ∨ _))

instance (text : String) : Decidable (Unquoted text) :=
  @instDecidableAnd _ _ (Option.decidableForallMem _) (Option.decidableForallMem _)

instance : (part : Part) → Decidable part.Clean
  | .flag _ => inferInstanceAs (Decidable (_ ∧ _))
  | .pair .. => inferInstanceAs (Decidable (_ ∧ _))

/-- The text is white space, and not empty. -/
def IsGap (text : List Char) : Prop :=
  text ≠ [] ∧ ∀ c ∈ text, Text.isWhite c

instance (text : List Char) : Decidable (IsGap text) :=
  @instDecidableAnd _ _ inferInstance (List.decidableBAll _ text)

/-- The value that the last of some pairs with a key has. -/
def lastValue? (key : String) (entries : List (String × String)) : Option String :=
  (entries.reverse.find? (·.1 = key)).map (·.2)

/-! ## Values -/

/-- **The quotes are taken off as they were put on.** -/
theorem unquote_write {value : String} (h : Unquoted value) (quoting : Quoting) :
    unquote (quoting.write value.toList) = value.toList := by
  obtain ⟨hhead, hlast⟩ := h
  have hends : ∀ mark, IsQuote mark →
      (∀ c ∈ value.toList.head?, decide (c = mark) = false) ∧
        ∀ c ∈ value.toList.getLast?, decide (c = mark) = false := by
    intro mark hmark
    constructor
    · exact fun c hc => decide_eq_false fun heq => hhead c hc (heq ▸ hmark)
    · exact fun c hc => decide_eq_false fun heq => hlast c hc (heq ▸ hmark)
  obtain ⟨hheadDouble, hlastDouble⟩ := hends '"' (Or.inl rfl)
  obtain ⟨hheadSingle, hlastSingle⟩ := hends '\'' (Or.inr rfl)
  cases quoting with
  | bare =>
    rw [unquote, Quoting.write, Text.strip_eq_self hheadDouble hlastDouble,
      Text.strip_eq_self hheadSingle hlastSingle]
  | double =>
    rw [unquote, Quoting.write, Text.strip_enclosed (by decide) hheadDouble hlastDouble,
      Text.strip_eq_self hheadSingle hlastSingle]
  | single =>
    -- there are no double quotes to take off, for the single ones are outside
    have houter : Text.strip (· = '"') ('\'' :: value.toList ++ ['\'']) =
        '\'' :: value.toList ++ ['\''] := by
      refine Text.strip_eq_self (fun c hc => ?_) fun c hc => ?_
      · obtain rfl := Option.some.inj hc
        decide
      · rw [List.getLast?_concat] at hc
        obtain rfl := Option.some.inj hc
        decide
    rw [unquote, Quoting.write, houter, Text.strip_enclosed (by decide) hheadSingle hlastSingle]

/-! ## Parts -/

variable {part : Part}

/-- **A part gives the entry that it was written for**, and a flag gives none. -/
theorem keyValue?_write (h : part.Clean) : keyValue? part.write = part.pair? := by
  cases part with
  | flag word =>
    obtain ⟨-, -, hequals⟩ := h
    rw [keyValue?, Part.write, Text.cutFirst?_of_notMem hequals]
    rfl
  | pair key value quoting =>
    obtain ⟨-, hequals, -, hunquoted⟩ := h
    have hvalue := unquote_write hunquoted quoting
    simp only [keyValue?, Part.write, Text.cutFirst?_append_cons hequals, Option.map_some, hvalue,
      String.ofList_toList]
    rfl

/-- A part is one word. -/
theorem write_unbroken (h : part.Clean) :
    part.write ≠ [] ∧ ∀ c ∈ part.write, Text.isWhite c = false := by
  cases part with
  | flag word =>
    obtain ⟨hne, hword, -⟩ := h
    exact ⟨fun hnil => hne (String.toList_eq_nil_iff.mp hnil), hword⟩
  | pair key value quoting =>
    obtain ⟨hkey, -, hvalue, -⟩ := h
    have hquoted : ∀ c ∈ quoting.write value.toList, Text.isWhite c = false := by
      cases quoting with
      | bare => exact hvalue
      | double | single =>
        refine List.forall_mem_cons.mpr ⟨by decide, List.forall_mem_append.mpr ⟨hvalue, ?_⟩⟩
        exact List.forall_mem_singleton.mpr (by decide)
    refine ⟨List.append_ne_nil_of_right_ne_nil _ (List.cons_ne_nil _ _), ?_⟩
    exact List.forall_mem_append.mpr ⟨hkey, List.forall_mem_cons.mpr ⟨by decide, hquoted⟩⟩

/-! ## Info strings -/

/-- Of the entries that are put into a map one after another, the last one with a key counts. -/
theorem getElem?_foldl_insert (entries : List (String × String)) (key : String) :
    (entries.foldl (fun attrs (key, value) => attrs.insert key value) (∅ : ExtraAttrs))[key]? =
      lastValue? key entries := by
  rw [lastValue?, ← List.foldr_reverse]
  induction entries.reverse with
  | nil => exact Std.ExtTreeMap.getElem?_empty
  | cons entry rest ih =>
    rw [List.foldr_cons, Std.ExtTreeMap.getElem?_insert, ih]
    by_cases h : entry.1 = key <;> simp [h]

/-- The words of what is written are the language and the parts. -/
theorem whiteWords_written {language : List Char} {parts : List (List Char × Part)}
    {lead trail : List Char} (hne : language ≠ [])
    (hlanguage : ∀ c ∈ language, Text.isWhite c = false)
    (hparts : ∀ entry ∈ parts, IsGap entry.1 ∧ entry.2.Clean)
    (hlead : ∀ c ∈ lead, Text.isWhite c) (htrail : ∀ c ∈ trail, Text.isWhite c) :
    Text.whiteWords
        (lead ++ language ++ parts.flatMap (fun entry => entry.1 ++ entry.2.write) ++ trail) =
      language :: parts.map (·.2.write) := by
  have hwords : Text.words Text.isWhite (lead ++ language) = [language] := by
    rw [Text.words_separators_append hlead, Text.words_eq_singleton hne hlanguage]
  rw [Text.whiteWords, Text.words_append_separators htrail,
    Text.words_append_flatMap (fun entry hentry => (hparts entry hentry).1)
      (fun entry hentry => write_unbroken (hparts entry hentry).2), hwords]
  rfl

/-- **What is written is read back**: the language, and for each key the value of the last pair
with that key.  Flags have no part in it. -/
theorem parse_written {language : String} {parts : List (List Char × Part)}
    {lead trail : List Char} (hlanguage : language ≠ "" ∧ Unbroken language)
    (hparts : ∀ entry ∈ parts, IsGap entry.1 ∧ entry.2.Clean)
    (hlead : ∀ c ∈ lead, Text.isWhite c) (htrail : ∀ c ∈ trail, Text.isWhite c) :
    let written := lead ++ language.toList ++
      parts.flatMap (fun entry => entry.1 ++ entry.2.write) ++ trail
    let read := parse (String.ofList written)
    read.language = language ∧
      ∀ key, read.attributes[key]? = lastValue? key (parts.filterMap (·.2.pair?)) := by
  intro written read
  have hne : language.toList ≠ [] := fun hnil => hlanguage.1 (String.toList_eq_nil_iff.mp hnil)
  have hwords : Text.whiteWords written = language.toList :: parts.map (·.2.write) :=
    whiteWords_written hne hlanguage.2 hparts hlead htrail
  have hentries : (parts.map (·.2.write)).filterMap keyValue? = parts.filterMap (·.2.pair?) := by
    rw [List.filterMap_map]
    exact List.filterMap_congr fun entry hentry => keyValue?_write (hparts entry hentry).2
  have hread : read = ⟨language, (parts.filterMap (·.2.pair?)).foldl
      (fun attrs (key, value) => attrs.insert key value) ∅⟩ := by
    simp only [read, parse, String.toList_ofList, hwords, hentries, String.ofList_toList]
  rw [hread]
  exact ⟨rfl, getElem?_foldl_insert _⟩

/-- White space of several kinds, and one key four times: in quotes of both kinds, with an equals
sign in its value, and without a value.  Another pair has no key. -/
theorem parse_written_plantuml :
    let language := "plant\"uml="
    let parts : List (List Char × Part) :=
      [([' '], .pair "format" "png" .bare), (['\t', '\u3000'], .flag "flag'"),
        (['\n'], .pair "format" "a='b'=c" .single), ([' ', ' '], .pair "" "" .double),
        ([' '], .pair "format" "x=\"y" .double), (['\u2003'], .pair "theme\"" "dark" .single)]
    let lead := [' ', '\u00a0']
    let trail := ['\r', '\n']
    let written := lead ++ language.toList ++
      parts.flatMap (fun entry => entry.1 ++ entry.2.write) ++ trail
    let read := parse (String.ofList written)
    (language ≠ "" ∧ Unbroken language) ∧
    (∀ entry ∈ parts, IsGap entry.1 ∧ entry.2.Clean) ∧
    (∀ c ∈ lead, Text.isWhite c) ∧ (∀ c ∈ trail, Text.isWhite c) ∧
    read.language = language ∧ read.attributes["format"]? = some "x=\"y" ∧
    read.attributes[""]? = some "" ∧ read.attributes["theme\""]? = some "dark" ∧
    read.attributes["flag'"]? = none := by
  intro language parts lead trail written read
  have hlanguage : language ≠ "" ∧ Unbroken language := by decide
  have hparts : ∀ entry ∈ parts, IsGap entry.1 ∧ entry.2.Clean := by decide
  have hlead : ∀ c ∈ lead, Text.isWhite c := List.all_eq_true.mp (by decide)
  have htrail : ∀ c ∈ trail, Text.isWhite c := List.all_eq_true.mp (by decide)
  obtain ⟨hread, hvalues⟩ := parse_written hlanguage hparts hlead htrail
  exact ⟨hlanguage, hparts, hlead, htrail, hread, hvalues "format", hvalues "", hvalues "theme\"",
    hvalues "flag'"⟩

end Rendition.FenceInfo
