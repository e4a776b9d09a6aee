import Rendition.Proofs.Html.Walking

/-!
# Which links are resolved

A link is resolved if it leads to a source file, by its ending, and does not begin like one
that leads out of the documents (`IsResolved`).  Resolved, it begins with one slash
(`head?_publishedPath_append_ne`), so it stays on the site: with two it would name another host.
And it is never what it was, so the links that change are those that are resolved
(`resolveChars_eq_self_iff`).

Leading out of the documents is told from the written beginning.  A link that begins with a
scheme and `://` is left alone if the scheme is one of the few that are known, in small letters,
or if the link does not end like a source file (`resolveLink_scheme_eq_self_iff`).  Any other
one is taken for a path.
-/

namespace Rendition.Link

/-- A link up to its fragment. -/
def pathOf (url : List Char) : List Char :=
  url.takeWhile (· ≠ '#')

/-- The fragment of a link, from its mark on. -/
def fragmentOf (url : List Char) : List Char :=
  url.dropWhile (· ≠ '#')

/-- Whether a link is resolved: it does not lead out of the documents, and its path has the
ending of a source file. -/
def IsResolved (url : List Char) : Prop :=
  isFixed url = false ∧ ".md".toList <:+ pathOf url

/-- The path of the file that a link leads to, from the root. -/
def fileOf (url base : List Char) : List Char :=
  match pathOf url with
  | '/' :: absolute => absolute
  | _ => resolveRelative (pathOf url) base

variable {url base : List Char}

theorem pathOf_append_fragmentOf (url : List Char) : pathOf url ++ fragmentOf url = url :=
  List.takeWhile_append_dropWhile

/-! ## The file of a link -/

/-- A link with a slash ahead leads from the root, and any other one from the base. -/
theorem fileOf_cases (url base : List Char) :
    (∃ absolute, pathOf url = '/' :: absolute ∧ fileOf url base = absolute) ∨
    (¬ ['/'] <+: pathOf url ∧ fileOf url base = resolveRelative (pathOf url) base) := by
  unfold fileOf
  split
  · rename_i absolute hpath
    exact Or.inl ⟨absolute, hpath, rfl⟩
  · rename_i hrelative
    refine Or.inr ⟨?_, rfl⟩
    rintro ⟨absolute, hpath⟩
    exact hrelative absolute hpath.symm

theorem fileOf_of_relative (h : ¬ ['/'] <+: pathOf url) (base : List Char) :
    fileOf url base = resolveRelative (pathOf url) base := by
  rcases fileOf_cases url base with ⟨absolute, hpath, -⟩ | ⟨-, hfile⟩
  · exact absurd ⟨absolute, hpath.symm⟩ h
  · exact hfile

/-! ## Fragments -/

theorem notMem_pathOf (url : List Char) : '#' ∉ pathOf url := by
  intro hmem
  have hkept : decide ('#' ≠ '#') = true :=
    List.mem_takeWhile_imp (p := fun c => decide (c ≠ '#')) hmem
  exact of_decide_eq_true hkept rfl

/-- The mark stands in no part of a link that is not the fragment. -/
theorem pathOf_append {front : List Char} (h : '#' ∉ front) (rest : List Char) :
    pathOf (front ++ rest) = front ++ pathOf rest :=
  List.takeWhile_append_of_pos fun _ hc => decide_eq_true fun heq => h (heq ▸ hc)

/-- A fragment begins with its mark. -/
theorem fragmentOf_cases (url : List Char) :
    fragmentOf url = [] ∨ ∃ rest, fragmentOf url = '#' :: rest := by
  cases hfragment : fragmentOf url with
  | nil => exact Or.inl rfl
  | cons c rest =>
    have hmark := List.head?_dropWhile_not (fun c => decide (c ≠ '#')) url
    rw [← fragmentOf, hfragment] at hmark
    have hc : c = '#' := by simpa using hmark
    exact Or.inr ⟨rest, by rw [hc]⟩

theorem pathOf_fragmentOf (url : List Char) : pathOf (fragmentOf url) = [] := by
  rcases fragmentOf_cases url with hnil | ⟨rest, hmark⟩
  · rw [hnil]
    rfl
  · rw [hmark]
    rfl

theorem head?_fragmentOf_ne (url : List Char) : (fragmentOf url).head? ≠ some '/' := by
  rcases fragmentOf_cases url with hnil | ⟨rest, hmark⟩
  · rw [hnil]
    exact (Option.some_ne_none '/').symm
  · rw [hmark, List.head?_cons]
    decide

/-! ## Beginnings of links -/

theorem isFixed_iff : isFixed url = true ↔
    ['#'] <+: url ∨ ∃ lead ∈ externalLeads, lead.toList <+: url := by
  simp only [isFixed, Bool.or_eq_true, List.any_eq_true, List.isPrefixOf_iff_prefix]
  rfl

/-- Whether a character may stand in the scheme of a URI. -/
def isSchemeChar (c : Char) : Bool :=
  c.isAlphanum || c = '+' || c = '-' || c = '.'

/-- Whether a text is the scheme of a URI: a letter, and then such characters. -/
def isScheme : List Char → Bool
  | [] => false
  | c :: rest => c.isAlpha && rest.all isSchemeChar

/-- Whether a link begins with a scheme and a colon. -/
def HasScheme (url : List Char) : Prop :=
  ∃ scheme rest, isScheme scheme ∧ url = scheme ++ ':' :: rest

theorem isSchemeChar_of_isScheme {scheme : List Char} (h : isScheme scheme) :
    ∀ c ∈ scheme, isSchemeChar c := by
  cases scheme with
  | nil => cases h
  | cons first rest =>
    rw [isScheme, Bool.and_eq_true, List.all_eq_true] at h
    refine List.forall_mem_cons.mpr ⟨?_, h.2⟩
    rw [isSchemeChar, Char.isAlphanum, h.1]
    rfl

theorem notMem_of_isScheme {scheme : List Char} (h : isScheme scheme) {c : Char}
    (hc : isSchemeChar c = false) : c ∉ scheme := by
  intro hmem
  rw [isSchemeChar_of_isScheme h c hmem] at hc
  cases hc

/-- The scheme of a link is what stands in front of its first colon. -/
theorem hasScheme_iff : HasScheme url ↔ ':' ∈ url ∧ isScheme (url.takeWhile (· ≠ ':')) := by
  constructor
  · rintro ⟨scheme, rest, hscheme, rfl⟩
    rw [Text.takeWhile_append_cons (notMem_of_isScheme hscheme (by decide))]
    exact ⟨List.mem_append_right _ List.mem_cons_self, hscheme⟩
  · rintro ⟨hcolon, hscheme⟩
    obtain ⟨scheme, rest, rfl, hfront⟩ := List.eq_append_cons_of_mem hcolon
    rw [Text.takeWhile_append_cons hfront] at hscheme
    exact ⟨scheme, rest, hscheme, rfl⟩

instance (url : List Char) : Decidable (HasScheme url) :=
  decidable_of_iff' _ hasScheme_iff

/-- A link that leads out of the documents begins with a mark, two slashes or a scheme. -/
theorem isFixed_cases (h : isFixed url = true) :
    ['#'] <+: url ∨ ['/', '/'] <+: url ∨ HasScheme url := by
  rcases isFixed_iff.mp h with hmark | ⟨lead, hlead, htail, rfl⟩
  · exact Or.inl hmark
  · refine Or.inr ?_
    simp only [externalLeads, List.mem_cons, List.not_mem_nil, or_false] at hlead
    rcases hlead with rfl | rfl | rfl | rfl | rfl
    · exact Or.inr ⟨"http".toList, "//".toList ++ htail, by decide, rfl⟩
    · exact Or.inr ⟨"https".toList, "//".toList ++ htail, by decide, rfl⟩
    · exact Or.inl ⟨htail, rfl⟩
    · exact Or.inr ⟨"mailto".toList, htail, by decide, rfl⟩
    · exact Or.inr ⟨"tel".toList, htail, by decide, rfl⟩

/-- The schemes of links that lead out of the documents. -/
def knownSchemes : List String :=
  ["http", "https", "mailto", "tel"]

/-- Two links that begin with a scheme. -/
theorem append_colon_prefix_iff {name tail scheme rest : List Char} (hname : ':' ∉ name)
    (hscheme : ':' ∉ scheme) :
    name ++ ':' :: tail <+: scheme ++ ':' :: rest ↔ name = scheme ∧ tail <+: rest := by
  constructor
  · rintro ⟨more, hmore⟩
    rw [List.append_assoc, List.cons_append] at hmore
    have hnames := congrArg (List.takeWhile (· ≠ ':')) hmore
    rw [Text.takeWhile_append_cons hname, Text.takeWhile_append_cons hscheme] at hnames
    subst hnames
    exact ⟨rfl, more, (List.cons.inj (List.append_cancel_left hmore)).2⟩
  · rintro ⟨rfl, htail⟩
    exact List.prefix_append_right_inj _ |>.mpr (List.cons_prefix_cons.mpr ⟨rfl, htail⟩)

/-- A scheme begins with no other character. -/
theorem not_cons_prefix_of_isScheme {scheme : List Char} (h : isScheme scheme) {c : Char}
    (hc : isSchemeChar c = false) (tail rest : List Char) : ¬ c :: tail <+: scheme ++ rest := by
  have hnot := notMem_of_isScheme h hc
  cases scheme with
  | nil => cases h
  | cons first others =>
    intro hbegins
    rw [List.cons_append, List.cons_prefix_cons] at hbegins
    exact hnot (hbegins.1 ▸ List.mem_cons_self)

/-- **Which schemes lead out of the documents**, if `//` follows. -/
theorem isFixed_scheme_iff {scheme : String} (h : isScheme scheme.toList) (rest : List Char) :
    isFixed (scheme.toList ++ ':' :: '/' :: '/' :: rest) = true ↔ scheme ∈ knownSchemes := by
  have hcolon : ':' ∉ scheme.toList := notMem_of_isScheme h (by decide)
  have hlead : ∀ (name : String) (tail : List Char), ':' ∉ name.toList →
      name.toList ++ ':' :: tail <+: scheme.toList ++ ':' :: '/' :: '/' :: rest →
      scheme = name := by
    intro name tail hname hbegins
    exact (String.toList_inj.mp ((append_colon_prefix_iff hname hcolon).mp hbegins).1).symm
  rw [isFixed_iff]
  constructor
  · rintro (hmark | ⟨lead, hmem, hbegins⟩)
    · exact absurd hmark (not_cons_prefix_of_isScheme h (by decide) _ _)
    · simp only [externalLeads, List.mem_cons, List.not_mem_nil, or_false] at hmem
      rcases hmem with rfl | rfl | rfl | rfl | rfl
      · rw [hlead "http" "//".toList (by decide) hbegins]
        decide
      · rw [hlead "https" "//".toList (by decide) hbegins]
        decide
      · exact absurd hbegins (not_cons_prefix_of_isScheme h (by decide) _ _)
      · rw [hlead "mailto" [] (by decide) hbegins]
        decide
      · rw [hlead "tel" [] (by decide) hbegins]
        decide
  · intro hmem
    simp only [knownSchemes, List.mem_cons, List.not_mem_nil, or_false] at hmem
    refine Or.inr ?_
    rcases hmem with rfl | rfl | rfl | rfl
    · exact ⟨"http://", by decide, rest, rfl⟩
    · exact ⟨"https://", by decide, rest, rfl⟩
    · exact ⟨"mailto:", by decide, '/' :: '/' :: rest, rfl⟩
    · exact ⟨"tel:", by decide, '/' :: '/' :: rest, rfl⟩

/-! ## Resolving -/

theorem resolveChars_eq_ite (url base : List Char) :
    resolveChars url base =
      if isFixed url || !".md".toList.isSuffixOf (pathOf url) then url
      else '/' :: publishedPath (fileOf url base) ++ fragmentOf url :=
  rfl

theorem resolveChars_of_isResolved (h : IsResolved url) (base : List Char) :
    resolveChars url base = '/' :: publishedPath (fileOf url base) ++ fragmentOf url := by
  obtain ⟨hfixed, hending⟩ := h
  rw [resolveChars_eq_ite, hfixed, List.isSuffixOf_iff_suffix.mpr hending]
  rfl

theorem resolveChars_of_not_isResolved (h : ¬ IsResolved url) (base : List Char) :
    resolveChars url base = url := by
  rw [resolveChars_eq_ite]
  refine if_pos ?_
  cases hfixed : isFixed url with
  | true => rfl
  | false =>
    rw [Bool.false_or, Bool.not_eq_true', ← Bool.not_eq_true, List.isSuffixOf_iff_suffix]
    exact fun hending => h ⟨hfixed, hending⟩

/-- Without its endings a path is a beginning of itself. -/
theorem prefix_publishedPath (path : List Char) : publishedPath path <+: path :=
  (Text.prefix_getD_dropTail? _ _).trans (Text.prefix_getD_dropTail? _ _)

theorem publishedPath_append (front : List Char) :
    publishedPath (front ++ ".md".toList) =
      (Text.dropTail? "/index".toList front).getD front := by
  rw [publishedPath, Text.dropTail?_eq_some_iff.mpr rfl]
  rfl

/-- The path of a file starts with no slash. -/
theorem head?_fileOf_ne (h : isFixed url = false) (base : List Char) :
    (fileOf url base).head? ≠ some '/' := by
  rcases fileOf_cases url base with ⟨absolute, hpath, hfile⟩ | ⟨-, hfile⟩
  · rw [hfile]
    intro hhead
    obtain ⟨rest, rfl⟩ := List.head?_eq_some_iff.mp hhead
    have hslashes : "//".toList <+: url := by
      rw [← pathOf_append_fragmentOf url, hpath]
      exact ⟨rest ++ fragmentOf url, rfl⟩
    rw [isFixed_iff.mpr (Or.inr ⟨"//", by decide, hslashes⟩)] at h
    cases h
  · rw [hfile]
    exact head?_intercalate_ne ((isPosition_segments base).walk _)

/-- **What is resolved begins with one slash.** -/
theorem head?_publishedPath_append_ne (h : isFixed url = false) (base : List Char) :
    (publishedPath (fileOf url base) ++ fragmentOf url).head? ≠ some '/' := by
  obtain ⟨ending, hending⟩ := prefix_publishedPath (fileOf url base)
  have hfile := head?_fileOf_ne h base
  rw [← hending] at hfile
  cases hpublished : publishedPath (fileOf url base) with
  | nil => exact head?_fragmentOf_ne url
  | cons c rest =>
    rw [hpublished] at hfile
    exact hfile

theorem publishedPath_ne {path : List Char} (h : ".md".toList <:+ path) :
    publishedPath path ≠ path := by
  obtain ⟨front, rfl⟩ := h
  intro heq
  have hlength : (publishedPath (front ++ ".md".toList)).length ≤ front.length := by
    rw [publishedPath_append]
    exact (Text.prefix_getD_dropTail? _ _).length_le
  rw [heq, List.length_append] at hlength
  have hthree : ".md".toList.length = 3 := rfl
  omega

/-- **A link stays as it is if and only if it is not resolved.** -/
theorem resolveChars_eq_self_iff (url base : List Char) :
    resolveChars url base = url ↔ ¬ IsResolved url := by
  refine ⟨fun heq hresolved => ?_, fun h => resolveChars_of_not_isResolved h base⟩
  rw [resolveChars_of_isResolved hresolved] at heq
  rcases fileOf_cases url base with ⟨absolute, hpath, hfile⟩ | ⟨hrelative, -⟩
  · -- the file keeps its whole path, but that has an ending to lose
    have hending : ".md".toList <:+ absolute := by
      have hpathEnding := hresolved.2
      rw [hpath] at hpathEnding
      exact (Text.suffix_cons_iff_of_notMem (by decide)).mp hpathEnding
    have hurl := pathOf_append_fragmentOf url
    rw [hpath] at hurl
    have hsame := (List.cons.inj (List.append_cancel_right (heq.trans hurl.symm))).2
    rw [hfile] at hsame
    exact publishedPath_ne hending hsame
  · -- the link gets a slash ahead, but it has none
    refine hrelative ?_
    rw [← heq]
    exact List.cons_prefix_cons.mpr ⟨rfl, List.nil_prefix⟩

/-! ## Links as text -/

@[simp]
theorem toList_resolveLink (url base : String) :
    (resolveLink url base).toList = resolveChars url.toList base.toList :=
  String.toList_ofList

theorem resolveLink_eq_self_iff {url base : String} :
    resolveLink url base = url ↔ ¬ IsResolved url.toList := by
  rw [← String.toList_inj, toList_resolveLink, resolveChars_eq_self_iff]

/-- **Paths are joined level by level.**  Joining two paths one after the other is joining the
path that they make together; what slashes stand around or between the segments of the base
does not matter; the result is made of segments that take one level each, and has dots only
from the base.  So a link that changes begins with one slash. -/
theorem joining_laws :
    (∀ first second base : List Char,
      resolveRelative (first ++ '/' :: second) base =
        resolveRelative second (resolveRelative first base)) ∧
    (∀ (path before after : List Char) (count : Nat),
      resolveRelative path (List.replicate count '/' ++ after) = resolveRelative path after ∧
      resolveRelative path (before ++ List.replicate count '/') = resolveRelative path before ∧
      resolveRelative path (before ++ List.replicate (count + 1) '/' ++ after) =
        resolveRelative path (before ++ '/' :: after)) ∧
    (∀ path base : List Char,
      (∃ position : List (List Char), (∀ segment ∈ position, segment ≠ [] ∧ '/' ∉ segment) ∧
        resolveRelative path base = ['/'].intercalate position) ∧
      (resolveRelative path base).head? ≠ some '/' ∧
      (resolveRelative path base).getLast? ≠ some '/' ∧
      ((∀ segment ∈ segments base, ¬ IsDots segment) →
        ∀ segment ∈ Text.fields (· = '/') (resolveRelative path base), ¬ IsDots segment)) ∧
    ∀ url base : String, resolveLink url base ≠ url →
      ∃ rest, (resolveLink url base).toList = '/' :: rest ∧ rest.head? ≠ some '/' := by
  refine ⟨?_, ?_, ?_, ?_⟩
  · intro first second base
    rw [resolveRelative_eq, walk_append, resolveRelative_eq second, segments_resolveRelative]
  · intro path before after count
    simp only [resolveRelative_eq, segments_slashes_append, segments_append_slashes,
      segments_append_slashes_append, and_self]
  · intro path base
    have hposition := (isPosition_segments base).walk path
    refine ⟨⟨_, hposition, rfl⟩, head?_intercalate_ne hposition, getLast?_intercalate_ne hposition,
      fun hbase segment hsegment => ?_⟩
    by_cases hne : segment = []
    · rw [hne]
      decide
    · refine not_isDots_of_mem_walk hbase path segment ?_
      rw [← segments_resolveRelative]
      exact Text.mem_words.mpr ⟨hsegment, hne⟩
  · intro url base hchanged
    have hresolved : IsResolved url.toList :=
      Classical.not_not.mp fun h => hchanged (resolveLink_eq_self_iff.mpr h)
    rw [toList_resolveLink, resolveChars_of_isResolved hresolved]
    exact ⟨_, rfl, head?_publishedPath_append_ne hresolved.1 base.toList⟩

/-- A path with more steps up than its base has segments, and slashes around these. -/
theorem joining_laws_climb :
    let base := "/docs//guide/"
    let url := "../../../a/./b.md"
    (∀ segment ∈ segments base.toList, ¬ IsDots segment) ∧ resolveLink url base ≠ url ∧
    (∀ segment ∈ Text.fields (· = '/') (resolveRelative url.toList base.toList),
      ¬ IsDots segment) ∧
    ∃ rest, (resolveLink url base).toList = '/' :: rest ∧ rest.head? ≠ some '/' := by
  intro base url
  have hbase : ∀ segment ∈ segments base.toList, ¬ IsDots segment := by decide
  have hchanged : resolveLink url base ≠ url := by decide
  exact ⟨hbase, hchanged, (joining_laws.2.2.1 url.toList base.toList).2.2.2 hbase,
    joining_laws.2.2.2 url base hchanged⟩

/-! ## Links with a scheme -/

/-- **When a link with a scheme and two slashes is left alone**: its scheme is known, or its path
has not the ending of a source file. -/
theorem resolveLink_scheme_eq_self_iff (scheme rest base : String) (h : isScheme scheme.toList) :
    resolveLink (scheme ++ "://" ++ rest) base = scheme ++ "://" ++ rest ↔
      scheme ∈ knownSchemes ∨ ¬ ".md".toList <:+ pathOf rest.toList := by
  have hurl : (scheme ++ "://" ++ rest).toList =
      scheme.toList ++ ':' :: '/' :: '/' :: rest.toList := by
    rw [String.toList_append, String.toList_append, List.append_assoc]
    rfl
  have hmark : '#' ∉ scheme.toList ++ [':', '/', '/'] := by
    rw [List.mem_append, not_or]
    exact ⟨notMem_of_isScheme h (by decide), by decide⟩
  have hpath : pathOf (scheme.toList ++ ':' :: '/' :: '/' :: rest.toList) =
      (scheme.toList ++ [':', '/']) ++ '/' :: pathOf rest.toList := by
    simpa only [List.append_assoc, List.cons_append, List.nil_append] using
      pathOf_append hmark rest.toList
  rw [resolveLink_eq_self_iff, hurl, IsResolved, hpath, Text.suffix_append_cons_iff (by decide),
    ← isFixed_scheme_iff h rest.toList, not_and_or, Bool.not_eq_false]

/-- A scheme that is known. -/
theorem resolveLink_scheme_eq_self_iff_https :
    isScheme "https".toList ∧
    resolveLink ("https" ++ "://" ++ "example.com/README.md") "docs" =
      "https" ++ "://" ++ "example.com/README.md" :=
  ⟨by decide, (resolveLink_scheme_eq_self_iff "https" "example.com/README.md" "docs"
    (by decide)).mpr (Or.inl (by decide))⟩

/-- The same scheme in capitals, and one that is not known: the links become paths below the
base. -/
theorem resolveLink_scheme_ne_self :
    let shout := "HTTPS" ++ "://" ++ "example.com/README.md"
    let ftp := "ftp" ++ "://" ++ "example.com/README.md"
    isScheme "HTTPS".toList ∧ resolveLink shout "docs" = "/docs/HTTPS:/example.com/README" ∧
    resolveLink shout "docs" ≠ shout ∧
    isScheme "ftp".toList ∧ resolveLink ftp "docs" = "/docs/ftp:/example.com/README" ∧
    resolveLink ftp "docs" ≠ ftp := by
  decide

end Rendition.Link
