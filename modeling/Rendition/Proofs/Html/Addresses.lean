import Rendition.Proofs.Html.Links

/-!
# The addresses of files

A link to a source file names the segments of the file (`target`): those behind the first slash,
or those where its path leads from the base.  The file is published in its directory, under its
name without the ending, and an index as the directory itself (`address`).

`resolveChars` reaches that address by taking the endings off the joined segments, one after the
other.  This works as long as the name of an index has a directory ahead: at the root
there is no slash in front of `index`, and it stays (`resolveLink_eq_address_iff`).  Dots, too,
are gone before the ending is.  So what is left of a name may be dots, and only the names
`..md` and `...md` make an address with such a segment (`dotless_iff`).
-/

namespace Rendition.Link

/-- A link to a source file: neither within the page nor to another host, without a scheme, and
with the ending of a source file. -/
structure IsSourceLink (url : List Char) : Prop where
  notMark : ¬ ['#'] <+: url
  notHost : ¬ ['/', '/'] <+: url
  notScheme : ¬ HasScheme url
  ending : ".md".toList <:+ pathOf url

/-- The segments of the file that a link leads to. -/
def target (url base : List Char) : List (List Char) :=
  match pathOf url with
  | '/' :: absolute => Text.fields (· = '/') absolute
  | _ => (Way.ofComponents (Text.fields (· = '/') (pathOf url))).leadFrom (segments base)

/-- The name of a source file without its ending. -/
def stem (name : List Char) : List Char :=
  name.rdrop ".md".toList.length

/-- Where a source file is published. -/
def address : List (List Char) → List (List Char)
  | [] => []
  | [name] => if stem name = "index".toList then [] else [stem name]
  | directory :: rest => directory :: address rest

/-- The name of the file that a link leads to, which is the last segment of its path. -/
def fileName (url : List Char) : List Char :=
  (Text.fields (· = '/') (pathOf url)).getLastD []

variable {url base : List Char}

theorem IsSourceLink.isResolved (h : IsSourceLink url) : IsResolved url := by
  refine ⟨Bool.eq_false_iff.mpr fun hfixed => ?_, h.ending⟩
  rcases isFixed_cases hfixed with hmark | hhost | hscheme
  · exact h.notMark hmark
  · exact h.notHost hhost
  · exact h.notScheme hscheme

/-! ## The file of a link -/

theorem stem_append (front : List Char) : stem (front ++ ".md".toList) = front :=
  List.rdrop_append_length

theorem address_concat (directory : List (List Char)) (front : List Char) :
    address (directory ++ [front ++ ".md".toList]) =
      if front = "index".toList then directory else directory ++ [front] := by
  induction directory with
  | nil => rw [List.nil_append, address, stem_append, List.nil_append]
  | cons first rest ih =>
    rw [List.cons_append, address, ih]
    · split <;> rfl
    · exact List.append_ne_nil_of_right_ne_nil rest (List.cons_ne_nil _ _)

theorem target_of_absolute {absolute : List Char} (h : pathOf url = '/' :: absolute)
    (base : List Char) : target url base = Text.fields (· = '/') absolute := by
  unfold target
  rw [h]
  rfl

theorem target_of_relative (h : ¬ ['/'] <+: pathOf url) (base : List Char) :
    target url base = walk (segments base) (pathOf url) := by
  rw [walk_eq_leadFrom]
  unfold target
  split
  · rename_i absolute hpath
    rw [hpath] at h
    exact absurd ⟨absolute, rfl⟩ h
  · rfl

/-- The path of the file is its segments, joined. -/
theorem intercalate_target (url base : List Char) :
    ['/'].intercalate (target url base) = fileOf url base := by
  rcases fileOf_cases url base with ⟨absolute, hpath, hfile⟩ | ⟨hrelative, hfile⟩
  · rw [hfile, target_of_absolute hpath, Text.intercalate_fields]
  · rw [hfile, target_of_relative hrelative]
    rfl

/-- A path with an ending ends in a name with that ending. -/
theorem exists_fields_eq {path : List Char} (h : ".md".toList <:+ path) :
    ∃ front stem, Text.fields (· = '/') path = front ++ [stem ++ ".md".toList] ∧ '/' ∉ stem := by
  rcases List.eq_nil_or_concat' (Text.fields (· = '/') path) with hnil | ⟨front, name, hfields⟩
  · exact absurd hnil (Text.fields_ne_nil _ _)
  · rw [← Text.intercalate_fields '/' path, hfields,
      Text.suffix_intercalate_concat_iff (by decide)] at h
    obtain ⟨stem, rfl⟩ := h
    refine ⟨front, stem, hfields, fun hmem => ?_⟩
    have hname : stem ++ ".md".toList ∈ Text.fields (· = '/') path := by
      rw [hfields]
      exact List.mem_append_right _ List.mem_cons_self
    exact Text.notMem_of_mem_fields hname (List.mem_append_left _ hmem)

/-- A name with the ending of a source file is taken as a name. -/
theorem not_isDots_append (stem : List Char) : ¬ IsDots (stem ++ ".md".toList) := by
  have hlength : (stem ++ ".md".toList).length = stem.length + 3 := List.length_append
  rintro (hdot | hdots)
  · rw [hdot, List.length_singleton] at hlength
    omega
  · rw [hdots] at hlength
    simp only [List.length_cons, List.length_nil] at hlength
    omega

/-- A walk along a path with an ending ends in the last name. -/
theorem walk_eq_concat {path : List Char} {front : List (List Char)} {stem : List Char}
    (h : Text.fields (· = '/') path = front ++ [stem ++ ".md".toList])
    (position : List (List Char)) :
    walk position path = front.foldl step position ++ [stem ++ ".md".toList] := by
  rw [walk, h, List.foldl_append, List.foldl_cons, List.foldl_nil,
    step_name (by simp) (not_isDots_append stem)]

/-- **The target of a link to a source file is a source file.** -/
theorem exists_target_eq (h : ".md".toList <:+ pathOf url) (base : List Char) :
    ∃ directory stem, target url base = directory ++ [stem ++ ".md".toList] ∧ '/' ∉ stem := by
  rcases fileOf_cases url base with ⟨absolute, hpath, -⟩ | ⟨hrelative, -⟩
  · rw [hpath] at h
    rw [target_of_absolute hpath]
    exact exists_fields_eq ((Text.suffix_cons_iff_of_notMem (by decide)).mp h)
  · obtain ⟨front, stem, hfields, hstem⟩ := exists_fields_eq h
    rw [target_of_relative hrelative, walk_eq_concat hfields]
    exact ⟨_, stem, rfl, hstem⟩

/-! ## Endings of joined segments -/

/-- **What the endings leave of a source file**: the name of an index is only found behind a
slash. -/
theorem publishedPath_intercalate (directory : List (List Char)) {stem : List Char}
    (hstem : '/' ∉ stem) :
    publishedPath (['/'].intercalate (directory ++ [stem ++ ".md".toList])) =
      ['/'].intercalate
        (if directory ≠ [] ∧ stem = "index".toList then directory else directory ++ [stem]) := by
  rw [Text.intercalate_concat_append, publishedPath_append]
  cases hdrop : Text.dropTail? "/index".toList (['/'].intercalate (directory ++ [stem])) with
  | some front =>
    -- the slash of the ending is the one in front of the name
    rw [Text.dropTail?_eq_some_iff] at hdrop
    have hne : directory ≠ [] := by
      rintro rfl
      rw [List.nil_append, List.intercalate_singleton] at hdrop
      rw [hdrop] at hstem
      exact hstem (List.mem_append_right _ List.mem_cons_self)
    rw [Text.intercalate_concat hne] at hdrop
    obtain ⟨hfront, hindex⟩ := Text.append_mark_inj hdrop hstem (by decide)
    rw [if_pos ⟨hne, hindex⟩, hfront]
    rfl
  | none =>
    rw [if_neg]
    · rfl
    · rintro ⟨hne, rfl⟩
      rw [Text.intercalate_concat hne] at hdrop
      have hsome : Text.dropTail? "/index".toList
          (['/'].intercalate directory ++ '/' :: "index".toList) =
          some (['/'].intercalate directory) :=
        Text.dropTail?_eq_some_iff.mpr rfl
      exact Option.some_ne_none _ (hsome.symm.trans hdrop)

/-- **The endings make the address of every file but one**, the index of the root. -/
theorem publishedPath_eq_address_iff (directory : List (List Char)) {stem : List Char}
    (hstem : '/' ∉ stem) :
    publishedPath (['/'].intercalate (directory ++ [stem ++ ".md".toList])) =
        ['/'].intercalate (address (directory ++ [stem ++ ".md".toList])) ↔
      directory ++ [stem ++ ".md".toList] ≠ ["index.md".toList] := by
  have hroot : directory ++ [stem ++ ".md".toList] = ["index.md".toList] ↔
      directory = [] ∧ stem = "index".toList := by
    constructor
    · intro heq
      have hconcat : directory ++ [stem ++ ".md".toList] = [] ++ ["index.md".toList] := heq
      obtain ⟨hdirectory, hname⟩ := List.append_inj' hconcat rfl
      exact ⟨hdirectory, List.append_cancel_right (List.cons.inj hname).1⟩
    · rintro ⟨rfl, rfl⟩
      rfl
  rw [publishedPath_intercalate directory hstem, address_concat]
  refine Iff.trans ?_ (not_congr hroot).symm
  by_cases hindex : stem = "index".toList
  · by_cases hdirectory : directory = []
    · subst hindex hdirectory
      exact iff_of_false (by decide) fun hnot => hnot ⟨rfl, rfl⟩
    · rw [if_pos ⟨hdirectory, hindex⟩, if_pos hindex]
      exact iff_of_true rfl fun hboth => hdirectory hboth.1
  · rw [if_neg fun hboth => hindex hboth.2, if_neg hindex]
    exact iff_of_true rfl fun hboth => hindex hboth.2

/-- **The address of a file**, and where a link to it leads.  An index is published as the
directory that holds it, and a link to it leads there, unless that directory is the root: then
the name of the index is left. -/
theorem resolveLink_eq_address_iff (url base : String) (h : IsSourceLink url.toList) :
    let file := target url.toList base.toList
    (∃ directory stem, file = directory ++ [stem ++ ".md".toList]) ∧
    ((resolveLink url base).toList =
        '/' :: ['/'].intercalate (address file) ++ fragmentOf url.toList ↔
      file ≠ ["index.md".toList]) ∧
    (file = ["index.md".toList] →
      (resolveLink url base).toList = "/index".toList ++ fragmentOf url.toList) := by
  intro file
  obtain ⟨directory, stem, htarget, hstem⟩ := exists_target_eq h.ending base.toList
  have hfile : file = directory ++ [stem ++ ".md".toList] := htarget
  have hresolved : (resolveLink url base).toList =
      '/' :: publishedPath (['/'].intercalate file) ++ fragmentOf url.toList := by
    rw [toList_resolveLink, resolveChars_of_isResolved h.isResolved, intercalate_target]
  refine ⟨⟨directory, stem, hfile⟩, ?_, ?_⟩
  · rw [hresolved, List.append_cancel_right_eq, List.cons_inj_right, hfile,
      publishedPath_eq_address_iff directory hstem]
  · intro hindex
    rw [hresolved, hindex]
    rfl

/-- An index in a directory beside the base. -/
theorem resolveLink_eq_address_iff_directory :
    let url := "../billing/index.md#fees"
    IsSourceLink url.toList ∧ target url.toList "guide".toList ≠ ["index.md".toList] ∧
    (resolveLink url "guide").toList = "/billing#fees".toList := by
  intro url
  have hurl : IsSourceLink url.toList := ⟨by decide, by decide, by decide, by decide⟩
  have htarget : target url.toList "guide".toList ≠ ["index.md".toList] := by decide
  refine ⟨hurl, htarget, ?_⟩
  rw [(resolveLink_eq_address_iff url "guide" hurl).2.1.mpr htarget]
  decide

/-- The index of the root, from a directory in it. -/
theorem resolveLink_ne_address :
    let url := "../index.md"
    IsSourceLink url.toList ∧ resolveLink url "guide" = "/index" ∧
    '/' :: ['/'].intercalate (address (target url.toList "guide".toList)) ++
      fragmentOf url.toList = "/".toList :=
  ⟨⟨by decide, by decide, by decide, by decide⟩, by decide, by decide⟩

/-! ## Dots in addresses -/

/-- The segments of the path that the endings leave. -/
theorem fields_publishedPath {directory : List (List Char)} {stem : List Char}
    (hdirectory : ∀ segment ∈ directory, '/' ∉ segment) (hstem : '/' ∉ stem) :
    Text.fields (· = '/')
        (publishedPath (['/'].intercalate (directory ++ [stem ++ ".md".toList]))) =
      if directory ≠ [] ∧ stem = "index".toList then directory else directory ++ [stem] := by
  rw [publishedPath_intercalate directory hstem]
  split
  · rename_i hindex
    exact Text.fields_intercalate hdirectory hindex.1
  · refine Text.fields_intercalate (fun segment hsegment => ?_)
      (List.append_ne_nil_of_right_ne_nil directory (List.cons_ne_nil _ _))
    rcases List.mem_append.mp hsegment with hmem | hmem
    · exact hdirectory segment hmem
    · rwa [List.mem_singleton.mp hmem]

/-- In a directory without dots, dots are left of the name alone. -/
theorem forall_not_isDots_iff {directory : List (List Char)} {stem : List Char}
    (hdirectory : ∀ segment ∈ directory, '/' ∉ segment ∧ ¬ IsDots segment)
    (hstem : '/' ∉ stem) :
    (∀ segment ∈ Text.fields (· = '/')
        ('/' :: publishedPath (['/'].intercalate (directory ++ [stem ++ ".md".toList]))),
      ¬ IsDots segment) ↔ ¬ IsDots stem := by
  have hempty : ¬ IsDots [] := by decide
  have hdots : ∀ segment ∈ directory, ¬ IsDots segment := fun segment hmem =>
    (hdirectory segment hmem).2
  rw [← List.nil_append ('/' :: _), Text.fields_append_cons (decide_eq_true rfl), Text.fields,
    fields_publishedPath (fun segment hmem => (hdirectory segment hmem).1) hstem,
    List.forall_mem_append, List.forall_mem_singleton, and_iff_right hempty]
  split
  · rename_i hindex
    rw [hindex.2]
    exact iff_of_true hdots (by decide)
  · rw [List.forall_mem_append, List.forall_mem_singleton, and_iff_right hdots]

/-- A name is dots without its ending. -/
theorem isDots_iff (stem : List Char) :
    IsDots stem ↔ stem ++ ".md".toList = "..md".toList ∨ stem ++ ".md".toList = "...md".toList := by
  have hone : "..md".toList = ['.'] ++ ".md".toList := rfl
  have htwo : "...md".toList = ['.', '.'] ++ ".md".toList := rfl
  rw [hone, htwo, List.append_cancel_right_eq, List.append_cancel_right_eq]
  rfl

/-- On the way to the last name of a path, a walk from a position without dots meets none. -/
theorem mem_foldl_step_front {position front back : List (List Char)} {path : List Char}
    (hposition : IsPosition position) (hdots : ∀ segment ∈ position, ¬ IsDots segment)
    (hfields : Text.fields (· = '/') path = front ++ back) :
    ∀ segment ∈ front.foldl step position, '/' ∉ segment ∧ ¬ IsDots segment := by
  intro segment hmem
  rcases mem_foldl_step hmem with hold | ⟨hfront, -, hname⟩
  · exact ⟨(hposition segment hold).2, hdots segment hold⟩
  · have hfield : segment ∈ Text.fields (· = '/') path := by
      rw [hfields]
      exact List.mem_append_left _ hfront
    exact ⟨Text.notMem_of_mem_fields hfield, hname⟩

/-- The path of a resolved link is what comes ahead of its fragment, if there is no mark in the
base. -/
theorem pathOf_resolveChars (h : IsResolved url) (hrelative : ¬ ['/'] <+: pathOf url)
    (hmark : '#' ∉ base) :
    pathOf (resolveChars url base) = '/' :: publishedPath (fileOf url base) := by
  have hnot : '#' ∉ '/' :: publishedPath (fileOf url base) := by
    intro hmem
    rcases List.mem_cons.mp hmem with hslash | hmem
    · exact absurd hslash (by decide)
    · have hfile := (prefix_publishedPath _).subset hmem
      rw [fileOf_of_relative hrelative] at hfile
      rcases mem_resolveRelative hfile with hslash | hbase | hpath
      · exact absurd hslash (by decide)
      · exact hmark hbase
      · exact notMem_pathOf url hpath
  rw [resolveChars_of_isResolved h, pathOf_append hnot, pathOf_fragmentOf, List.append_nil]

/-- **Which relative links get an address without dots**, from a base without dots: all but
those to a file whose name is dots without its ending.  The address is what comes ahead of the
fragment, and that is the path of the resolved link unless there is a `#` in the base. -/
theorem dotless_iff (url base : String) (h : IsSourceLink url.toList)
    (hrelative : ¬ ['/'] <+: url.toList)
    (hbase : ∀ segment ∈ segments base.toList, ¬ IsDots segment) :
    ∃ path, (resolveLink url base).toList = path ++ fragmentOf url.toList ∧
      ('#' ∉ base.toList → pathOf (resolveLink url base).toList = path) ∧
      ((∀ segment ∈ Text.fields (· = '/') path, ¬ IsDots segment) ↔
        fileName url.toList ≠ "..md".toList ∧ fileName url.toList ≠ "...md".toList) := by
  have hpath : ¬ ['/'] <+: pathOf url.toList := fun hslash =>
    hrelative (hslash.trans <| List.takeWhile_prefix _)
  obtain ⟨front, stem, hfields, hstem⟩ := exists_fields_eq h.ending
  have hname : fileName url.toList = stem ++ ".md".toList := by
    rw [fileName, hfields, List.getLastD_concat]
  have hfile : fileOf url.toList base.toList =
      ['/'].intercalate (front.foldl step (segments base.toList) ++ [stem ++ ".md".toList]) := by
    rw [fileOf_of_relative hpath, resolveRelative_eq, walk_eq_concat hfields]
  rw [toList_resolveLink]
  refine ⟨'/' :: publishedPath (fileOf url.toList base.toList),
    resolveChars_of_isResolved h.isResolved base.toList,
    pathOf_resolveChars h.isResolved hpath, ?_⟩
  have hdirectory := mem_foldl_step_front (isPosition_segments base.toList) hbase hfields
  rw [hfile, forall_not_isDots_iff hdirectory hstem, isDots_iff, not_or, hname]

/-- Steps up and dots on the way, but a plain name. -/
theorem dotless_iff_climb :
    let url := "../../.././a/..b.md#c"
    let base := "guide"
    IsSourceLink url.toList ∧ ¬ ['/'] <+: url.toList ∧
    (∀ segment ∈ segments base.toList, ¬ IsDots segment) ∧ '#' ∉ base.toList ∧
    ∀ segment ∈ Text.fields (· = '/') (pathOf (resolveLink url base).toList),
      ¬ IsDots segment := by
  intro url base
  have hurl : IsSourceLink url.toList := ⟨by decide, by decide, by decide, by decide⟩
  have hrelative : ¬ ['/'] <+: url.toList := by decide
  have hbase : ∀ segment ∈ segments base.toList, ¬ IsDots segment := by decide
  have hmark : '#' ∉ base.toList := by decide
  obtain ⟨path, -, hpath, hdots⟩ := dotless_iff url base hurl hrelative hbase
  refine ⟨hurl, hrelative, hbase, hmark, ?_⟩
  rw [hpath hmark]
  exact hdots.mpr (by decide)

/-- A file whose name is two dots without its ending: a link to it leads up. -/
theorem resolveLink_climbs :
    let url := "...md"
    let base := "guide"
    IsSourceLink url.toList ∧ ¬ ['/'] <+: url.toList ∧
    (∀ segment ∈ segments base.toList, ¬ IsDots segment) ∧
    resolveLink url base = "/guide/.." ∧
    ∃ segment ∈ Text.fields (· = '/') (pathOf (resolveLink url base).toList), IsDots segment :=
  ⟨⟨by decide, by decide, by decide, by decide⟩, by decide, by decide, by decide, by decide⟩

end Rendition.Link
