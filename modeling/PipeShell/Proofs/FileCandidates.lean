import PipeShell.Completion
import PipeShell.Proofs.Files
import PipeShell.Proofs.HomeDirectory

namespace PipeShell

namespace Path

variable {directory name : String}

theorem Plain.isAbsolute_eq_false (hname : Plain name) :
    isAbsolute name = false := by
  rw [isAbsolute_eq_false_iff]
  intro hhead
  exact hname.slashless (List.mem_of_mem_head? hhead)

theorem Plain.split_eq (hname : Plain name) : Text.split '/' name = [name] := by
  rw [Text.split, Text.splitChars_of_notMem hname.slashless]
  simp

private theorem route_append_name (hdirectory : Normal directory)
    (hname : Plain name) :
    route (append directory name) =
      ⟨(route directory).lead, (route directory).parts ++ [name]⟩ := by
  rw [route_append hdirectory.1 hname.isAbsolute_eq_false, hname.split_eq,
    Route.walk_plain _ (by simpa using hname)]

private theorem normal_append_name (hdirectory : Normal directory)
    (hname : Plain name) :
    Normal (append directory name) := by
  rw [append_name hdirectory hname]
  apply normal_render hdirectory.rooted
  intro part hpart
  rcases List.mem_append.mp hpart with hpart | hpart
  · exact hdirectory.plain part hpart
  · rw [List.mem_singleton.mp hpart]
    exact hname

end Path

namespace FileTree

structure Sound (tree : FileTree) : Prop where
  distinct : (tree.entries.map Prod.fst).Nodup
  plain : ∀ entry ∈ tree.entries, ∀ name ∈ entry.1, Path.Plain name
  fitting : ∀ entry ∈ tree.entries, ∀ name ∈ entry.1,
    nameTooLong name = false ∧ hasZero name = false

variable {tree : FileTree}

private theorem Sound.get?_eq (hsound : tree.Sound) {names : List String}
    {node : Node} (hsome : names ≠ []) (hentry : (names, node) ∈ tree.entries) :
    tree.get? names = some node := by
  obtain ⟨hdistinct, -, -⟩ := hsound
  rw [get?, if_neg (by simpa using hsome)]
  generalize tree.entries = entries at hdistinct hentry
  induction entries with
  | nil => cases hentry
  | cons entry rest ih =>
      obtain ⟨hfresh, hrest⟩ := List.nodup_cons.mp hdistinct
      rcases List.mem_cons.mp hentry with rfl | hlater
      · simp
      · have hother : entry.1 ≠ names := by
          rintro rfl
          exact hfresh (List.mem_map.mpr ⟨_, hlater, rfl⟩)
        rw [List.find?_cons_of_neg (by simpa using hother)]
        exact ih hrest hlater

theorem eq_append_of_nameIn? {parent names : List String} {name : String}
    (hname : nameIn? parent names = some name) : names = parent ++ [name] := by
  unfold nameIn? at hname
  split at hname
  · next hparent =>
      subst hparent
      exact (List.dropLast_append_getLast? name hname).symm
  · cases hname

theorem mem_list {path : String} {entries : List (String × Bool)}
    (hlist : tree.list path = .ok entries) {name : String} {isDirectory : Bool}
    (hentry : (name, isDirectory) ∈ entries) :
    ∃ parent node, tree.locate path = .ok (parent, .directory) ∧
      (parent ++ [name], node) ∈ tree.entries ∧
        isDirectory = decide (node = .directory) := by
  unfold list at hlist
  split at hlist
  · cases hlist
  · cases hlist
  · next parent hlocate =>
      cases hlist
      obtain ⟨⟨names, node⟩, hmember, hchild⟩ :=
        List.mem_filterMap.mp (List.mem_mergeSort.mp hentry)
      obtain ⟨found, hfound, hsame⟩ := Option.map_eq_some_iff.mp hchild
      cases hsame
      refine ⟨parent, node, hlocate, ?_, rfl⟩
      rwa [← eq_append_of_nameIn? hfound]

private theorem walk_skip {current : List String}
    (hdirectory : tree.get? current = some .directory) (parts : List String) :
    tree.walk current ("" :: parts) = tree.walk current parts := by
  rw [walk_cons hdirectory]
  rfl

private theorem locate_of_normal {path : String} (hpath : Path.Normal path) :
    tree.locate path = tree.walk [] (Path.route path).parts := by
  have hparts : tree.walk []
      ((Text.splitChars '/' (Path.spelled (Path.route path).parts)).map
        String.ofList) = tree.walk [] (Path.route path).parts := by
    by_cases hroot : (Path.route path).parts = []
    · rw [hroot]
      exact walk_skip rfl []
    · rw [Path.map_splitChars_spelled hroot hpath.plain]
  rw [locate, if_neg (Path.ne_empty_of_isAbsolute hpath.1), Text.split,
    hpath.toList_eq]
  cases hlead : (Path.route path).lead with
  | relative => exact absurd hlead hpath.rooted
  | root => exact (walk_skip rfl _).trans hparts
  | doubleRoot => exact (walk_skip rfl _).trans ((walk_skip rfl _).trans hparts)

section

variable (hsound : tree.Sound) {parent : List String} {name : String} {node : Node}
  (hentry : (parent ++ [name], node) ∈ tree.entries)

include hsound hentry

theorem Sound.plain_name : Path.Plain name :=
  hsound.plain _ hentry name (List.mem_append_right _ List.mem_cons_self)

private theorem Sound.walk_name (hparent : tree.get? parent = some .directory) :
    tree.walk parent [name] = .ok (parent ++ [name], node) := by
  have hplain := hsound.plain_name hentry
  have hshort := (hsound.fitting _ hentry name
    (List.mem_append_right _ List.mem_cons_self)).1
  have henter : enter parent name = .ok (parent ++ [name]) := by
    simp [enter, hplain.nonempty, hplain.notDot, hplain.notDots, hshort]
  rw [walk_cons hparent, henter]
  change tree.walk (parent ++ [name]) [] = _
  rw [walk, hsound.get?_eq (by simp) hentry]

private theorem Sound.locate_append {path : String} (hpath : Path.Normal path)
    (hlocate : tree.locate path = .ok (parent, .directory)) :
    tree.locate (Path.append path name) = .ok (parent ++ [name], node) := by
  have hplain := hsound.plain_name hentry
  rw [locate_of_normal hpath] at hlocate
  rw [locate_of_normal (Path.normal_append_name hpath hplain),
    Path.route_append_name hpath hplain, walk_append hlocate]
  exact hsound.walk_name hentry (get?_of_walk hlocate)

end

private theorem Sound.isDirectory_append (hsound : tree.Sound) {path : String}
    (hpath : Path.Normal path) (hzero : hasZero path = false)
    {entries : List (String × Bool)} (hlist : tree.list path = .ok entries)
    {name : String} {isDirectory : Bool} (hentry : (name, isDirectory) ∈ entries) :
    tree.isDirectory (Path.append path name) = isDirectory := by
  obtain ⟨parent, node, hlocate, hmember, rfl⟩ := mem_list hlist hentry
  have hname := (hsound.fitting _ hmember name
    (List.mem_append_right _ List.mem_cons_self)).2
  have hfree : hasZero (Path.append path name) = false := by
    rw [Path.append_of_relative (hsound.plain_name hmember).isAbsolute_eq_false]
    rw [hasZero, List.contains_eq_mem, decide_eq_false_iff_not] at hzero hname ⊢
    have hgap : '\x00' ∉ (Path.gap path).toList := by
      unfold Path.gap
      split <;> decide
    simp [hzero, hname, hgap]
  rw [isDirectory, hsound.locate_append hmember hpath hlocate, hfree]
  cases node with
  | file content => rfl
  | directory => rfl

end FileTree

namespace Completion

def ending (isDirectory : Bool) : String :=
  if isDirectory then "/" else ""

def offer (typed name : String) (isDirectory : Bool) : Candidate :=
  ⟨typed ++ name ++ ending isDirectory, name ++ ending isDirectory, .path⟩

/-- The name goes on from the beginning that was typed, and is not hidden. -/
def Fits (scope : Scope) (start name : String) : Prop :=
  Text.startsWithIgnoringCase name start = true ∧
    (scope.showHidden.truthy = true ∨ Text.startsWith start "." = true ∨
      Text.startsWith name "." = false)

theorem mem_pathCandidatesIn {scope : Scope} {typed start : String}
    {entries : List (String × Bool)} {candidate : Candidate} :
    candidate ∈ pathCandidatesIn scope typed start entries ↔
      ∃ name isDirectory, (name, isDirectory) ∈ entries ∧ Fits scope start name ∧
        candidate = offer typed name isDirectory := by
  have hfits (name : String) :
      (Text.startsWithIgnoringCase name start && ((scope.showHidden.truthy ||
        Text.startsWith start ".") || !Text.startsWith name ".")) = true ↔
          Fits scope start name := by
    simp [Fits, or_assoc]
  simp only [pathCandidatesIn, List.mem_append, List.mem_map, List.mem_filter,
    List.mem_mergeSort, Prod.exists, hfits]
  constructor
  · rintro (⟨name, isDirectory, ⟨⟨hentry, hname⟩, hkind⟩, rfl⟩ |
      ⟨name, isDirectory, ⟨⟨hentry, hname⟩, hkind⟩, rfl⟩)
    · obtain rfl : isDirectory = true := hkind
      exact ⟨name, true, hentry, hname, rfl⟩
    · obtain rfl : isDirectory = false := by simpa using hkind
      exact ⟨name, false, hentry, hname, by simp [offer, ending]⟩
  · rintro ⟨name, isDirectory, hentry, hname, rfl⟩
    cases isDirectory with
    | true => exact .inl ⟨name, true, ⟨⟨hentry, hname⟩, rfl⟩, rfl⟩
    | false =>
        exact .inr ⟨name, false, ⟨⟨hentry, hname⟩, rfl⟩, by simp [offer, ending]⟩

section

variable {scope : Scope} {word : String} {notes : List Journal.Note}
  {candidates : List Candidate}
  (hoffered : pathCandidates scope word = (notes, .ok candidates))

include hoffered

theorem hasZero_baseDirectory :
    FileTree.hasZero (baseDirectory scope (splitPath word).1) = false := by
  unfold pathCandidates at hoffered
  dsimp only at hoffered
  split at hoffered
  · cases hoffered
  · next hzero => simpa using hzero

theorem mem_pathCandidates {candidate : Candidate} :
    candidate ∈ candidates ↔ ∃ entries name isDirectory,
      scope.files.list (baseDirectory scope (splitPath word).1) = .ok entries ∧
        (name, isDirectory) ∈ entries ∧ Fits scope (splitPath word).2 name ∧
          candidate = offer (splitPath word).1 name isDirectory := by
  have hzero := hasZero_baseDirectory hoffered
  unfold pathCandidates at hoffered
  dsimp only at hoffered
  rw [if_neg (by simp [hzero])] at hoffered
  cases hlist : scope.files.list (baseDirectory scope (splitPath word).1) with
  | error fault =>
      rw [hlist] at hoffered
      cases hoffered
      simp
  | ok entries =>
      rw [hlist] at hoffered
      cases hoffered
      simp [mem_pathCandidatesIn]

end

theorem splitPath_eq (word : String) :
    splitPath word =
      let parts := Text.cutLastChars '/' (if word = "~" then "~/" else word).toList
      (String.ofList parts.1, String.ofList parts.2) := rfl

theorem typed_ends (word : String) :
    (splitPath word).1 = "" ∨ (splitPath word).1.toList.getLast? = some '/' := by
  obtain ⟨-, -, hends⟩ :=
    Text.cutLastChars_spec '/' (if word = "~" then "~/" else word).toList
  rw [splitPath_eq]
  dsimp only
  rw [String.toList_ofList]
  generalize (Text.cutLastChars '/' (if word = "~" then "~/" else word).toList).1 =
    before
    at hends ⊢
  cases hlast : before.getLast? with
  | none =>
      rw [List.getLast?_eq_none_iff.mp hlast]
      exact .inl rfl
  | some c => exact .inr (congrArg some (hends c hlast))

private theorem typed_eq_empty_iff (word : String) :
    (splitPath word).1 = "" ↔ '/' ∉ word.toList ∧ word ≠ "~" := by
  obtain ⟨htext, hafter, -⟩ :=
    Text.cutLastChars_spec '/' (if word = "~" then "~/" else word).toList
  have htyped : (splitPath word).1.toList =
      (Text.cutLastChars '/' (if word = "~" then "~/" else word).toList).1 :=
        String.toList_ofList
  rw [← htyped] at htext
  constructor
  · intro hempty
    rw [hempty, String.toList_empty, List.nil_append] at htext
    rw [htext] at hafter
    by_cases htilde : word = "~"
    · rw [if_pos htilde] at hafter
      exact absurd (by decide) hafter
    · rw [if_neg htilde] at hafter
      exact ⟨hafter, htilde⟩
  · rintro ⟨hslash, htilde⟩
    rw [if_neg htilde] at htext
    refine (typed_ends word).resolve_right fun hends => hslash ?_
    rw [← htext]
    exact List.mem_append_left _ (List.mem_of_getLast? hends)

private theorem getLast?_offer {name : String} (hname : Path.Plain name)
    (typed : String) (isDirectory : Bool) :
    (offer typed name isDirectory).text.toList.getLast? = some '/' ↔
      isDirectory = true := by
  cases isDirectory with
  | true => simp [offer, ending]
  | false =>
      have hsome : name.toList ≠ [] := mt String.toList_eq_nil_iff.mp hname.nonempty
      have hlast : (typed ++ name).toList.getLast? ≠ some '/' := by
        rw [String.toList_append, List.getLast?_append_of_ne_nil _ hsome]
        intro hlast
        exact hname.slashless (List.mem_of_getLast? hlast)
      simpa [offer, ending] using hlast

section

open PipeShell.Path

variable {directory name : String}

theorem isAbsolute_written (hname : Plain name) (isDirectory : Bool) :
    isAbsolute (name ++ ending isDirectory) = false := by
  rw [isAbsolute_concat hname.nonempty, hname.isAbsolute_eq_false]

private theorem normalize_append_written (hdirectory : Normal directory)
    (hname : Plain name) (isDirectory : Bool) :
    normalize (append directory (name ++ ending isDirectory)) =
      append directory name := by
  have hsplit (start : Route) :
      start.walk (Text.split '/' (name ++ ending isDirectory)) =
        start.walk [name] := by
    cases isDirectory with
    | false => rw [ending, if_neg (by decide), String.append_empty, hname.split_eq]
    | true =>
        rw [ending, if_pos rfl, ← String.append_empty (s := name ++ "/"),
          split_append_slash, Route.walk_append, hname.split_eq]
        exact Route.walk_empty _
  rw [append_name hdirectory hname, normalize_eq_render,
    route_append hdirectory.1 (isAbsolute_written hname isDirectory), hsplit,
    Route.walk_plain _ (by simpa using hname)]

private theorem resolve_written_tilde {home : String} (hhome : Normal home)
    (workingDirectory : String) (isDirectory : Bool) :
    resolve ("~" ++ ending isDirectory) workingDirectory home = home := by
  cases isDirectory with
  | false => exact (resolve_tilde hhome.1 workingDirectory).trans hhome.2
  | true =>
      calc resolve ("~/" ++ "") workingDirectory home
        _ = normalize (append home "") :=
          resolve_tilde_slash hhome.1 "" workingDirectory
        _ = Route.render ((route home).walk [""]) := by
            rw [normalize_eq_render, route_append hhome.1 (by decide)]
            rfl
        _ = home := by
            rw [Route.walk_empty]
            exact hhome.2

private theorem normal_baseDirectory {scope : Scope}
    (hdirectory : Normal scope.directory) (typed : String) :
    Normal (baseDirectory scope typed) := by
  unfold baseDirectory
  split
  · exact hdirectory
  · exact normal_resolve typed scope.directory scope.home

private theorem resolve_offer {scope : Scope} (hdirectory : Normal scope.directory)
    (hhome : Normal scope.home) {typed : String}
    (htyped : typed = "" ∨ typed.toList.getLast? = some '/') (hname : Plain name)
    (isDirectory : Bool) :
    resolve (offer typed name isDirectory).text scope.directory scope.home =
      if name = "~" ∧ typed = "" then scope.home
        else append (baseDirectory scope typed) name := by
  have hrelative := isAbsolute_written hname isDirectory
  rcases htyped with rfl | hends
  · by_cases htilde : name = "~"
    · subst htilde
      rw [if_pos ⟨rfl, rfl⟩, offer, String.empty_append]
      exact resolve_written_tilde hhome scope.directory isDirectory
    · have hplain : ¬Tilde (name ++ ending isDirectory) := by
        refine mt (Tilde.of_concat hname.nonempty) fun hname' => ?_
        obtain ⟨rest, rfl⟩ := hname'.exists_rest htilde
        exact hname.slashless (by simp)
      rw [if_neg (fun h => htilde h.1), offer, String.empty_append,
        resolve_eq_normalize, expandHome_of_not_tilde hplain,
        append_of_absolute hdirectory.1]
      exact normalize_append_written hdirectory hname isDirectory
  · have hsome : typed ≠ "" := by
      rintro rfl
      cases hends
    rw [if_neg (fun h => hsome h.2), baseDirectory, if_neg hsome, offer,
      String.append_assoc, resolve_concat hends hrelative]
    exact normalize_append_written (normal_resolve _ _ _) hname isDirectory

end

/-- A candidate for `word` and the entry that it was made from. -/
structure LeadsTo (scope : Scope) (word : String) (candidate : Candidate)
    (name : String) (isDirectory : Bool) : Prop where
  listed : ∃ entries, scope.files.list (baseDirectory scope (splitPath word).1) =
    .ok entries ∧
    (name, isDirectory) ∈ entries
  made : candidate = offer (splitPath word).1 name isDirectory
  /-- Where no directory has been typed, a tilde leads home and not to the entry of
  that name. -/
  resolved : Path.resolve candidate.text scope.directory scope.home =
    if name = "~" ∧ '/' ∉ word.toList ∧ word ≠ "~" then scope.home
    else Path.append (baseDirectory scope (splitPath word).1) name
  ending : candidate.text.toList.getLast? = some '/' ↔ isDirectory = true
  kind : scope.files.isDirectory
    (Path.append (baseDirectory scope (splitPath word).1) name) =
    isDirectory

theorem pathCandidates_lead_to_entries {scope : Scope} (hfiles : scope.files.Sound)
    (hdirectory : Path.Normal scope.directory) (hhome : Path.Normal scope.home)
    {word : String} {notes : List Journal.Note} {candidates : List Candidate}
    (hoffered : pathCandidates scope word = (notes, .ok candidates))
    (candidate : Candidate) :
    candidate ∈ candidates ↔ ∃ name isDirectory, Fits scope (splitPath word).2 name ∧
      LeadsTo scope word candidate name isDirectory := by
  rw [mem_pathCandidates hoffered]
  constructor
  · rintro ⟨entries, name, isDirectory, hlist, hentry, hfits, rfl⟩
    obtain ⟨parent, node, -, hmember, -⟩ := FileTree.mem_list hlist hentry
    have hname := hfiles.plain_name hmember
    refine ⟨name, isDirectory, hfits, ⟨entries, hlist, hentry⟩, rfl, ?_, ?_, ?_⟩
    · rw [resolve_offer hdirectory hhome (typed_ends word) hname]
      simp only [typed_eq_empty_iff]
    · exact getLast?_offer hname _ _
    · exact hfiles.isDirectory_append (normal_baseDirectory hdirectory _)
        (hasZero_baseDirectory hoffered) hlist hentry
  · rintro ⟨name, isDirectory, hfits, hleads⟩
    obtain ⟨entries, hlist, hentry⟩ := hleads.listed
    exact ⟨entries, name, isDirectory, hlist, hentry, hfits, hleads.made⟩

def homeScope : Scope where
  registry := .empty
  files := ⟨[(["home"], .directory)]⟩
  directory := "/home"
  home := "/home/ada"
  showHidden := .bool false
  maxCandidates := .int 0

/-- Two slashes after the tilde start at the root, for the listing and for the
candidate. -/
theorem pathCandidates_lead_to_entries_root :
    ∃ candidates, pathCandidates homeScope "~//H" = ([], .ok candidates) ∧
      offer "~//" "home" true ∈ candidates ∧
      ∃ name isDirectory, Fits homeScope "H" name ∧
        LeadsTo homeScope "~//H" (offer "~//" "home" true) name isDirectory := by
  have hsplit : splitPath "~//H" = ("~//", "H") := by decide
  have hlist : homeScope.files.list "/" = .ok [("home", true)] :=
    congrArg Except.ok (List.mergeSort_singleton _)
  have hoffered : pathCandidates homeScope "~//H" =
      ([], .ok (pathCandidatesIn homeScope "~//" "H" [("home", true)])) := by
    have hbase : baseDirectory homeScope "~//" = "/" := by decide
    rw [pathCandidates, hsplit]
    dsimp only
    rw [hbase, hlist, if_neg (by decide)]
  have hcandidate : offer "~//" "home" true ∈
      pathCandidatesIn homeScope "~//" "H" [("home", true)] := by
    refine mem_pathCandidatesIn.mpr
      ⟨"home", true, List.mem_cons_self, ⟨?_, .inr (.inr ?_)⟩, rfl⟩
    · decide +kernel
    · decide
  have hfiles : homeScope.files.Sound := ⟨by decide, by decide, by decide⟩
  have hleads := (pathCandidates_lead_to_entries hfiles (by decide) (by decide)
    hoffered _).mp
    hcandidate
  rw [hsplit] at hleads
  exact ⟨_, hoffered, hcandidate, hleads⟩

end Completion

end PipeShell
