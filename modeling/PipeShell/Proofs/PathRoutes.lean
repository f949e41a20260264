import PipeShell.Proofs.Paths

namespace PipeShell.Path

def Route.walk (route : Route) (parts : List String) : Route :=
  ⟨route.lead, (parts.foldl (Route.push route.lead) route.parts.reverse).reverse⟩

def route (path : String) : Route :=
  (Route.ofString path).reduce

theorem route_eq_walk (path : String) :
    route path = Route.walk ⟨.ofChars path.toList, []⟩ (Text.split '/' path) := rfl

theorem normalize_eq_render (path : String) :
    normalize path = (route path).render := rfl

namespace Route

theorem walk_append (route : Route) (parts more : List String) :
    route.walk (parts ++ more) = (route.walk parts).walk more := by
  simp [walk]

theorem walk_empty (route : Route) : route.walk [""] = route := by
  simp [walk, push]

theorem walk_plain (route : Route) {parts : List String}
    (hparts : ∀ part ∈ parts, Plain part) :
    route.walk parts = ⟨route.lead, route.parts ++ parts⟩ := by
  rw [walk, foldl_push_plain hparts]
  simp

end Route

theorem append_of_absolute {path : String} (hpath : isAbsolute path = true)
    (directory : String) :
    append directory path = path :=
  if_pos hpath

theorem append_of_relative {path : String} (hpath : isAbsolute path = false)
    (directory : String) :
    append directory path = directory ++ gap directory ++ path := by
  rw [append, if_neg (by simp [hpath])]

theorem gap_append (before : String) {directory : String} (hsome : directory ≠ "") :
    gap (before ++ directory) = gap directory := by
  have hchars : directory.toList ≠ [] := mt String.toList_eq_nil_iff.mp hsome
  simp [gap, hsome, List.getLast?_append_of_ne_nil _ hchars]

private theorem gap_append_gap (directory : String) :
    gap (directory ++ gap directory) = "" := by
  by_cases hclosed : directory = "" ∨ directory.toList.getLast? = some '/'
  · simp [gap, hclosed]
  · have hgap : gap directory = "/" := if_neg hclosed
    rw [hgap, gap_append directory (by decide)]
    rfl

theorem isAbsolute_eq_false_iff {path : String} :
    isAbsolute path = false ↔ path.toList.head? ≠ some '/' := by
  rw [← Bool.not_eq_true, isAbsolute_iff]

theorem ne_empty_of_isAbsolute {path : String} (hpath : isAbsolute path = true) :
    path ≠ "" := by
  rintro rfl
  cases hpath

theorem isAbsolute_concat {path : String} (hsome : path ≠ "") (more : String) :
    isAbsolute (path ++ more) = isAbsolute path := by
  have hchars : path.toList ≠ [] := mt String.toList_eq_nil_iff.mp hsome
  rw [Bool.eq_iff_iff, isAbsolute_iff, isAbsolute_iff, String.toList_append,
    List.head?_append_of_ne_nil _ hchars]

theorem isAbsolute_append {directory : String}
    (hdirectory : isAbsolute directory = true) (path : String) :
    isAbsolute (append directory path) = true := by
  cases hpath : isAbsolute path with
  | true => rw [append_of_absolute hpath, hpath]
  | false =>
      rw [append_of_relative hpath, String.append_assoc,
        isAbsolute_concat (ne_empty_of_isAbsolute hdirectory), hdirectory]

private theorem isAbsolute_append_eq_false {directory path : String}
    (hdirectory : isAbsolute directory = false) (hpath : isAbsolute path = false) :
    isAbsolute (append directory path) = false := by
  rw [append_of_relative hpath]
  by_cases hempty : directory = ""
  · simpa [hempty, gap] using hpath
  · rw [String.append_assoc, isAbsolute_concat hempty, hdirectory]

theorem append_assoc (first second third : String) :
    append (append first second) third = append first (append second third) := by
  cases hthird : isAbsolute third with
  | true =>
      rw [append_of_absolute hthird, append_of_absolute hthird,
        append_of_absolute hthird]
  | false =>
      cases hsecond : isAbsolute second with
      | true =>
          rw [append_of_absolute hsecond,
            append_of_absolute (isAbsolute_append hsecond third)]
      | false =>
          have hgap : gap (first ++ gap first ++ second) = gap second := by
            by_cases hempty : second = ""
            · rw [hempty, String.append_empty, gap_append_gap]
              rfl
            · exact gap_append _ hempty
          rw [append_of_relative hthird, append_of_relative hsecond,
            append_of_relative (isAbsolute_append_eq_false hsecond hthird),
            append_of_relative hthird, hgap]
          simp only [String.append_assoc]

theorem split_append_slash (path more : String) :
    Text.split '/' (path ++ "/" ++ more) = Text.split '/' path ++
      Text.split '/' more :=
  Text.split_append_separator (by simp) path more

private theorem walk_split_append (start : Route) (directory : String)
    {path : String} (hpath : isAbsolute path = false) :
    start.walk (Text.split '/' (append directory path)) =
      (start.walk (Text.split '/' directory)).walk (Text.split '/' path) := by
  rw [append_of_relative hpath]
  by_cases hempty : directory = ""
  · have hnowhere : start.walk (Text.split '/' "") = start := start.walk_empty
    rw [hempty, hnowhere]
    simp [gap]
  by_cases hclosed : directory.toList.getLast? = some '/'
  · obtain ⟨above, habove⟩ := List.getLast?_eq_some_iff.mp hclosed
    have hdirectory : directory = String.ofList above ++ "/" := by
      apply String.toList_injective
      simp [habove]
    have hgap : gap directory = "" := if_pos (.inr hclosed)
    -- The slash at the end of the directory leaves an empty part behind it.
    rw [hgap, String.append_empty, hdirectory, split_append_slash, Route.walk_append,
      ← String.append_empty (s := String.ofList above ++ "/"), split_append_slash,
      Route.walk_append]
    exact congrArg (Route.walk · _) (Route.walk_empty _).symm
  · have hgap : gap directory = "/" := if_neg (not_or.mpr ⟨hempty, hclosed⟩)
    rw [hgap, split_append_slash, Route.walk_append]

/-- Only a slash right after slashes could change where a path starts. -/
theorem ofChars_append {chars more : List Char} (hhead : chars.head? = some '/')
    (hmore : chars.getLast? = some '/' → more.head? ≠ some '/') :
    Lead.ofChars (chars ++ more) = Lead.ofChars chars := by
  obtain ⟨rest, rfl⟩ := List.head?_eq_some_iff.mp hhead
  match rest with
  | [] => exact ofChars_root (hmore rfl)
  | [d] =>
      by_cases hd : d = '/'
      · subst hd
        exact ofChars_doubleRoot (hmore rfl)
      · simp [Lead.ofChars, hd]
  | d :: e :: rest =>
      by_cases hd : d = '/'
      · by_cases he : e = '/'
        · subst hd he
          rfl
        · subst hd
          simp [Lead.ofChars, he]
      · simp [Lead.ofChars, hd]

private theorem lead_append {directory : String}
    (hdirectory : isAbsolute directory = true) {path : String}
    (hpath : isAbsolute path = false) :
    Lead.ofChars (append directory path).toList = Lead.ofChars directory.toList := by
  have hrelative := isAbsolute_eq_false_iff.mp hpath
  rw [append_of_relative hpath, String.append_assoc, String.toList_append]
  apply ofChars_append (isAbsolute_iff.mp hdirectory)
  intro hclosed
  simpa [gap, hclosed] using hrelative

theorem route_append {directory : String} (hdirectory : isAbsolute directory = true)
    {path : String} (hpath : isAbsolute path = false) :
    route (append directory path) = (route directory).walk
      (Text.split '/' path) := by
  rw [route_eq_walk, lead_append hdirectory hpath, walk_split_append _ _ hpath]
  rfl

theorem route_normalize {path : String} (hpath : isAbsolute path = true) :
    route (normalize path) = route path := by
  have hrooted := rooted_of_head? (isAbsolute_iff.mp hpath)
  exact reduce_render hrooted (Route.plain_reduce hrooted)

theorem normalize_append_normalize {directory : String}
    (hdirectory : isAbsolute directory = true) (path : String) :
    normalize (append (normalize directory) path) =
      normalize (append directory path) := by
  cases hpath : isAbsolute path with
  | true => rw [append_of_absolute hpath, append_of_absolute hpath]
  | false =>
      rw [normalize_eq_render, normalize_eq_render (append directory path),
        route_append (normal_normalize hdirectory).1 hpath,
        route_append hdirectory hpath, route_normalize hdirectory]

/-- The names on a path, behind the slashes that it starts with. -/
def components (path : String) : List String :=
  Text.split '/' (String.ofList (path.toList.dropWhile (· = '/')))

def IsRoot (path : String) : Prop :=
  path = "/" ∨ path = "//"

instance (path : String) : Decidable (IsRoot path) :=
  inferInstanceAs (Decidable (_ ∨ _))

/-- An absolute path in which nothing is left to drop. -/
structure Tidy (path : String) : Prop where
  absolute : isAbsolute path = true
  lead : Text.startsWith path "///" = false
  names : ¬IsRoot path → ∀ name ∈ components path, name ≠ "" ∧ name ≠ "." ∧
    name ≠ ".."
  ending : ¬IsRoot path → path.toList.getLast? ≠ some '/'

theorem normal_render {lead : Lead} {parts : List String}
    (hrooted : lead ≠ .relative) (hparts : ∀ part ∈ parts, Plain part) :
    Normal (Route.render ⟨lead, parts⟩) := by
  refine ⟨?_, congrArg Route.render (reduce_render hrooted hparts)⟩
  rw [isAbsolute_iff, toList_render hrooted]
  cases lead with
  | relative => exact absurd rfl hrooted
  | root | doubleRoot => rfl

namespace Normal

variable {path : String}

theorem rooted (hpath : Normal path) : (route path).lead ≠ .relative :=
  rooted_of_head? (isAbsolute_iff.mp hpath.1)

theorem plain (hpath : Normal path) : ∀ part ∈ (route path).parts, Plain part :=
  Route.plain_reduce hpath.rooted

theorem toList_eq (hpath : Normal path) :
    path.toList = (route path).lead.text.toList ++ spelled (route path).parts := by
  rw [← toList_render hpath.rooted]
  exact congrArg String.toList hpath.2.symm

end Normal

theorem dropWhile_slash {chars : List Char} (hhead : chars.head? ≠ some '/') :
    chars.dropWhile (· = '/') = chars := by
  cases chars with
  | nil => rfl
  | cons c rest => exact List.dropWhile_cons_of_neg (by simpa using hhead)

theorem components_of_toList {path : String} {lead : Lead} {chars : List Char}
    (hpath : path.toList = lead.text.toList ++ chars)
    (hhead : chars.head? ≠ some '/') :
    components path = (Text.splitChars '/' chars).map String.ofList := by
  have hslashes : ∀ c ∈ lead.text.toList, decide (c = '/') = true := by
    cases lead <;> simp [Lead.text]
  rw [components, hpath, List.dropWhile_append_of_pos hslashes,
    dropWhile_slash hhead, Text.split, String.toList_ofList]

theorem map_splitChars_spelled {parts : List String} (hsome : parts ≠ [])
    (hparts : ∀ part ∈ parts, Plain part) :
    (Text.splitChars '/' (spelled parts)).map String.ofList = parts := by
  rw [splitChars_spelled hsome hparts, List.map_map]
  simp [Function.comp_def]

theorem nil_notMem_toList {parts : List String}
    (hparts : ∀ part ∈ parts, Plain part) : [] ∉ parts.map String.toList := by
  intro hempty
  obtain ⟨part, hpart, hchars⟩ := List.mem_map.mp hempty
  exact (hparts part hpart).nonempty (String.toList_eq_nil_iff.mp hchars)

theorem spelled_ne_nil {parts : List String} (hsome : parts ≠ [])
    (hparts : ∀ part ∈ parts, Plain part) : spelled parts ≠ [] := by
  intro hempty
  apply nil_notMem_toList hparts
  rw [← splitChars_spelled hsome hparts, hempty]
  exact List.mem_cons_self

theorem getLast?_spelled {parts : List String}
    (hparts : ∀ part ∈ parts, Plain part) : (spelled parts).getLast? ≠ some '/' := by
  intro hlast
  obtain ⟨front, hfront⟩ := List.getLast?_eq_some_iff.mp hlast
  have hsome : parts ≠ [] := by
    rintro rfl
    cases hlast
  apply nil_notMem_toList hparts
  rw [← splitChars_spelled hsome hparts, hfront, Text.splitChars_append_separator]
  exact List.mem_append_right _ List.mem_cons_self

private theorem Normal.tidy {path : String} (hpath : Normal path) : Tidy path := by
  have htext := hpath.toList_eq
  have hhead := head?_spelled hpath.plain
  have hsome (hroot : ¬IsRoot path) : (route path).parts ≠ [] := by
    intro hparts
    rw [hparts] at htext
    apply hroot
    cases hlead : (route path).lead with
    | relative => exact absurd hlead hpath.rooted
    | root => exact .inl (String.toList_injective (by rw [htext, hlead]; rfl))
    | doubleRoot => exact .inr (String.toList_injective (by rw [htext, hlead]; rfl))
  refine ⟨hpath.1, ?_, fun hroot => ?_, fun hroot => ?_⟩
  · rw [Bool.eq_false_iff]
    intro hslashes
    obtain ⟨rest, hrest⟩ := Text.startsWith_iff.mp hslashes
    rw [htext] at hrest
    apply hhead
    cases hlead : (route path).lead with
    | relative => exact absurd hlead hpath.rooted
    | root =>
        have hspelled : spelled (route path).parts = '/' :: '/' :: rest := by
          simpa [hlead, Lead.text] using hrest
        rw [hspelled]
        rfl
    | doubleRoot =>
        have hspelled : spelled (route path).parts = '/' :: rest := by
          simpa [hlead, Lead.text] using hrest
        rw [hspelled]
        rfl
  · intro name hname
    rw [components_of_toList htext hhead,
      map_splitChars_spelled (hsome hroot) hpath.plain] at hname
    have hplain := hpath.plain name hname
    exact ⟨hplain.nonempty, hplain.notDot, hplain.notDots⟩
  · rw [htext, List.getLast?_append_of_ne_nil _
      (spelled_ne_nil (hsome hroot) hpath.plain)]
    exact getLast?_spelled hpath.plain

private theorem exists_lead {path : String} (hpath : isAbsolute path = true)
    (hfew : Text.startsWith path "///" = false) :
    ∃ lead : Lead, lead ≠ .relative ∧
      ∃ chars, path.toList = lead.text.toList ++ chars ∧
      chars.head? ≠ some '/' := by
  obtain ⟨rest, hrest⟩ := List.head?_eq_some_iff.mp (isAbsolute_iff.mp hpath)
  by_cases hsecond : rest.head? = some '/'
  · obtain ⟨more, rfl⟩ := List.head?_eq_some_iff.mp hsecond
    refine ⟨.doubleRoot, nofun, more, hrest, fun hthird => ?_⟩
    obtain ⟨last, rfl⟩ := List.head?_eq_some_iff.mp hthird
    rw [Text.startsWith_iff.mpr ⟨last, hrest⟩] at hfew
    cases hfew
  · exact ⟨.root, nofun, rest, hrest, hsecond⟩

private theorem Tidy.normal {path : String} (hpath : Tidy path) : Normal path := by
  obtain ⟨lead, hrooted, chars, hchars, hhead⟩ :=
    exists_lead hpath.absolute hpath.lead
  suffices hrender : ∃ parts, (∀ part ∈ parts, Plain part) ∧ spelled parts = chars by
    obtain ⟨parts, hparts, hspelled⟩ := hrender
    have hsame : path = Route.render ⟨lead, parts⟩ := by
      apply String.toList_injective
      rw [toList_render hrooted, hspelled, hchars]
    exact hsame ▸ normal_render hrooted hparts
  have hcomponents := components_of_toList hchars hhead
  cases chars with
  | nil => exact ⟨[], by simp, rfl⟩
  | cons c rest =>
      have hc : c ∈ path.toList :=
        hchars ▸ List.mem_append_right _ List.mem_cons_self
      have hother : c ≠ '/' := by simpa using hhead
      have hroot : ¬IsRoot path := by
        rintro (rfl | rfl)
        · exact hother (by simpa using hc)
        · exact hother (by simpa using hc)
      refine ⟨components path, fun part hpart => ?_, ?_⟩
      · obtain ⟨hnonempty, hnotDot, hnotDots⟩ := hpath.names hroot part hpart
        exact ⟨hnonempty, hnotDot, hnotDots, slash_notMem_split hpart⟩
      · rw [hcomponents, spelled, List.map_map]
        simpa [Function.comp_def] using Text.intercalate_splitChars '/' (c :: rest)

/-- The path stands for the home directory, or for something seen from there. -/
def Tilde (path : String) : Prop :=
  path = "~" ∨ Text.startsWith path "~/" = true

instance (path : String) : Decidable (Tilde path) :=
  inferInstanceAs (Decidable (_ ∨ _))

theorem expandHome_of_not_tilde {path : String} (hpath : ¬Tilde path)
    (home : String) :
    expandHome path home = path := by
  unfold expandHome
  split
  · next hchars => exact absurd (.inl (String.toList_injective hchars)) hpath
  · next hchars =>
      refine absurd (.inr ?_) hpath
      rw [Text.startsWith, hchars]
      rfl
  · rfl

theorem Tilde.head?_eq {path : String} (hpath : Tilde path) :
    path.toList.head? = some '~' := by
  rcases hpath with rfl | hstart
  · rfl
  · obtain ⟨rest, hrest⟩ := Text.startsWith_iff.mp hstart
    rw [hrest]
    rfl

private theorem not_tilde_of_isAbsolute {path : String}
    (hpath : isAbsolute path = true) : ¬Tilde path := by
  intro htilde
  have hhead := htilde.head?_eq
  rw [isAbsolute_iff.mp hpath] at hhead
  cases hhead

theorem resolve_eq_normalize (path workingDirectory home : String) :
    resolve path workingDirectory home =
      normalize (append (append "/" workingDirectory) (expandHome path home)) := by
  rw [resolve, absolute, append_assoc]

theorem resolve_of_normal {path : String} (hpath : Normal path)
    (workingDirectory home : String) :
    resolve path workingDirectory home = path := by
  rw [resolve_eq_normalize,
    expandHome_of_not_tilde (not_tilde_of_isAbsolute hpath.1),
    append_of_absolute hpath.1, hpath.2]

theorem Tilde.of_concat {path more : String} (hsome : path ≠ "")
    (htilde : Tilde (path ++ more)) :
    Tilde path := by
  cases hchars : path.toList with
  | nil => exact absurd (String.toList_eq_nil_iff.mp hchars) hsome
  | cons c chars =>
      obtain rfl : c = '~' := by
        have hhead := htilde.head?_eq
        rw [String.toList_append, hchars] at hhead
        simpa using hhead
      cases chars with
      | nil => exact .inl (String.toList_injective hchars)
      | cons d chars =>
          refine .inr (Text.startsWith_iff.mpr ⟨chars, ?_⟩)
          rcases htilde with heq | hstart
          · have hlong := congrArg String.toList heq
            rw [String.toList_append, hchars] at hlong
            cases hlong
          · obtain ⟨rest, hrest⟩ := Text.startsWith_iff.mp hstart
            rw [String.toList_append, hchars] at hrest
            obtain rfl : d = '/' := by
              simpa using congrArg (List.head? ∘ List.tail) hrest
            exact hchars

private theorem resolve_step {first second : String} (hsome : first ≠ "")
    (hfirst : isAbsolute first = false) (hfirstPlain : ¬Tilde first)
    (hsecond : isAbsolute second = false) (hsecondPlain : ¬Tilde second)
    (workingDirectory home : String) :
    resolve second (resolve first workingDirectory home) home =
      resolve (first ++ "/" ++ second) workingDirectory home := by
  have hstart := isAbsolute_append_root workingDirectory
  have hreached : resolve first workingDirectory home =
      normalize (append (append "/" workingDirectory) first) := by
    rw [resolve_eq_normalize, expandHome_of_not_tilde hfirstPlain]
  have hboth : isAbsolute (first ++ "/" ++ second) = false := by
    rw [String.append_assoc, isAbsolute_concat hsome, hfirst]
  have hroute : route (append (append (append "/" workingDirectory) first) second) =
      route (append (append "/" workingDirectory) (first ++ "/" ++ second)) := by
    rw [route_append (isAbsolute_append hstart first) hsecond,
      route_append hstart hfirst, route_append hstart hboth, split_append_slash,
      Route.walk_append]
  calc resolve second (resolve first workingDirectory home) home
    _ = normalize (append (resolve first workingDirectory home) second) := by
        rw [resolve_eq_normalize, expandHome_of_not_tilde hsecondPlain,
          append_of_absolute (normal_resolve first workingDirectory home).1]
    _ = normalize (append (append (append "/" workingDirectory) first) second) := by
        rw [hreached, normalize_append_normalize (isAbsolute_append hstart first)]
    _ = normalize (append (append "/" workingDirectory)
      (first ++ "/" ++ second)) := by
        rw [normalize_eq_render, hroute, normalize_eq_render]
    _ = resolve (first ++ "/" ++ second) workingDirectory home := by
        rw [resolve_eq_normalize, expandHome_of_not_tilde]
        rw [String.append_assoc]
        exact mt (Tilde.of_concat hsome) hfirstPlain

/-- Resolving leads to tidy paths and leaves exactly those as they are, and a path
can be resolved in one step or in two. -/
theorem resolve_tidy_stepwise (workingDirectory home : String) :
    (∀ path, Tidy (resolve path workingDirectory home) ∧
      (resolve path workingDirectory home = path ↔ Tidy path) ∧
      ∀ elsewhere otherHome,
        resolve (resolve path workingDirectory home) elsewhere otherHome =
          resolve path workingDirectory home) ∧
    ∀ first second, first ≠ "" → isAbsolute first = false → ¬Tilde first →
      isAbsolute second = false → ¬Tilde second →
        resolve second (resolve first workingDirectory home) home =
          resolve (first ++ "/" ++ second) workingDirectory home := by
  refine ⟨fun path => ⟨(normal_resolve _ _ _).tidy, ⟨?_, ?_⟩, ?_⟩, ?_⟩
  · intro hsame
    exact hsame ▸ (normal_resolve path workingDirectory home).tidy
  · intro htidy
    exact resolve_of_normal htidy.normal workingDirectory home
  · intro elsewhere otherHome
    exact resolve_of_normal (normal_resolve _ _ _) elsewhere otherHome
  · intro first second hsome hfirst hfirstPlain hsecond hsecondPlain
    exact resolve_step hsome hfirst hfirstPlain hsecond hsecondPlain
      workingDirectory home

/-- Up to a root with two slashes, and further up than there is. -/
theorem resolve_tidy_stepwise_upwards :
    let first := "~bob//../../../.."
    let second := "./x/../~/"
    Tidy (resolve first "//net/share" "/home/ada") ∧
      isAbsolute first = false ∧ ¬Tilde first ∧ isAbsolute second = false ∧
        ¬Tilde second ∧
      resolve second (resolve first "//net/share" "/home/ada") "/home/ada" =
        resolve (first ++ "/" ++ second) "//net/share" "/home/ada" ∧
      resolve (first ++ "/" ++ second) "//net/share" "/home/ada" = "//~" := by
  have hlaws := resolve_tidy_stepwise "//net/share" "/home/ada"
  refine ⟨(hlaws.1 _).1, by decide, by decide, by decide, by decide, ?_, by decide⟩
  exact hlaws.2 _ _ (by decide) (by decide) (by decide) (by decide) (by decide)

end PipeShell.Path
