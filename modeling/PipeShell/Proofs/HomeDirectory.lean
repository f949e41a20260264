import PipeShell.Proofs.PathRoutes

namespace PipeShell.Path

def names (path : String) : List String :=
  (Text.split '/' path).filter (· ≠ "")

/-- `path` is `directory` or comes with further names after it. -/
def Within (directory path : String) : Prop :=
  Lead.ofChars path.toList = Lead.ofChars directory.toList ∧
    names directory <+: names path

instance (directory path : String) : Decidable (Within directory path) :=
  inferInstanceAs (Decidable (_ ∧ _))

theorem names_of_normal {path : String} (hpath : Normal path) :
    names path = (route path).parts := by
  have hskip (chars : List Char) :
      ((Text.splitChars '/' ('/' :: chars)).map String.ofList).filter (· ≠ "") =
        ((Text.splitChars '/' chars).map String.ofList).filter (· ≠ "") := rfl
  have hparts : ((Text.splitChars '/' (spelled (route path).parts)).map
      String.ofList).filter
        (· ≠ "") = (route path).parts := by
    by_cases hroot : (route path).parts = []
    · rw [hroot]
      rfl
    · rw [map_splitChars_spelled hroot hpath.plain, List.filter_eq_self]
      intro name hname
      exact decide_eq_true (hpath.plain name hname).nonempty
  rw [names, Text.split, hpath.toList_eq]
  cases hlead : (route path).lead with
  | relative => exact absurd hlead hpath.rooted
  | root => exact (hskip _).trans hparts
  | doubleRoot => exact (hskip _).trans ((hskip _).trans hparts)

theorem within_iff {directory path : String} (hdirectory : Normal directory)
    (hpath : Normal path) :
    Within directory path ↔ (route path).lead = (route directory).lead ∧
      (route directory).parts <+: (route path).parts := by
  rw [Within, names_of_normal hdirectory, names_of_normal hpath]
  rfl

theorem spelled_cons (part : String) {rest : List String} (hrest : rest ≠ []) :
    spelled (part :: rest) = part.toList ++ '/' :: spelled rest := by
  rw [spelled, List.map_cons, List.intercalate_cons_of_ne_nil (by simpa using hrest),
    ← spelled, List.append_assoc, List.singleton_append]

private theorem spelled_append {first second : List String} (hfirst : first ≠ [])
    (hsecond : second ≠ []) :
    spelled (first ++ second) = spelled first ++ '/' :: spelled second := by
  induction first with
  | nil => exact absurd rfl hfirst
  | cons part rest ih =>
      cases rest with
      | nil =>
          rw [List.singleton_append, spelled_cons part hsecond]
          simp [spelled]
      | cons next rest =>
          rw [List.cons_append, spelled_cons part (by simp),
            ih (List.cons_ne_nil next rest),
            spelled_cons part (List.cons_ne_nil next rest), List.append_assoc,
            List.cons_append]

theorem toList_join (parts : List String) :
    (Text.join "/" parts).toList = spelled parts := by
  rw [Text.join, String.toList_intercalate]
  rfl

theorem Normal.gap_eq {directory : String} (hdirectory : Normal directory) :
    gap directory = if (route directory).parts = [] then "" else "/" := by
  have hends : directory.toList.getLast? = some '/' ↔
      (route directory).parts = [] := by
    rw [hdirectory.toList_eq]
    constructor
    · intro hlast
      by_contra hsome
      rw [List.getLast?_append_of_ne_nil _
        (spelled_ne_nil hsome hdirectory.plain)] at hlast
      exact getLast?_spelled hdirectory.plain hlast
    · intro hroot
      rw [hroot]
      cases hlead : (route directory).lead with
      | relative => exact absurd hlead hdirectory.rooted
      | root | doubleRoot => rfl
  simp only [gap, ne_empty_of_isAbsolute hdirectory.1, false_or, hends]

theorem isAbsolute_join {parts : List String} (hparts : ∀ part ∈ parts, Plain part) :
    isAbsolute (Text.join "/" parts) = false := by
  rw [isAbsolute_eq_false_iff, toList_join]
  exact head?_spelled hparts

theorem append_join {directory : String} (hdirectory : Normal directory)
    {rest : List String} (hsome : rest ≠ []) (hrest : ∀ part ∈ rest, Plain part) :
    append directory (Text.join "/" rest) =
      Route.render ⟨(route directory).lead, (route directory).parts ++ rest⟩ := by
  apply String.toList_injective
  rw [append_of_relative (isAbsolute_join hrest), toList_render hdirectory.rooted,
    String.toList_append, String.toList_append, toList_join, hdirectory.gap_eq,
    hdirectory.toList_eq]
  by_cases hroot : (route directory).parts = []
  · simp [hroot, spelled]
  · rw [if_neg hroot, spelled_append hroot hsome]
    simp

theorem append_name {directory name : String} (hdirectory : Normal directory)
    (hname : Plain name) :
    append directory name =
      Route.render ⟨(route directory).lead, (route directory).parts ++ [name]⟩ := by
  rw [← append_join hdirectory (List.cons_ne_nil name []) (by simpa using hname)]
  rfl

theorem expandHome_tilde_slash (rest home : String) :
    expandHome ("~/" ++ rest) home = append home rest := by
  have hchars : ("~/" ++ rest).toList = '~' :: '/' :: rest.toList := by simp
  rw [expandHome, hchars]
  exact congrArg (append home) String.ofList_toList

theorem resolve_tilde_slash {home : String} (hhome : isAbsolute home = true)
    (rest workingDirectory : String) :
    resolve ("~/" ++ rest) workingDirectory home = normalize (append home rest) := by
  rw [resolve_eq_normalize, expandHome_tilde_slash,
    append_of_absolute (isAbsolute_append hhome rest)]

theorem resolve_tilde {home : String} (hhome : isAbsolute home = true)
    (workingDirectory : String) :
    resolve "~" workingDirectory home = normalize home := by
  rw [resolve_eq_normalize]
  exact congrArg normalize (append_of_absolute hhome _)

theorem Tilde.exists_rest {path : String} (htilde : Tilde path)
    (hother : path ≠ "~") :
    ∃ rest, path = "~/" ++ rest := by
  obtain ⟨rest, hrest⟩ := Text.startsWith_iff.mp (htilde.resolve_left hother)
  refine ⟨String.ofList rest, String.toList_injective ?_⟩
  simp [hrest]

private theorem expandHome_concat {directory : String}
    (hends : directory.toList.getLast? = some '/') {path : String}
    (hpath : isAbsolute path = false) (home : String) :
    expandHome (directory ++ path) home =
      append (expandHome directory home) path := by
  by_cases htilde : Tilde directory
  · have hother : directory ≠ "~" := by
      rintro rfl
      cases hends
    obtain ⟨rest, rfl⟩ := htilde.exists_rest hother
    have hgap : gap rest = "" := by
      by_cases hempty : rest = ""
      · exact if_pos (.inl hempty)
      · rw [← gap_append "~/" hempty]
        exact if_pos (.inr hends)
    rw [String.append_assoc, expandHome_tilde_slash, expandHome_tilde_slash,
      append_assoc, append_of_relative hpath rest, hgap, String.append_empty]
  · have hsome : directory ≠ "" := by
      rintro rfl
      cases hends
    have hgap : gap directory = "" := if_pos (.inr hends)
    rw [expandHome_of_not_tilde htilde,
      expandHome_of_not_tilde (mt (Tilde.of_concat hsome) htilde),
      append_of_relative hpath, hgap, String.append_empty]

theorem resolve_concat {directory : String}
    (hends : directory.toList.getLast? = some '/') {path : String}
    (hpath : isAbsolute path = false) (workingDirectory home : String) :
    resolve (directory ++ path) workingDirectory home =
      normalize (append (resolve directory workingDirectory home) path) := by
  have hreached := isAbsolute_append (isAbsolute_append_root workingDirectory)
    (expandHome directory home)
  rw [resolve_eq_normalize, resolve_eq_normalize, expandHome_concat hends hpath,
    normalize_append_normalize hreached, append_assoc (append "/" workingDirectory)]

theorem withoutTrailingSlashes_eq {directory : String}
    (hdirectory : Normal directory) (hlead : (route directory).lead = .root) :
    withoutTrailingSlashes directory ++ "/" = directory ++ gap directory := by
  have htext := hdirectory.toList_eq
  rw [hlead] at htext
  rw [hdirectory.gap_eq]
  by_cases hroot : (route directory).parts = []
  · rw [hroot] at htext
    obtain rfl : directory = "/" := String.toList_injective htext
    rw [if_pos hroot]
    rfl
  · have hlast : directory.toList.reverse.head? ≠ some '/' := by
      rw [List.head?_reverse, htext,
        List.getLast?_append_of_ne_nil _ (spelled_ne_nil hroot hdirectory.plain)]
      exact getLast?_spelled hdirectory.plain
    rw [if_neg hroot, withoutTrailingSlashes, dropWhile_slash hlast,
      List.reverse_reverse, String.ofList_toList]

/-- Where the text of a directory ends at a slash, the names end as well. -/
theorem prefix_of_startsWith {directory path : String}
    (hdirectory : Normal directory) (hpath : Normal path)
    (hlead : (route path).lead = (route directory).lead)
    (hstart : Text.startsWith path (directory ++ gap directory) = true) :
    (route directory).parts <+: (route path).parts := by
  obtain ⟨rest, htext⟩ := Text.startsWith_iff.mp hstart
  rw [hpath.toList_eq, hlead, String.toList_append, hdirectory.toList_eq,
    List.append_assoc, List.append_assoc, List.append_cancel_left_eq,
    hdirectory.gap_eq] at htext
  by_cases hroot : (route directory).parts = []
  · rw [hroot]
    exact List.nil_prefix
  · rw [if_neg hroot] at htext
    have hsome : (route path).parts ≠ [] := by
      intro hparts
      rw [hparts] at htext
      simp [spelled] at htext
    refine ⟨(Text.splitChars '/' rest).map String.ofList, ?_⟩
    rw [← map_splitChars_spelled hsome hpath.plain, htext]
    change _ =
      (Text.splitChars '/' (spelled (route directory).parts ++ '/' :: rest)).map
        String.ofList
    rw [Text.splitChars_append_separator, List.map_append,
      map_splitChars_spelled hroot hdirectory.plain]

theorem join_cons (part : String) {rest : List String} (hrest : rest ≠ []) :
    Text.join "/" (part :: rest) = part ++ "/" ++ Text.join "/" rest := by
  apply String.toList_injective
  rw [toList_join, spelled_cons part hrest]
  simp [toList_join]

theorem head?_of_root {chars : List Char} (hlead : Lead.ofChars chars = .root) :
    chars.head? = some '/' := by
  cases chars with
  | nil => cases hlead
  | cons c rest =>
      by_contra hc
      have hother : c ≠ '/' := by simpa using hc
      simp [Lead.ofChars, hother] at hlead

theorem isAbsolute_of_root {path : String}
    (hlead : Lead.ofChars path.toList = .root) :
    isAbsolute path = true :=
  isAbsolute_iff.mpr (head?_of_root hlead)

section

variable {home path : String} (hhome : Lead.ofChars home.toList = .root)
  (hpath : Normal path)
  (hlead : Lead.ofChars path.toList = .root)

include hhome hpath hlead

theorem eq_or_append_of_parts {rest : List String}
    (hparts : (route path).parts = (route home).parts ++ rest) :
    rest = [] ∧ path = normalize home ∨
      rest ≠ [] ∧ (∀ part ∈ rest, Plain part) ∧
        path = append (normalize home) (Text.join "/" rest) := by
  have habsolute := isAbsolute_of_root hhome
  have hrender : path = Route.render
      ⟨(route home).lead, (route home).parts ++ rest⟩ := by
    rw [← hparts, show (route home).lead = (route path).lead from hhome.trans
      hlead.symm]
    exact hpath.2.symm
  by_cases hrest : rest = []
  · rw [hrest, List.append_nil] at hrender
    exact .inl ⟨hrest, hrender⟩
  · have hplain : ∀ part ∈ rest, Plain part := by
      intro part hpart
      exact hpath.plain part (hparts ▸ List.mem_append_right _ hpart)
    refine .inr ⟨hrest, hplain, ?_⟩
    rw [append_join (normal_normalize habsolute) hrest hplain,
      route_normalize habsolute]
    exact hrender

theorem display_of_parts {rest : List String}
    (hparts : (route path).parts = (route home).parts ++ rest) :
    display path home = Text.join "/" ("~" :: rest) := by
  have hnormal := normal_normalize (isAbsolute_of_root hhome)
  have hroute := route_normalize (isAbsolute_of_root hhome)
  rw [display, hpath.2]
  rcases eq_or_append_of_parts hhome hpath hlead hparts with
    ⟨rfl, hhere⟩ | ⟨hrest, hplain, hafter⟩
  · rw [if_pos hhere]
    rfl
  · have hother : path ≠ normalize home := by
      rintro rfl
      rw [hroute] at hparts
      exact hrest (by simpa using hparts)
    have htext : path = normalize home ++ gap (normalize home) ++
        Text.join "/" rest :=
      hafter.trans (append_of_relative (isAbsolute_join hplain) _)
    have habove := withoutTrailingSlashes_eq hnormal (hroute ▸ hhome)
    have hstart : Text.startsWith path (withoutTrailingSlashes (normalize home) ++
        "/") = true := by
      rw [habove, Text.startsWith_iff]
      exact ⟨(Text.join "/" rest).toList, by rw [← String.toList_append, ← htext]⟩
    rw [if_neg hother, if_pos hstart, habove, join_cons "~" hrest]
    apply congrArg ("~/" ++ ·)
    apply String.toList_injective
    rw [String.toList_ofList, htext, String.toList_append]
    exact List.drop_left' String.length_toList

theorem display_of_not_within (hwithin : ¬Within (normalize home) path) :
    display path home = path := by
  have hnormal := normal_normalize (isAbsolute_of_root hhome)
  have hroute := route_normalize (isAbsolute_of_root hhome)
  have hsame : (route path).lead = (route (normalize home)).lead := by
    rw [hroute]
    exact hlead.trans hhome.symm
  have hother : path ≠ normalize home := by
    rintro rfl
    exact hwithin ⟨rfl, List.prefix_rfl⟩
  have hstart : ¬Text.startsWith path (withoutTrailingSlashes (normalize home) ++
      "/") = true := by
    rw [withoutTrailingSlashes_eq hnormal (hroute ▸ hhome)]
    intro hstart
    exact hwithin ((within_iff hnormal hpath).mpr
      ⟨hsame, prefix_of_startsWith hnormal hpath hsame hstart⟩)
  rw [display, hpath.2, if_neg hother, if_neg hstart]

theorem resolve_display (workingDirectory : String) :
    resolve (display path home) workingDirectory home = path := by
  have habsolute := isAbsolute_of_root hhome
  have hnormal := normal_normalize habsolute
  have hroute := route_normalize habsolute
  by_cases hwithin : Within (normalize home) path
  · obtain ⟨-, rest, hparts⟩ := (within_iff hnormal hpath).mp hwithin
    rw [hroute] at hparts
    rw [display_of_parts hhome hpath hlead hparts.symm]
    rcases eq_or_append_of_parts hhome hpath hlead hparts.symm with
      ⟨rfl, hhere⟩ | ⟨hrest, -, hafter⟩
    · rw [hhere]
      exact resolve_tilde habsolute workingDirectory
    · rw [join_cons "~" hrest]
      calc resolve ("~/" ++ Text.join "/" rest) workingDirectory home
        _ = normalize (append home (Text.join "/" rest)) :=
            resolve_tilde_slash habsolute _ workingDirectory
        _ = normalize (append (normalize home) (Text.join "/" rest)) :=
            (normalize_append_normalize habsolute _).symm
        _ = path := by rw [← hafter, hpath.2]
  · rw [display_of_not_within hhome hpath hlead hwithin]
    exact resolve_of_normal hpath workingDirectory home

private theorem display_ne_iff :
    display path home ≠ path ↔ Within (normalize home) path := by
  have habsolute := isAbsolute_of_root hhome
  constructor
  · intro hshort
    by_contra hwithin
    exact hshort (display_of_not_within hhome hpath hlead hwithin)
  · intro hwithin hsame
    obtain ⟨-, rest, hparts⟩ :=
      (within_iff (normal_normalize habsolute) hpath).mp hwithin
    rw [route_normalize habsolute] at hparts
    have hshort := display_of_parts hhome hpath hlead hparts.symm
    have htilde : (Text.join "/" ("~" :: rest)).toList.head? = some '~' := by
      rw [toList_join]
      cases rest with
      | nil => rfl
      | cons name rest => rfl
    rw [← hshort, hsame, isAbsolute_iff.mp hpath.1] at htilde
    cases htilde

end

/-- The prompt shows enough of a path to type it, and shortens those paths that start
with all names of the home directory. -/
theorem display_typed_back {home path : String}
    (hhome : Lead.ofChars home.toList = .root) (hpath : Normal path)
    (hlead : Lead.ofChars path.toList = .root) :
    (∀ workingDirectory, resolve (display path home) workingDirectory home = path) ∧
      (∀ other, Normal other → Lead.ofChars other.toList = .root →
        display other home = display path home → other = path) ∧
      (display path home ≠ path ↔ Within (normalize home) path) ∧
      ∀ rest, names path = names (normalize home) ++ rest →
        display path home = Text.join "/" ("~" :: rest) := by
  have habsolute := isAbsolute_of_root hhome
  refine ⟨resolve_display hhome hpath hlead, ?_,
    display_ne_iff hhome hpath hlead, ?_⟩
  · intro other hother hotherLead hsame
    calc other
      _ = resolve (display other home) "/" home :=
          (resolve_display hhome hother hotherLead "/").symm
      _ = resolve (display path home) "/" home := by rw [hsame]
      _ = path := resolve_display hhome hpath hlead "/"
  · intro rest hnames
    rw [names_of_normal hpath, names_of_normal (normal_normalize habsolute),
      route_normalize habsolute] at hnames
    exact display_of_parts hhome hpath hlead hnames

/-- A home directory that is not written in its shortest form. -/
theorem display_typed_back_unfinished :
    let home := "/home/../home/ada/"
    let path := "/home/ada/src/~"
    Lead.ofChars home.toList = .root ∧ Normal path ∧
      Lead.ofChars path.toList = .root ∧
      display path home = "~/src/~" ∧
        resolve (display path home) "/tmp" home = path := by
  intro home path
  have hhome : Lead.ofChars home.toList = .root := by decide
  have hpath : Normal path := by decide
  have hlead : Lead.ofChars path.toList = .root := by decide
  obtain ⟨hback, -, -, hshown⟩ := display_typed_back hhome hpath hlead
  exact ⟨hhome, hpath, hlead, hshown ["src", "~"] (by decide), hback "/tmp"⟩

private theorem Route.push_downward {lead : Lead} {kept : List String}
    {part : String} (hpart : part ≠ "..") :
    Route.push lead kept part = if part ≠ "" && part ≠ "." then part :: kept
      else kept := by
  by_cases hempty : part = ""
  · simp [push, hempty]
  · by_cases hdot : part = "."
    · simp [push, hdot]
    · simp [push, hempty, hdot, hpart]

private theorem Route.foldl_push_downward {lead : Lead} {kept parts : List String}
    (hdown : ".." ∉ parts) :
    parts.foldl (Route.push lead) kept =
      (parts.filter fun part => part ≠ "" && part ≠ ".").reverse ++ kept := by
  induction parts generalizing kept with
  | nil => rfl
  | cons part rest ih =>
      obtain ⟨hpart, hrest⟩ := not_or.mp (mt List.mem_cons.mpr hdown)
      rw [List.foldl_cons, ih hrest, Route.push_downward (Ne.symm hpart),
        List.filter_cons]
      split
      · simp
      · rfl

theorem Route.walk_downward (route : Route) {parts : List String}
    (hdown : ".." ∉ parts) :
    route.walk parts =
      ⟨route.lead, route.parts ++ parts.filter fun part =>
        part ≠ "" && part ≠ "."⟩ := by
  rw [walk, foldl_push_downward hdown]
  simp

private theorem ofChars_concat_slash {chars : List Char}
    (hlead : Lead.ofChars chars = .root) (hother : chars ≠ ['/'])
    (more : List Char) : Lead.ofChars (chars ++ '/' :: more) = .root := by
  obtain ⟨rest, rfl⟩ := List.head?_eq_some_iff.mp (head?_of_root hlead)
  match rest with
  | [] => exact absurd rfl hother
  | d :: rest =>
      by_cases hd : d = '/'
      · subst hd
        cases rest with
        | nil => cases hlead
        | cons e rest =>
            obtain rfl : e = '/' := by
              by_contra he
              simp [Lead.ofChars, he] at hlead
            rfl
      · simp [Lead.ofChars, hd]

section

variable {home : String} (hhome : Lead.ofChars home.toList = .root)
  (hother : home ≠ "/")

include hhome hother

theorem route_concat_slash (rest : String) :
    route (home ++ "/" ++ rest) = (route home).walk (Text.split '/' rest) := by
  have hchars : (home ++ "/" ++ rest).toList = home.toList ++
      '/' :: rest.toList := by simp
  have hlead : Lead.ofChars (home ++ "/" ++ rest).toList =
      Lead.ofChars home.toList := by
    rw [hchars, hhome]
    exact ofChars_concat_slash hhome (fun hslash =>
      hother (String.toList_injective hslash)) _
  rw [route_eq_walk, hlead, split_append_slash, Route.walk_append]
  rfl

private theorem normalize_append_home {rest : String}
    (hrest : isAbsolute rest = false) :
    normalize (append home rest) = normalize (home ++ "/" ++ rest) := by
  rw [normalize_eq_render, normalize_eq_render (home ++ "/" ++ rest),
    route_append (isAbsolute_of_root hhome) hrest, route_concat_slash hhome hother]

/-- The names of the home directory come first in one of the two, and not at all in
the other. -/
theorem normalize_ne_of_downward {rest : String} (hrest : isAbsolute rest = true)
    (hdown : ".." ∉ Text.split '/' rest) (hroot : normalize home ≠ "/") :
    normalize rest ≠ normalize (home ++ "/" ++ rest) := by
  intro hsame
  have habsolute := isAbsolute_of_root hhome
  have hjoined : isAbsolute (home ++ "/" ++ rest) = true := by
    rw [String.append_assoc, isAbsolute_concat (ne_empty_of_isAbsolute habsolute),
      habsolute]
  have hroute : route rest = route (home ++ "/" ++ rest) := by
    rw [← route_normalize hrest, hsame, route_normalize hjoined]
  have hparts : (route home).parts = [] := by
    rw [route_concat_slash hhome hother, Route.walk_downward _ hdown, route_eq_walk,
      Route.walk_downward _ hdown] at hroute
    simpa using congrArg Route.parts hroute
  apply hroot
  calc normalize home
    _ = Route.render ⟨(route home).lead, (route home).parts⟩ :=
      normalize_eq_render home
    _ = Route.render ⟨.root, []⟩ := by
      rw [hparts, show (route home).lead = .root from hhome]
    _ = "/" := rfl

end

private theorem within_append {home : String} (hhome : isAbsolute home = true)
    {rest : String} (hrest : isAbsolute rest = false)
    (hdown : ".." ∉ Text.split '/' rest) :
    Within (normalize home) (normalize (append home rest)) := by
  have hjoined := isAbsolute_append hhome rest
  rw [within_iff (normal_normalize hhome) (normal_normalize hjoined),
    route_normalize hhome, route_normalize hjoined, route_append hhome hrest,
    Route.walk_downward _ hdown]
  exact ⟨rfl, List.prefix_append _ _⟩

/-- What follows a tilde and a slash is seen from the home directory, unless it
starts with a slash of its own. -/
theorem resolve_tilde_rest (rest workingDirectory : String) {home : String}
    (hhome : Lead.ofChars home.toList = .root) (hother : home ≠ "/") :
    (isAbsolute rest = false →
      resolve ("~/" ++ rest) workingDirectory home =
        normalize (home ++ "/" ++ rest) ∧
        (".." ∉ Text.split '/' rest →
          Within (normalize home) (resolve ("~/" ++ rest) workingDirectory home))) ∧
    (isAbsolute rest = true →
      resolve ("~/" ++ rest) workingDirectory home = normalize rest ∧
        (".." ∉ Text.split '/' rest → normalize home ≠ "/" →
          resolve ("~/" ++ rest) workingDirectory home ≠
            normalize (home ++ "/" ++ rest))) := by
  have habsolute := isAbsolute_of_root hhome
  rw [resolve_tilde_slash habsolute]
  constructor
  · intro hrest
    exact ⟨normalize_append_home hhome hother hrest, within_append habsolute hrest⟩
  · intro hrest
    rw [append_of_absolute hrest]
    exact ⟨rfl, normalize_ne_of_downward hhome hother hrest⟩

/-- The same names after one slash and after two. -/
theorem resolve_tilde_rest_twice :
    let home := "/home/ada/"
    Lead.ofChars home.toList = .root ∧ home ≠ "/" ∧
      resolve ("~/" ++ "./x") "/tmp" home = "/home/ada/x" ∧
      Within (normalize home) (resolve ("~/" ++ "./x") "/tmp" home) ∧
      resolve ("~/" ++ "/./x") "/tmp" home = "/x" := by
  intro home
  have hhome : Lead.ofChars home.toList = .root := by decide
  have hother : home ≠ "/" := by decide
  obtain ⟨hhere, hwithin⟩ :=
    (resolve_tilde_rest "./x" "/tmp" hhome hother).1 (by decide)
  obtain ⟨hthere, -⟩ := (resolve_tilde_rest "/./x" "/tmp" hhome hother).2 (by decide)
  exact ⟨hhome, hother, hhere.trans (by decide), hwithin (by decide),
    hthere.trans (by decide)⟩

theorem second_slash_leaves_home :
    ¬∀ rest workingDirectory home, isAbsolute workingDirectory = true →
      Lead.ofChars home.toList = .root → home ≠ "/" →
        resolve ("~/" ++ rest) workingDirectory home =
          normalize (home ++ "/" ++ rest) := by
  intro hlaw
  have hetc := hlaw "/etc" "/tmp" "/home/ada" (by decide) (by decide) (by decide)
  revert hetc
  decide

end PipeShell.Path
