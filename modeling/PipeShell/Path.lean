import PipeShell.Text.Layout

namespace PipeShell.Path

inductive Lead where
  | relative
  | root
  | doubleRoot
  deriving DecidableEq, Repr

def Lead.ofChars : List Char → Lead
  | '/' :: '/' :: '/' :: _ => .root
  | '/' :: '/' :: _ => .doubleRoot
  | '/' :: _ => .root
  | _ => .relative

def Lead.text : Lead → String
  | .relative => ""
  | .root => "/"
  | .doubleRoot => "//"

structure Route where
  lead : Lead
  parts : List String
  deriving DecidableEq, Repr

def Route.ofString (path : String) : Route :=
  ⟨.ofChars path.toList, Text.split '/' path⟩

def Route.push (lead : Lead) (kept : List String) (part : String) : List String :=
  if part = "" || part = "." then
    kept
  else if part = ".." then
    match kept with
    | [] => if lead = .relative then [".."] else []
    | last :: rest => if last = ".." then ".." :: last :: rest else rest
  else
    part :: kept

def Route.reduce (route : Route) : Route :=
  ⟨route.lead, (route.parts.foldl (Route.push route.lead) []).reverse⟩

def Route.render (route : Route) : String :=
  let text := route.lead.text ++ Text.join "/" route.parts
  if text = "" then "." else text

/-- The shortest spelling of a path, without looking at any file. -/
def normalize (path : String) : String :=
  (Route.ofString path).reduce.render

def isAbsolute (path : String) : Bool :=
  Text.startsWith path "/"

def gap (directory : String) : String :=
  if directory = "" ∨ directory.toList.getLast? = some '/' then "" else "/"

def append (directory path : String) : String :=
  if isAbsolute path then path else directory ++ gap directory ++ path

/-- The normal absolute form; relative paths start at the root. -/
def absolute (path : String) : String :=
  normalize (append "/" path)

/-- `~` and `~/…` stand for the home directory; other tildes are ordinary. -/
def expandHome (path home : String) : String :=
  match path.toList with
  | ['~'] => home
  | '~' :: '/' :: rest => append home (String.ofList rest)
  | _ => path

def resolve (path workingDirectory home : String) : String :=
  absolute (append workingDirectory (expandHome path home))

def withoutTrailingSlashes (path : String) : String :=
  String.ofList (path.toList.reverse.dropWhile (· = '/')).reverse

/-- The short form of an absolute path for the prompt: `~` for the home directory and
`~/…` for what lies under it. -/
def display (path home : String) : String :=
  let home := normalize home
  let full := normalize path
  if full = home then
    "~"
  else
    let above := withoutTrailingSlashes home ++ "/"
    if Text.startsWith full above then
      "~/" ++ String.ofList (full.toList.drop above.length)
    else
      full

/-- A leading `~` in a configured path stands for the user's home; names of users are
not known and stay. -/
def expandUser (path userHome : String) : String :=
  match path.toList with
  | ['~'] => if withoutTrailingSlashes userHome = "" then "/"
        else withoutTrailingSlashes userHome
  | '~' :: '/' :: rest =>
      withoutTrailingSlashes userHome ++ "/" ++ String.ofList rest
  | _ => path

end PipeShell.Path
