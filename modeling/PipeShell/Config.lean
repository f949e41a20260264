import PipeShell.Journal

namespace PipeShell

namespace Config

inductive Section where
  | paths
  | history
  | logging
  | completion
  | commands
  deriving DecidableEq, Repr

inductive Setting where
  | homeDirectory
  | workingDirectory
  | maxHistory
  | ignoreDuplicates
  | logLevel
  | logFile
  | logConsole
  | logColours
  | logCapacity
  | showHidden
  | maxCandidates
  | registerBuiltins
  | disabled
  deriving DecidableEq, Repr

namespace Section

def all : List Section := [.paths, .history, .logging, .completion, .commands]

def name : Section → String
  | .paths => "paths"
  | .history => "history"
  | .logging => "logging"
  | .completion => "completion"
  | .commands => "commands"

def ofName? (name : String) : Option Section :=
  all.find? (·.name = name)

def settings : Section → List Setting
  | .paths => [.homeDirectory, .workingDirectory]
  | .history => [.maxHistory, .ignoreDuplicates]
  | .logging => [.logLevel, .logFile, .logConsole, .logColours, .logCapacity]
  | .completion => [.showHidden, .maxCandidates]
  | .commands => [.registerBuiltins, .disabled]

end Section

namespace Setting

def name : Setting → String
  | .homeDirectory => "home_directory"
  | .workingDirectory => "working_directory"
  | .maxHistory => "max_size"
  | .ignoreDuplicates => "ignore_consecutive_duplicates"
  | .logLevel => "level"
  | .logFile => "log_file"
  | .logConsole => "console_output"
  | .logColours => "use_colors"
  | .logCapacity => "buffer_size"
  | .showHidden => "show_hidden_files"
  | .maxCandidates => "max_candidates"
  | .registerBuiltins => "register_builtins"
  | .disabled => "disabled"

def default : Setting → Json
  | .homeDirectory => .null
  | .workingDirectory => .null
  | .maxHistory => .int 1000
  | .ignoreDuplicates => .bool true
  | .logLevel => .text "WARNING"
  | .logFile => .null
  | .logConsole => .bool false
  | .logColours => .bool true
  | .logCapacity => .int 1000
  | .showHidden => .bool true
  | .maxCandidates => .int 0
  | .registerBuiltins => .bool true
  | .disabled => .list []

end Setting

def Section.setting? (part : Section) (name : String) : Option Setting :=
  part.settings.find? (·.name = name)

end Config

structure Config where
  get : Config.Setting → Json

namespace Config

def default : Config := ⟨Setting.default⟩

def set (config : Config) (setting : Setting) (value : Json) : Config :=
  ⟨fun other => if other = setting then value else config.get other⟩

@[simp] theorem get_set_self (config : Config) (setting : Setting) (value : Json) :
    (config.set setting value).get setting = value := by
  simp [set]

theorem get_set_of_ne (config : Config) {setting other : Setting} (value : Json)
    (h : other ≠ setting) :
    (config.set setting value).get other = config.get other := by
  simp [set, h]

inductive Defect where
  | notObject
  | unknownSection (name : String)
  | sectionNotObject (name : String)
  | unknownKey (key : String)
  | notCount (key : String) (least : Int)
  | badLevel (shown : String)
  | badDisabled (key : String)
  | invalidKey (key : String)
  | fileMissing (path : String)
  | malformed (report : String)
  deriving DecidableEq, Repr

namespace Defect

def message : Defect → String
  | .notObject => "Configuration root must be a JSON object"
  | .unknownSection name => "Unknown configuration section: " ++ name
  | .sectionNotObject name => "Section '" ++ name ++ "' must be an object"
  | .unknownKey key => "Unknown configuration key: " ++ key
  | .notCount key least =>
      key ++ " must be " ++ (if least = 0 then "a non-negative" else "a positive") ++
        " integer"
  | .badLevel shown => Journal.Level.unknownMessage shown
  | .badDisabled key => key ++ " must be a list of command names"
  | .invalidKey key => "Invalid configuration key: " ++ key
  | .fileMissing path => "Configuration file not found: " ++ path
  | .malformed report => "Invalid JSON in configuration file: " ++ report

def key? : Defect → Option String
  | .unknownSection name => some name
  | .sectionNotObject name => some name
  | .unknownKey key => some key
  | .notCount key _ => some key
  | .badLevel _ => some "logging.level"
  | .badDisabled key => some key
  | .invalidKey key => some key
  | _ => none

def toFailure (defect : Defect) : Failure :=
  .config defect.message defect.key?

end Defect

def isCount (least : Int) : Json → Bool
  | .int n => least ≤ n
  | _ => false

/-- The counts among the settings, with their keys and least values. -/
def counts : List (Setting × String × Int) :=
  [ (.maxHistory, "history.max_size", 0),
    (.logCapacity, "logging.buffer_size", 1),
    (.maxCandidates, "completion.max_candidates", 0) ]

def isNameList : Json → Bool
  | .list items => items.all fun
      | .text _ => true
      | _ => false
  | _ => false

def badCount? (config : Config) : Option Defect :=
  (counts.find? fun (setting, _, least) => !isCount least (config.get setting)).map
    fun (_, key, least) => .notCount key least

def defect? (config : Config) : Option Defect :=
  match config.badCount? with
  | some defect => some defect
  | none =>
      let level := (config.get .logLevel).display
      if (Journal.Level.ofName? level).isNone then some (.badLevel level)
      else if !isNameList (config.get .disabled) then
        some (.badDisabled "commands.disabled")
      else none

def validate (config : Config) : Except Defect Unit :=
  match config.defect? with
  | some defect => .error defect
  | none => .ok ()

def loadFields (part : Section) (config : Config) : Table Json → Config
  | [] => config
  | (name, value) :: rest =>
      match part.setting? name with
      | some setting => loadFields part (config.set setting value) rest
      | none => loadFields part config rest

/-- The settings of one section. All names are checked before any is set. -/
def loadSection (part : Section) (config : Config) (fields : Table Json) :
    Except Defect Config :=
  match fields.find? fun (name, _) => (part.setting? name).isNone with
  | some (name, _) => .error (.unknownKey (part.name ++ "." ++ name))
  | none => .ok (loadFields part config fields)

def loadSections (config : Config) : Table Json → Except Defect Config
  | [] => .ok config
  | (name, value) :: rest =>
      match Section.ofName? name with
      | none => .error (.unknownSection name)
      | some part =>
          match value with
          | .object fields =>
              match loadSection part config fields with
              | .error defect => .error defect
              | .ok config => loadSections config rest
          | _ => .error (.sectionNotObject name)

/-- The defaults with the given settings in place of some. -/
def ofJson (data : Json) : Except Defect Config :=
  match data with
  | .object fields => do
      let config ← loadSections default fields
      validate config
      return config
  | _ => .error .notObject

def sectionJson (config : Config) (part : Section) : Json :=
  .object (part.settings.map fun setting => (setting.name, config.get setting))

def toJson (config : Config) : Json :=
  .object (Section.all.map fun part => (part.name, config.sectionJson part))

/-- The setting that a key such as `history.max_size` names. -/
def settingAt (key : String) : Except Defect Setting :=
  match Text.cutChars '.' key.toList with
  | (_, none) => .error (.invalidKey key)
  | (part, some name) =>
      match (Section.ofName? (String.ofList part)).bind
        (·.setting? (String.ofList name)) with
      | some setting => .ok setting
      | none => .error (.invalidKey key)

def lookup? (config : Config) (key : String) : Option Json :=
  if Text.contains key '.' then
    match settingAt key with
    | .ok setting => some (config.get setting)
    | .error _ => none
  else (Section.ofName? key).map config.sectionJson

def notPath : Fault := .mistyped "a path is expected"

/-- The home directory; the user's own unless another is set. -/
def home (config : Config) (userHome : String) : Except Fault String :=
  match config.get .homeDirectory with
  | .text path =>
      .ok (Path.absolute (Path.expandUser (if path = "" then "~"
        else path) userHome))
  | other =>
      if other.truthy then .error notPath
      else .ok (Path.absolute (Path.expandUser "~" userHome))

/-- The directory to start in; the home directory unless another is set. -/
def startDirectory (config : Config) (userHome : String) : Except Fault String :=
  match config.get .workingDirectory with
  | .null => config.home userHome
  | .text path => .ok (Path.absolute (Path.expandUser path userHome))
  | _ => .error notPath

end Config

end PipeShell
