import PipeShell.Channel.Newline
import PipeShell.Config
import PipeShell.Json.Reader

namespace PipeShell.Config

structure Loader where
  config : Config
  loaded : Bool

namespace Loader

def new : Loader := ⟨Config.default, false⟩

def given (config : Config) : Loader := ⟨config, true⟩

def failing {α : Type} : Except Defect α → Except Fault α
  | .ok value => .ok value
  | .error defect => .error (.failure defect.toFailure)

def loadData (data : Json) : Except Fault Loader :=
  (failing (Config.ofJson data)).map given

/-- The file that a path names when empty parts and dots are left out of it. -/
def findFile (files : FileTree) (path : String) : Except Fault (List String) :=
  if FileTree.hasZero path then .error (.failure (Defect.fileMissing path).toFailure)
  else
    match files.openForReading (FileTree.plainRoute path).render with
    | .ok names => .ok names
    | .error .nameTooLong => .error (.storage .nameTooLong)
    | .error _ => .error (.failure (Defect.fileMissing path).toFailure)

def parseText (text : List Char) : Except Fault Json :=
  match Json.parse text with
  | .ok data => .ok data
  | .error (.tooLong digits) => .error (.badValue (Number.tooLongMessage digits))
  | .error fault =>
      .error (.failure (Defect.malformed (fault.message text)).toFailure)

def loadFile (files : FileTree) (path : String) : Except Fault Loader := do
  let names ← findFile files path
  match Text.Utf8.decode (files.content names) with
  | .error fault => throw (.undecodable fault)
  | .ok text => loadData (← parseText (Channel.unifyNewlines text))

/-- Writes a setting. Where the settings are not valid then, the earlier value is
written back. -/
def assign (loader : Loader) (key : String) (value : Json) :
    Except Defect Unit × Loader :=
  match settingAt key with
  | .error defect => (.error defect, loader)
  | .ok setting =>
      let earlier := loader.config.get setting
      let written := { loader with config := loader.config.set setting value }
      match written.config.validate with
      | .ok () => (.ok (), written)
      | .error defect =>
          (.error defect, { written with
            config := written.config.set setting earlier })

def set (loader : Loader) (key : String) (value : Json) : Except Fault Loader :=
  let (outcome, loader) := loader.assign key value
  (failing outcome).map fun () => loader

end Loader

end PipeShell.Config
