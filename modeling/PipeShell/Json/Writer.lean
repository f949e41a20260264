import PipeShell.Json.Basic

namespace PipeShell.Json

def numberNames : Number.Binary64.SpecialNames := ⟨"NaN", "Infinity"⟩

def escapedChar (c : Char) : List Char :=
  if c = '"' then ['\\', '"']
  else if c = '\\' then ['\\', '\\']
  else if c = '\n' then ['\\', 'n']
  else if c = '\r' then ['\\', 'r']
  else if c = '\t' then ['\\', 't']
  else if c.toNat < 0x20 || c.toNat = 0x7F then
    '\\' :: 'u' :: Text.hexDigits 4 c.toNat
  else [c]

def renderText (text : String) : String :=
  "\"" ++ String.ofList (text.toList.flatMap escapedChar) ++ "\""

mutual

def render : Json → String
  | .null => "null"
  | .bool b => if b then "true" else "false"
  | .int n => intText n
  | .real x => x.textWith numberNames
  | .text s => renderText s
  | .list items => "[" ++ Text.join "," (renderItems items) ++ "]"
  | .object fields => "\x7b" ++ Text.join "," (renderFields fields) ++ "\x7d"

def renderItems : List Json → List String
  | [] => []
  | item :: rest => render item :: renderItems rest

def renderFields : List (String × Json) → List String
  | [] => []
  | (key, value) :: rest =>
      (renderText key ++ ":" ++ render value) :: renderFields rest

end

end PipeShell.Json
