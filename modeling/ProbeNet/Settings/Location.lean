import ProbeNet.Settings.File
import ProbeNet.Settings.Override

/-!
# Finding and loading the settings

Where the settings file is, and what the settings are when the file and the
environment are taken together.  A file that is not there leaves the
defaults; variables of the environment win over the file.
-/

namespace ProbeNet

namespace Settings

/-- The variables of the environment, by name. -/
abbrev Environment := String → Option String

/-- Puts a relative path behind a directory.  A directory without a name
leaves the path as it is. -/
def joinPath (directory path : String) : String :=
  if directory.isEmpty then path
  else if directory.back = '/' then directory ++ path
  else directory ++ "/" ++ path

def filePath (env : Environment) : String :=
  match env "DINET_CONFIG" with
  | some path => path
  | none =>
    let directory :=
      match env "XDG_CONFIG_HOME" with
      | some path => path
      | none => joinPath ((env "HOME").getD "/tmp") ".config"
    joinPath (joinPath directory "dinet") "config.toml"

/-- What there is at a path. -/
inductive FileState where
  | missing
  | directory
  | file (content : ByteArray)

/-- Why settings cannot be loaded. -/
inductive LoadError where
  | unreadable
  | invalid
  | override (e : OverrideError)
  deriving DecidableEq, Repr

/-- The settings of a file, before the environment is looked at. -/
def ofFile : FileState → Except LoadError Settings
  | .missing => .ok {}
  | .directory => .error .unreadable
  | .file content =>
    match String.fromUTF8? content with
    | none => .error .unreadable
    | some text =>
      match ofText? text with
      | none => .error .invalid
      | some s => .ok s

def load (env : Environment) (state : FileState) : Except LoadError Settings := do
  let s ← ofFile state
  match applyOverrides env s with
  | (s, none) => .ok s
  | (_, some e) => .error (.override e)

/-- What is at the path of the settings after the defaults were written there,
unless there was something before. -/
def writeDefault : FileState → FileState
  | .missing => .file (render {}).toUTF8
  | state => state

end Settings

end ProbeNet
