import Courier.Settings.Basic
import Courier.Settings.Variable
import Courier.Toml.Document

/-! # Loading settings — defaults, a file, and the environment

    Each layer counts more than the one before: the defaults, then the
    file if there is one, then the variables of the environment. -/

namespace Courier.Settings

/-- The name of the file with settings. -/
def fileName : String := "config.toml"

/-- The reason given for a file that is no document. -/
def notADocument : String := "TOML parse error"

/-- The layer of a file; no file is an empty layer. -/
def fileLayer : Option String → Except SettingsError SettingTree
  | none => .ok (.table [])
  | some document =>
    match Toml.parse? document with
    | some t => .ok t
    | none => .error (.unreadable ⟨[], .badValue notADocument⟩)

/-- The three layers on top of each other. -/
def layers (file : SettingTree) (environment : List (String × String)) : SettingTree :=
  ((({} : Settings).toTree).merge file).merge (Variable.layer environment)

/-- The settings that a tree shows. -/
def ofTree (t : SettingTree) : Except SettingsError Settings :=
  (shape.read {} t).mapError .unreadable

/-- Loads the settings, and refuses invalid ones. -/
def load (file : Option String) (environment : List (String × String)) :
    Except SettingsError Settings :=
  match fileLayer file with
  | .error e => .error e
  | .ok layer =>
    match ofTree (layers layer environment) with
    | .error e => .error e
    | .ok settings => settings.validate

end Courier.Settings
