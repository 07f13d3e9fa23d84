import Courier.Settings.Tree

/-! # Settings that cannot be used -/

namespace Courier

/-- Why a value of the layers was not read. -/
inductive SettingCause where
  /-- The value is of another kind than the setting. -/
  | wrongKind (found : SettingTree) (wanted : String)
  /-- The number is too small or too great for the setting. -/
  | outOfRange (found : SettingTree) (wanted : String)
  | unknownKey (key : String) (known : List String)
  | badValue (reason : String)

/-- The cause in words. -/
def SettingCause.message : SettingCause → String
  | wrongKind found wanted => "invalid type: found " ++ found.shown ++ ", expected " ++ wanted
  | outOfRange found wanted => "invalid value " ++ found.shown ++ ", expected " ++ wanted
  | unknownKey key known =>
    let names := known.map fun k => "\x60" ++ k ++ "\x60"
    "unknown field: found \x60" ++ key ++ "\x60, expected \x60one of "
      ++ String.intercalate ", " names ++ "\x60"
  | badValue reason => reason

/-- A value that was not read: where it stands, and why. -/
structure SettingFault where
  path : List String
  cause : SettingCause

/-- The fault seen from the table around. -/
def SettingFault.under (key : String) (f : SettingFault) : SettingFault :=
  { f with path := key :: f.path }

/-- Why there are no settings to work with. -/
inductive SettingsError where
  /-- The layers do not fit the settings. -/
  | unreadable (fault : SettingFault)
  /-- The settings contradict what the program needs. -/
  | invalid (reason : String)

/-- The failure in words. -/
def SettingsError.message : SettingsError → String
  | unreadable fault => "failed to extract configuration: " ++ fault.cause.message
  | invalid reason => "invalid configuration: " ++ reason

end Courier
