import TaxonomyPress.Settings
import TaxonomyPress.Toml.Parser

/-!
# Settings documents

* `SettingsError` : why a document is no settings document;
* `Settings.ofDocument` : the settings that a TOML document gives. A key that it does not give keeps
  its default; an unknown key or a value of another shape is an error.
-/

namespace TaxonomyPress

inductive SettingsError where
  | notToml
  | unknownKey (key : String)
  | wrongShape (key : String)
deriving DecidableEq

def SettingsError.message : SettingsError → String
  | notToml => "invalid settings"
  | unknownKey _ => "invalid settings"
  | wrongShape _ => "invalid settings"

/-- A text. -/
def Toml.asText : Toml → Option String
  | .text value => some value
  | _ => none

/-- A list of texts. -/
def Toml.asTexts : Toml → Option (List String)
  | .list items => items.mapM Toml.asText
  | _ => none

/-- The key under which a moment stands where a table is asked for. -/
def momentKey : String := "$__toml_private_datetime"

/-- A table of texts. A moment is a table with its text alone. -/
def Toml.asTextTable : Toml → Option (List (String × String))
  | .moment value => some [(momentKey, value.text)]
  | .table _ entries => entries.mapM fun (key, value) => value.asText.map (key, ·)
  | _ => none

namespace Settings

/-- The settings with the value of one key. -/
def withEntry (settings : Settings) (key : String) (value : Toml) :
    Except SettingsError Settings :=
  let fill {α : Type} (given : Option α) (set : α → Settings) : Except SettingsError Settings :=
    match given with
    | some a => .ok (set a)
    | none => .error (.wrongShape key)
  match key with
  | "flat_definition_classes" =>
    fill value.asTexts fun names => { settings with flatDefinitionClasses := nameSet names }
  | "excluded_classes" =>
    fill value.asTexts fun names => { settings with excludedClasses := nameSet names }
  | "namespaces" =>
    fill value.asTextTable fun table => { settings with namespaces := .ofList table }
  | "base_url" => fill value.asText fun url => { settings with baseUrl := url }
  | "version" => fill value.asText fun version => { settings with version := version }
  | _ => .error (.unknownKey key)

/-- The settings that a TOML document gives. -/
def ofDocument (document : String) : Except SettingsError Settings :=
  match Toml.parse document with
  | none => .error .notToml
  | some entries => entries.foldlM (fun settings (key, value) => settings.withEntry key value) {}

end Settings

end TaxonomyPress
