import TemplateBar.Dict

/-!
# Translations

Texts by key: configured entries first, then the texts that the settings panel comes with, then
the key itself.
-/
namespace TemplateBar

/-- The configured texts. -/
abbrev Translations := Dict String

namespace Translations

def panelTexts : List (String × String) :=
  [("settings.title", "Settings"), ("settings.app_settings", "App Settings"),
    ("settings.log_out", "Log Out"), ("settings.sleep", "Sleep"),
    ("settings.restart", "Restart"), ("settings.shutdown", "Shut Down")]

def translate (t : Translations) (key : String) : String :=
  ((Dict.get? t key).or (Dict.get? panelTexts key)).getD key

end Translations
end TemplateBar
