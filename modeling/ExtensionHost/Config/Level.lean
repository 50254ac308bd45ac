import ExtensionHost.Event
import ExtensionHost.Number.Decimal
import ExtensionHost.Text.Blank

/-!
# `ExtensionHost.Config.Level`: levels and switches as texts

A level is written by its name in any case, or by its number, where one is
the gravest.
-/

set_option autoImplicit false

namespace ExtensionHost.Config

/-- The level that a text means. -/
def level? (text : String) : Option Level :=
  let text := Text.trim text
  match Number.size? text with
  | some (n + 1) => Level.all[n]?
  | some 0 => none
  | none => Level.all.find? fun level => Text.lower level.name = Text.lower text

/-- Whether a switch is on, if the text says so; the empty text says that
it is. -/
def switch? (text : String) : Option Bool :=
  let word := Text.lower (Text.trim text)
  if ["", "1", "true", "yes", "on"].contains word then some true
  else if ["0", "false", "no", "off"].contains word then some false
  else none

end ExtensionHost.Config
