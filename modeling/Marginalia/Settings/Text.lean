import Marginalia.Document.Reading
import Marginalia.Document.Yaml
import Marginalia.Settings.Document

/-! Settings as text. -/

namespace Marginalia

def Settings.ofText (text : String) : Except Fault (Settings Float) := do
  Settings.ofValue (← orMalformed (Document.Value.ofText? text))

def Policy.ofText (text : String) : Except Fault Policy := do
  Policy.ofValue (← orMalformed (Document.Value.ofText? text))

def Settings.text (settings : Settings Float) : String := Document.Yaml.render settings.toValue

end Marginalia
