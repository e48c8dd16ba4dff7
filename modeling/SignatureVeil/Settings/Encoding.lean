import SignatureVeil.Json.Printer
import SignatureVeil.Settings.Basic

/-!
# Settings as JSON

Settings are written in two forms.  The value form is a JSON object, whose
opacity is widened to 64 bits; it is what a settings file holds.  The direct
form is a text in which the settings stand in a fixed order and the opacity
has the shortest digits that its own 32 bits need.  An opacity that is not
finite has no JSON number and is written as null.
-/

namespace SignatureVeil

namespace Settings

def opacityValue (opacity : Single) : Json :=
  if opacity.isFinite then
    .number (.float (opacity.convert .double))
  else
    .null

def toJson (settings : Settings) : Json :=
  .object [
    ("backgroundColor", .string settings.backgroundColor),
    ("enabled", .bool settings.enabled),
    ("opacity", opacityValue settings.opacity)]

def writeOpacity (opacity : Single) : List Char :=
  if opacity.isFinite then
    FloatLayout.single.writeFinite opacity
  else
    Json.writeNull

def write (settings : Settings) : List Char :=
  '{' :: (Json.writeString "enabled" ++
    ':' :: (Json.writeBool settings.enabled ++
    ',' :: (Json.writeString "opacity" ++
    ':' :: (writeOpacity settings.opacity ++
    ',' :: (Json.writeString "backgroundColor" ++
    ':' :: (Json.writeString settings.backgroundColor ++ ['}']))))))

def toText (settings : Settings) : String :=
  .ofList settings.write

end Settings

end SignatureVeil
