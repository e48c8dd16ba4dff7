import SignatureVeil.Failure
import SignatureVeil.Message

/-!
# Log records

Everything that is worth a line in the log, and the text of that line: a
level, some words, and the values that belong to them.
-/

namespace SignatureVeil

/-- A length of time in the largest unit in which it is not below one, with no
more decimal places than it needs.  It is given in milliseconds. -/
def durationText (milliseconds : Nat) : String :=
  if milliseconds = 0 then
    "0ns"
  else if milliseconds < 1000 then
    toString milliseconds ++ "ms"
  else
    let digits := Nat.toDigits 10 (1000 + milliseconds % 1000)
    let places := ((digits.drop 1).reverse.dropWhile (· = '0')).reverse
    toString (milliseconds / 1000) ++
      (if places.isEmpty then "" else "." ++ String.ofList places) ++ "s"

inductive LogRecord where
  | noDocument
  | otherLanguage (language : String)
  | handling (message : Message)
  | debounceScheduled (delay : Nat) (message : Message)
  | hidingDisabled
  | decorating (document count : Nat)
  | nothingToFold (document : Nat)
  | folding (document count : Nat)
  | activated
  | deactivated
  | failed (message : Message) (failure : Failure)
  | sectionRefused
  | fileRefused
  | defaultsNotWritten
  deriving DecidableEq, Repr

def LogRecord.text : LogRecord → String
  | .noDocument => "TRACE no active document"
  | .otherLanguage language =>
      "TRACE skipping non-target document language=" ++ language
  | .handling message =>
      "TRACE handling message message=" ++ message.label
  | .debounceScheduled delay message =>
      "TRACE debounce scheduled delay=" ++ durationText delay ++
        " message=" ++ message.label
  | .hidingDisabled => "DEBUG signature hiding disabled, style refreshed only"
  | .decorating document count =>
      "DEBUG decorating signatures document=" ++ toString document ++
        " count=" ++ toString count
  | .nothingToFold document =>
      "DEBUG no signatures to fold document=" ++ toString document
  | .folding document count =>
      "DEBUG folding signatures document=" ++ toString document ++
        " count=" ++ toString count
  | .activated => "INFO signature hider activated"
  | .deactivated => "INFO signature hider deactivated"
  | .failed message failure =>
      "ERROR Failed to handle " ++ message.label ++ ": " ++ failure.message
  | .sectionRefused => "WARN Failed to parse byesig settings"
  | .fileRefused => "WARN Failed to parse file"
  | .defaultsNotWritten => "DEBUG Could not write default settings"

end SignatureVeil
