import SignatureVeil.Text.Hidden

/-!
# Quoted text

A text in a message stands between quotes.  Quotes and backslashes in it get a
backslash, the common control characters get the usual letters, and other
characters without a visible form are written by their code point in
hexadecimal digits, between braces.
-/

namespace SignatureVeil

/-- One character as it stands between quotes. -/
def quoteCharacter (character : Char) : List Char :=
  match character with
  | '"' => ['\\', '"']
  | '\\' => ['\\', '\\']
  | '\x00' => ['\\', '0']
  | '\t' => ['\\', 't']
  | '\n' => ['\\', 'n']
  | '\r' => ['\\', 'r']
  | _ =>
      if isHidden character then
        '\\' :: 'u' :: '{' :: (Nat.toDigits 16 character.toNat ++ ['}'])
      else
        [character]

def quote (text : String) : String :=
  .ofList ('"' :: (text.toList.flatMap quoteCharacter ++ ['"']))

end SignatureVeil
