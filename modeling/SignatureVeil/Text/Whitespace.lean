/-!
# White space at the ends of a text

White space is what Unicode calls so: the ASCII white space with the vertical
tab and the form feed, the next-line character, the spaces of all widths, and
the line and paragraph separators.
-/

namespace SignatureVeil

/-- The code points of white space, as inclusive ranges. -/
def whitespaceRanges : List (Nat × Nat) :=
  [(0x9, 0xD), (0x20, 0x20), (0x85, 0x85), (0xA0, 0xA0), (0x1680, 0x1680),
    (0x2000, 0x200A), (0x2028, 0x2029), (0x202F, 0x202F), (0x205F, 0x205F),
    (0x3000, 0x3000)]

def isWhitespace (character : Char) : Bool :=
  whitespaceRanges.any fun range =>
    range.1 ≤ character.toNat && character.toNat ≤ range.2

/-- A text without the white space at its two ends. -/
def trimWhitespace (text : List Char) : List Char :=
  ((text.dropWhile isWhitespace).reverse.dropWhile isWhitespace).reverse

end SignatureVeil
