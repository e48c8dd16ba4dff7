import SignatureVeil.LineIndex
import SignatureVeil.Signature.Matcher

/-!
# Signatures as editor ranges

The regions of a text, first all blocks and then all inline signatures, with
their byte offsets mapped to editor positions.
-/

namespace SignatureVeil

namespace Signature

/-- The editor ranges of all signatures in a text, blocks first. -/
def ranges (text : String) : List Range :=
  let index := LineIndex.ofText text
  Kind.all.flatMap fun kind =>
    (regions kind text).map fun region => index.range region.start region.stop

end Signature

end SignatureVeil
