import CoroutineVM.Chunk.Format
import CoroutineVM.Digest.Sha256

/-!
The fingerprint of a chunk: the digest of its canonical text, so that the layout of the text it was
read from does not show in it.
-/

namespace CoroutineVM.Chunk

/-- The hash of the canonical text, by which a chunk is told from others. -/
def fingerprint (chunk : Chunk) : String :=
  Digest.sha256 chunk.canonicalText.toUTF8.toList

end CoroutineVM.Chunk
