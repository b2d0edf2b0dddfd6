/-!
# The tail of a stream

The last characters of a growing text, kept for failure reports.
-/

namespace Montage.Engine

/-- The last `limit` characters of a text (`StderrTail`). -/
structure Tail where
  limit : Nat
  text : List Char := []

namespace Tail

/-- Appends a piece of text and drops the oldest characters beyond the limit (`StderrTail.push`). -/
def push (tail : Tail) (piece : List Char) : Tail :=
  let text := tail.text ++ piece
  { tail with text := text.drop (text.length - tail.limit) }

end Tail

end Montage.Engine
