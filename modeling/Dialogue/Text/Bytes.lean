/-!
The bytes of a text in UTF-8.
-/
namespace Dialogue.Text

/-- The number of bytes of a text. -/
def byteCount (cs : List Char) : Nat := cs.foldl (fun n c => n + c.utf8Size) 0

end Dialogue.Text
