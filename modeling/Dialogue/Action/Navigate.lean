import Dialogue.Action.Definition
import Dialogue.Template
import Dialogue.Work.Basic

/-!
The action `navigation`: a wish to show another place, handed to whoever draws the conversation.
-/
namespace Dialogue

namespace Navigation

/-- What is read so far. -/
structure Draft where
  url : Option String := none
  target : Option String := none

open Decode in
/-- Decodes a configuration; the target `_blank` opens the place beside the current one. -/
def decode : Decoder Navigation :=
  record "NavigationInput" [
    slot "url" .required string (fun a (d : Draft) => { d with url := some a }),
    slot "target" .defaulted (option string) (fun a d => { d with target := a })]
    {} fun d => do .ok ⟨← need "url" d.url, d.target = some "_blank"⟩

/-- With the URL filled in. -/
def fillIn (scope : Json) (n : Navigation) : Navigation :=
  { n with url := Template.interpolatePaths n.url scope }

/-- The result of a navigation that was refused with a message, or was not. -/
def resultOf : Except String Unit → ActionResult
  | .ok () => .done none
  | .error reason => .failure reason

/-- Sends the client to a page. -/
def run (config scope : Json) : Work ActionResult :=
  match decode config with
  | .error e => .done (.failure ("Invalid navigation config: " ++ e.message))
  | .ok n => .ask (.navigate (n.fillIn scope)) fun accepted => .done (resultOf accepted)

end Navigation

end Dialogue
