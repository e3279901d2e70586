import Dialogue.Machine.Build
import Dialogue.Registry

/-!
The catalog: the compiled flows that conversations can be started on.

Every file of a folder whose name ends in `.json` is a flow under the name before that ending. A
file that does not load is left out. Flows are listed in the order of their names.
-/
namespace Dialogue

/-- What a name in a folder stands for. -/
inductive FileNode where
  | file (text : String)
  | folder

/-- A folder of files and folders; none stands for a folder that does not exist. -/
abbrev Folder := Option (Entries FileNode)

/-- Reads a file of a folder. -/
def Folder.read (f : Folder) (name : String) : Except FileError String :=
  match f with
  | none => .error .notFound
  | some nodes =>
    if name.isEmpty then .error .isFolder
    else
      match nodes.get? name with
      | some (.file text) => .ok text
      | some .folder => .error .isFolder
      | none => .error .notFound

/-- The document in a file. -/
def FlowDocument.ofFile (f : Folder) (name : String) : Except FlowError FlowDocument :=
  match f.read name with
  | .ok text => ofText text
  | .error e => .error (.unreadable e)

/-- Compiled flows by name, in the order of the names. -/
abbrev Catalog := Entries Machine

namespace Catalog

/-- What stands before the last point of a name that ends in `.json`; it may not be empty. -/
def flowName? (fileName : String) : Option String :=
  let back := fileName.toList.reverse
  let stem := (back.drop 5).reverse
  if back.take 5 = ['n', 'o', 's', 'j', '.'] ∧ stem ≠ [] then some (String.ofList stem) else none

/-- Flows in the order of their ids. -/
def sorted (flows : Entries Machine) : Catalog := flows.mergeSort fun a b => a.1 ≤ b.1

/-- The flow in a file, under its name. -/
def flowOf? (r : Registry) (f : Folder) (fileName : String) : Option (String × Machine) := do
  let name ← flowName? fileName
  let document ← (FlowDocument.ofFile f fileName).toOption
  let machine ← (Machine.build r.kinds document).toOption
  return (name, machine)

/-- Compiles the files of a folder. -/
def ofFolder (r : Registry) (f : Folder) : Catalog :=
  sorted ((f.getD []).keys.filterMap (flowOf? r f))

end Catalog

/-- What a list of flows says of one. -/
def Machine.summary (m : Machine) (id : String) : Json := .object [
  ("id", .string id), ("version", .string m.version), ("initialStep", .string m.initial),
  ("steps", .ofNat m.steps.length), ("diagnostics", .ofNat m.diagnostics.length)]

/-- What is told of all flows. -/
def Catalog.summaries (c : Catalog) : Json := .array (c.map fun (id, m) => m.summary id)

end Dialogue
