import Dialogue.Clock.Duration
import Dialogue.Rule.Basic

/-!
Settings of the server, from named variables.

A number that cannot be read counts as not given.
-/
namespace Dialogue

/-- The settings of a server. -/
structure Settings where
  serverPort : Nat := 8000
  /-- The folder of flow documents. -/
  flowsDir : String := "./flows"
  /-- The file of the durable store. -/
  dbPath : String
  autoAdvanceDelay : Duration := .ofMillis 1500
  /-- The longest that sources of choices are waited for. -/
  httpTimeout : Duration := .ofSeconds 30
  /-- How long a completed conversation stays. -/
  completedRetention : Duration := .ofSeconds 600
  deriving DecidableEq, Repr

namespace Settings

/-- A name within a folder. -/
def within (folder name : String) : String :=
  if folder.isEmpty || folder.endsWith "/" then folder ++ name else folder ++ "/" ++ name

/-- The file of the durable store below a home folder. -/
def defaultDbPath (home : String) : String := within (within home ".chatflow") "storage.db"

/-- The natural number below `bound` that a text denotes, blanks around it aside. -/
def number? (bound : Nat) (text : String) : Option Nat :=
  (Decimal.natural64? (Text.trimChars text.toList)).filter (· < bound)

/-- The settings that variables give. -/
def ofLookup (lookup : String → Option String) : Settings :=
  let number (name : String) : Option Nat := (lookup name).bind (number? unsignedLimit)
  let defaults : Settings :=
    { dbPath := (lookup "CHATFLOW_DB_PATH").getD (defaultDbPath ((lookup "HOME").getD "/tmp")) }
  { defaults with
    serverPort :=
      ((lookup "CHATFLOW_PORT").bind (number? 65536)).getD defaults.serverPort
    flowsDir := (lookup "CHATFLOW_FLOWS_DIR").getD defaults.flowsDir
    autoAdvanceDelay :=
      ((number "CHATFLOW_AUTO_ADVANCE_MS").map .ofMillis).getD defaults.autoAdvanceDelay
    httpTimeout := ((number "CHATFLOW_HTTP_TIMEOUT_SECS").map .ofSeconds).getD defaults.httpTimeout
    completedRetention :=
      ((number "CHATFLOW_COMPLETED_RETENTION_SECS").map .ofSeconds).getD
        defaults.completedRetention }

end Settings

end Dialogue
