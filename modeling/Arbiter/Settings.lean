import Arbiter.Form

/-! # Settings

Settings are read from the environment: each has a variable of its own, and a value for when the
variable is not set.
-/

namespace Arbiter

/-- Where games are kept, and how much is reported while running. -/
structure Settings where
  databaseUrl : String := "sqlite:///:memory:"
  logLevel : String := "INFO"
  echoSql : Bool := false
deriving Repr, DecidableEq, Inhabited

namespace Settings

/-- Reads the settings from the variables of an environment. -/
def ofEnvironment (env : List (String × String)) : Except (List Form.Fault) Settings :=
  let absent : Settings := {}
  let databaseUrl := (env.lookup "CHESS_DATABASE_URL").getD absent.databaseUrl
  let logLevel := (env.lookup "CHESS_LOG_LEVEL").getD absent.logLevel
  match env.lookup "CHESS_ECHO_SQL" with
  | none => .ok { databaseUrl, logLevel }
  | some word =>
    match Form.Value.flagOfWord word with
    | .ok echoSql => .ok { databaseUrl, logLevel, echoSql }
    | .error defect => .error [⟨["echo_sql"], defect⟩]

end Settings
end Arbiter
