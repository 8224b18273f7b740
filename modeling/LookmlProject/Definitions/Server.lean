import LookmlProject.Value.Access
import LookmlProject.Value.Whole

/-!
# Database servers

What it takes to log in to a database server, and the options of the connection.
-/

namespace LookmlProject.Definitions

/-- A kind of database server. -/
inductive Server where
  | mysql
  | postgres
deriving DecidableEq, Repr

/-- Where a database is and who logs in to it. -/
structure Credentials where
  host : Value
  port : Int
  username : Value
  password : Value
  database : Value

/-- The credentials in the settings. -/
def Credentials.ofSettings (settings : Value) : Except Fault Credentials := do
  let part ← settings.lookup "definitions"
  let host ← part.lookup "host"
  let port ← (← part.lookup "port").toWhole
  let database ← part.lookup "database"
  let username ← part.lookup "username"
  let password ← part.lookup "password"
  return ⟨host, port, username, password, database⟩

/-- The options with which a connection is opened. -/
def Server.options (server : Server) (c : Credentials) : Value.Fields :=
  match server with
  | .mysql => [("database", c.database), ("user", c.username), ("passwd", c.password),
      ("host", c.host), ("port", .int c.port), ("auth_plugin", .text "mysql_native_password")]
  | .postgres => [("dbname", c.database), ("user", c.username), ("password", c.password),
      ("host", c.host), ("port", .int c.port), ("sslmode", .text "require")]

end LookmlProject.Definitions
