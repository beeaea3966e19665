import Gatehouse.Sql.Database

/-!
# Gatehouse.Sql.Layout — the tables of a database

The names of the tables and of their columns, in the order in which rows are written and read, and
the statements that create what does not exist yet.

The constraints are those that the store in memory has as well: a key for policies, an id for
clients and for groups, one secret for one client, and a parent that exists.  They are what makes a
database refuse a row that the store in memory would refuse, and the codes of those refusals are
what `Gatehouse.Sql.Store` goes by.  Creating what exists is no error, so a migration may be
repeated.
-/

namespace Gatehouse.Sql.Layout

/-- The table of policies. -/
def policies : String := "policies"

/-- The table of clients. -/
def clients : String := "clients"

/-- The table of groups. -/
def groups : String := "groups"

/-- The table of the event log. -/
def eventLog : String := "event_log"

/-- The columns of a policy. -/
def policyColumns : List String :=
  ["owner_id", "subject", "object", "actions", "created_at", "updated_at", "updated_by"]

/-- The columns of a client. -/
def clientColumns : List String :=
  ["id", "name", "owner_id", "secret", "status", "created_at", "updated_at"]

/-- The columns of a group. -/
def groupColumns : List String :=
  ["id", "name", "description", "owner_id", "parent_id", "status", "created_at", "updated_at"]

/-- A column that holds a time, which is the present one if nothing else is said. -/
def timeColumn (name : String) : String := name ++ " TIMESTAMPTZ NOT NULL DEFAULT now()"

/-- A column that holds a text, with the one it holds if nothing else is said. -/
def textColumn (name dflt : String) : String := name ++ " TEXT NOT NULL DEFAULT '" ++ dflt ++ "'"

/-- A column that holds a text which must be given. -/
def requiredColumn (name : String) : String := name ++ " TEXT NOT NULL"

/-- Creates the tables and indexes of a store. -/
def storeTables : List Statement :=
  [.createTable clients
     ["id TEXT PRIMARY KEY", textColumn "name" "", requiredColumn "owner_id",
      requiredColumn "secret" ++ " UNIQUE", textColumn "status" "enabled",
      timeColumn "created_at", timeColumn "updated_at"],
   .createTable groups
     ["id TEXT PRIMARY KEY", textColumn "name" "", textColumn "description" "",
      requiredColumn "owner_id", "parent_id TEXT REFERENCES groups(id) ON DELETE CASCADE",
      textColumn "status" "enabled", timeColumn "created_at", timeColumn "updated_at"],
   .createTable policies
     [requiredColumn "owner_id", requiredColumn "subject", requiredColumn "object",
      "actions TEXT[] NOT NULL", timeColumn "created_at", timeColumn "updated_at",
      textColumn "updated_by" "", "PRIMARY KEY (subject, object)"],
   .createIndex "idx_policies_object" policies ["object"],
   .createIndex "idx_policies_owner" policies ["owner_id"],
   .createIndex "idx_groups_parent" groups ["parent_id"]]

/-- Creates the table and the index of the event log. -/
def eventTables : List Statement :=
  [.createTable eventLog
     ["seq BIGSERIAL PRIMARY KEY", requiredColumn "stream", requiredColumn "payload",
      timeColumn "appended_at"],
   .createIndex "idx_event_log_stream" eventLog ["stream", "seq"]]

/-- Executes statements one after another, up to the first that fails. -/
def migrate : List Statement → Query Unit
  | [] => return ()
  | s :: rest => do
    let _ ← Query.execute s []
    migrate rest

end Gatehouse.Sql.Layout
