import Mathlib.Logic.Function.Basic
import Anticheat.Foundation.PyJson

/-!
# The server's database

The class {lit}`Store` of {lit}`ac_server.py`: a table of reports, to which rows are only
added, and a table of bans with one row for each client id.  A statement is one
transaction, so that it takes effect as a whole or not at all.

A statement whose parameters cannot be bound raises an exception before it runs: SQLite
takes text that UTF-8 can encode, integers of 64 bits, floating-point numbers and NULL.
-/

namespace Anticheat

open Foundation

/-- A row of the table `reports`; its id is its position. -/
structure ReportRow where
  clientId : PyStr
  eventType : PyStr
  detail : PyStr
  clientTs : PyVal
  receivedAt : Int
  sourceAddr : PyStr

/-- A row of the table `bans`, without its key. -/
structure BanRow where
  reason : PyStr
  bannedAt : Int
deriving DecidableEq

structure Store where
  reports : List ReportRow
  bans : PyStr → Option BanRow

/-- A new database. -/
def Store.empty : Store where
  reports := []
  bans := fun _ => none

/-- A response, as `_send_json` is called for it. -/
structure Response where
  code : Nat
  obj : PyVal
  extraHeaders : List (PyStr × PyStr) := []

def Response.error (code : Nat) (message : String) : Response where
  code := code
  obj := .dict [(PyStr.ofString "error", .str (PyStr.ofString message))]

/-! ## The statements -/

/-- A call of one of the methods of `Store`. -/
inductive DbOp where
  | addReport (clientId eventType detail : PyStr) (clientTs : PyVal) (sourceAddr : PyStr)
  | listReports (clientId : PyStr)
  | ban (clientId reason : PyStr)
  | unban (clientId : PyStr)
  | banStatus (clientId : PyStr)

/-- `add_report` -/
def Store.addReport (s : Store) (clientId eventType detail : PyStr) (clientTs : PyVal)
    (sourceAddr : PyStr) (now : Int) : Store :=
  { s with reports := s.reports ++ [⟨clientId, eventType, detail, clientTs, now, sourceAddr⟩] }

/-- What a column of type INTEGER gives back for a value that was bound to it.  SQLite keeps
a `bool` as an integer and NaN as NULL; a `float` without a fraction it keeps as an integer,
which shows only in how it is written. -/
def columnInteger : PyVal → PyVal
  | .bool b => .int (if b then 1 else 0)
  | .float text => if text = PyStr.ofString "NaN" then .none else .float text
  | v => v

/-- One entry of the answer to `GET /reports/<client_id>`. -/
def ReportRow.toVal (r : ReportRow) : PyVal :=
  .dict [(PyStr.ofString "event_type", .str r.eventType), (PyStr.ofString "detail", .str r.detail),
    (PyStr.ofString "client_ts", columnInteger r.clientTs), (PyStr.ofString "received_at", .int r.receivedAt),
    (PyStr.ofString "source_addr", .str r.sourceAddr)]

/-- The default limit of `list_reports`. -/
def listLimit : Nat := 200

/-- `list_reports`: the newest rows first -/
def Store.listReports (s : Store) (clientId : PyStr) : List PyVal :=
  ((s.reports.reverse.filter fun r => r.clientId == clientId).take listLimit).map ReportRow.toVal

def Store.ban (s : Store) (clientId reason : PyStr) (now : Int) : Store :=
  { s with bans := Function.update s.bans clientId (some ⟨reason, now⟩) }

/-- `unban`: whether a row was deleted, and the table after it -/
def Store.unban (s : Store) (clientId : PyStr) : Bool × Store :=
  ((s.bans clientId).isSome, { s with bans := Function.update s.bans clientId none })

def Store.banStatus (s : Store) (clientId : PyStr) : PyVal :=
  match s.bans clientId with
  | none => .dict [(PyStr.ofString "banned", .bool false)]
  | some row =>
      .dict [(PyStr.ofString "banned", .bool true), (PyStr.ofString "reason", .str row.reason),
        (PyStr.ofString "banned_at", .int row.bannedAt)]

/-- A statement that succeeds, and what its handler answers. -/
def Store.perform (s : Store) (now : Int) : DbOp → Store × Response
  | .addReport clientId eventType detail clientTs sourceAddr =>
      (s.addReport clientId eventType detail clientTs sourceAddr now,
        ⟨201, .dict [(PyStr.ofString "ok", .bool true)], []⟩)
  | .listReports clientId =>
      (s, ⟨200, .dict [(PyStr.ofString "reports", .list (s.listReports clientId))], []⟩)
  | .ban clientId reason =>
      (s.ban clientId reason now, ⟨200, .dict [(PyStr.ofString "ok", .bool true)], []⟩)
  | .unban clientId =>
      ((s.unban clientId).2,
        ⟨200, .dict [(PyStr.ofString "ok", .bool true),
          (PyStr.ofString "was_banned", .bool (s.unban clientId).1)], []⟩)
  | .banStatus clientId => (s, ⟨200, s.banStatus clientId, []⟩)

/-! ## Parameters -/

/-- Text that UTF-8 can encode. -/
def encodable (s : PyStr) : Bool :=
  s.all fun c => !(0xD800 ≤ c && c ≤ 0xDFFF)

/-- Whether a value can be bound to a parameter. -/
def bindable : PyVal → Bool
  | .none | .bool _ | .float _ => true
  | .int i => -2 ^ 63 ≤ i && i < 2 ^ 63
  | .str s => encodable s
  | .list _ | .dict _ => false

/-- The values that a statement binds, apart from the time of day. -/
def DbOp.params : DbOp → List PyVal
  | .addReport clientId eventType detail clientTs sourceAddr =>
      [.str clientId, .str eventType, .str detail, clientTs, .str sourceAddr]
  | .listReports clientId => [.str clientId]
  | .ban clientId reason => [.str clientId, .str reason]
  | .unban clientId => [.str clientId]
  | .banStatus clientId => [.str clientId]

end Anticheat
