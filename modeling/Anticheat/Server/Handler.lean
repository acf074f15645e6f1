import Mathlib.Data.Finset.Basic
import Anticheat.Foundation.Utf8
import Anticheat.Server.Store

/-!
# The server's request handlers

From a request that {lit}`http.server` has read to the response, or to the statement that
the response waits for: the nested class {lit}`Handler` of {lit}`make_handler` in
{lit}`ac_server.py`.  The rate limiter comes before all of this and is not part of it.

A handler can also end in an exception, which {lit}`_dispatch` turns into the answer 500,
or into no answer at all if the client has gone.
-/

namespace Anticheat

open Foundation PyJson

/-! ## Requests -/

inductive HttpCommand where
  | get
  | post
deriving DecidableEq, Repr

/-- How a stream ends that has fewer bytes than are asked for: it is closed, or reading
it raises an exception. -/
inductive StreamEnd where
  | eof
  | timeout
  | reset
deriving DecidableEq, Repr

structure HttpRequest where
  command : HttpCommand
  path : PyStr
  /-- name and value of each header line -/
  headers : List (PyStr × PyStr)
  /-- `self.client_address[0]` -/
  clientAddress : PyStr
  /-- the bytes after the headers -/
  body : List UInt8
  bodyEnd : StreamEnd := .eof

/-- An exception: the two that mean that the client has gone, or any other. -/
inductive PyExc where
  | connection
  | other
deriving DecidableEq, Repr

/-- `self.headers.get_all(name)`, where no result is the empty list -/
def HttpRequest.headerAll (req : HttpRequest) (name : String) : List PyStr :=
  (req.headers.filter fun h => PyStr.lower h.1 == PyStr.lower (PyStr.ofString name)).map Prod.snd

/-- `self.headers.get(name)` -/
def HttpRequest.header (req : HttpRequest) (name : String) : Option PyStr :=
  (req.headerAll name).head?

/-- `self.rfile.read(length)` -/
def HttpRequest.read (req : HttpRequest) (length : Nat) : Except PyExc (List UInt8) :=
  if length ≤ req.body.length then .ok (req.body.take length)
  else
    match req.bodyEnd with
    | .eof => .ok req.body
    | .timeout => .error .other
    | .reset => .error .connection

/-! ## The configuration -/

/-- What the handlers know of the configuration and of the interpreter. -/
structure ServerConfig where
  /-- the keys of each tier, in the order in which they are compared -/
  reportKeys : List PyStr
  adminKeys : List PyStr
  reportKeys_nodup : reportKeys.Nodup
  adminKeys_nodup : adminKeys.Nodup
  limit : Nat
  window : Nat
  trustProxy : Bool
  /-- the objects and arrays that `json.loads` can enter within the first one -/
  nesting : Nat
  /-- whether `ipaddress.ip_address` takes a text -/
  validIp : PyStr → Bool

/-- The command line and the environment. -/
structure ServerArgs where
  reportKey : Option PyStr
  adminKey : Option PyStr
  reportKeyOld : Option PyStr
  adminKeyOld : Option PyStr
  envReportKey : Option PyStr
  envAdminKey : Option PyStr
  envReportKeyOld : Option PyStr
  envAdminKeyOld : Option PyStr
  rateLimit : Int
  rateWindow : Int
  trustProxy : Bool

/-- `_key_arg` -/
def keyArg (cliValue envValue : Option PyStr) : Option PyStr :=
  match cliValue with
  | some v => some v
  | none => envValue

/-- What `main` starts the server with. -/
structure ServerSetup where
  reportKeys : Finset PyStr
  adminKeys : Finset PyStr
  limit : Nat
  window : Nat
  trustProxy : Bool

/-- The keys of a tier: the current one, and the old one if there is one. -/
def keyTier (key : PyStr) (old : Option PyStr) : Finset PyStr :=
  match old with
  | none => {key}
  | some [] => {key}
  | some old => {key, old}

/-- `main`, up to the point where the server is created; an error is the text with which
it exits. -/
def serverMain (args : ServerArgs) : Except String ServerSetup :=
  match keyArg args.reportKey args.envReportKey, keyArg args.adminKey args.envAdminKey with
  | some (r :: rs), some (a :: as) =>
      let reportKeys := keyTier (r :: rs) (keyArg args.reportKeyOld args.envReportKeyOld)
      let adminKeys := keyTier (a :: as) (keyArg args.adminKeyOld args.envAdminKeyOld)
      if (reportKeys ∩ adminKeys).Nonempty then
        .error
          ("ac_server: a report key and an admin key (current or " ++
            "-old) are identical -- report and admin tiers must not overlap\n")
      else if args.rateLimit ≤ 0 ∨ args.rateWindow ≤ 0 then
        .error "ac_server: --rate-limit/--rate-window must be positive\n"
      else
        .ok
          { reportKeys := reportKeys
            adminKeys := adminKeys
            limit := args.rateLimit.toNat
            window := args.rateWindow.toNat
            trustProxy := args.trustProxy }
  | _, _ =>
      .error
        ("ac_server: --report-key/--admin-key (or AC_SERVER_REPORT_KEY/" ++
          "AC_SERVER_ADMIN_KEY) are required -- refusing to start with no auth configured\n")

/-- A configuration that `main` accepts.  A set of keys has no order of its own, so they
may be compared in any. -/
def Starts (args : ServerArgs) (cfg : ServerConfig) : Prop :=
  ∃ setup, serverMain args = .ok setup ∧ cfg.reportKeys.toFinset = setup.reportKeys ∧
    cfg.adminKeys.toFinset = setup.adminKeys ∧ cfg.limit = setup.limit ∧
    cfg.window = setup.window ∧ cfg.trustProxy = setup.trustProxy

/-- A server with one key in each tier. -/
def twoKeyArgs : ServerArgs where
  reportKey := some (PyStr.ofString "report")
  adminKey := some (PyStr.ofString "admin")
  reportKeyOld := none
  adminKeyOld := none
  envReportKey := none
  envAdminKey := none
  envReportKeyOld := none
  envAdminKeyOld := none
  rateLimit := 60
  rateWindow := 60
  trustProxy := false

def twoKeyConfig : ServerConfig where
  reportKeys := [PyStr.ofString "report"]
  adminKeys := [PyStr.ofString "admin"]
  reportKeys_nodup := List.nodup_singleton _
  adminKeys_nodup := List.nodup_singleton _
  limit := 60
  window := 60
  trustProxy := false
  nesting := 100
  validIp := fun _ => false

theorem twoKeyConfig_starts : Starts twoKeyArgs twoKeyConfig :=
  ⟨⟨{PyStr.ofString "report"}, {PyStr.ofString "admin"}, 60, 60, false⟩, rfl, rfl, rfl, rfl,
    rfl, rfl⟩

/-! ## The client's address and its token -/

/-- `_client_ip` -/
def clientIp (cfg : ServerConfig) (req : HttpRequest) : PyStr :=
  if !cfg.trustProxy then req.clientAddress
  else
    match req.headerAll "X-Forwarded-For" with
    | [] => req.clientAddress
    | lines =>
        let candidate := PyStr.strip (PyStr.afterLast 44 (PyStr.join [44] lines))
        if cfg.validIp candidate then candidate else req.clientAddress

def bearerStart : PyStr := PyStr.ofString "Bearer "

/-- `_bearer` -/
def bearer (req : HttpRequest) : Option PyStr :=
  let auth := (req.header "Authorization").getD []
  if bearerStart.isPrefixOf auth then some (auth.drop bearerStart.length) else none

/-- `hmac.compare_digest` on two strings -/
def compareDigest (a b : PyStr) : Except PyExc Bool :=
  if a.isAscii && b.isAscii then .ok (a == b) else .error .other

/-- The keys that a token is compared with, in order, and the result. -/
def compareAny (got : PyStr) : List PyStr → List PyStr × Except PyExc Bool
  | [] => ([], .ok false)
  | k :: ks =>
      match compareDigest got k with
      | .error e => ([k], .error e)
      | .ok true => ([k], .ok true)
      | .ok false => (k :: (compareAny got ks).1, (compareAny got ks).2)

/-- `_authed`: the keys that the token is compared with, and the result -/
def authed (expectedKeys : List PyStr) (req : HttpRequest) : List PyStr × Except PyExc Bool :=
  match bearer req with
  | none => ([], .ok false)
  | some got => compareAny got expectedKeys

/-! ## The body -/

def maxBodyBytes : Nat := 4096

/-- `_read_json_body` -/
def readJsonBody (cfg : ServerConfig) (req : HttpRequest) : Except PyExc (Option PyVal) :=
  let text := (req.header "Content-Length").getD (PyStr.ofString "0")
  let text := if text = [] then PyStr.ofString "0" else text
  match PyStr.int text with
  | none => .ok none
  | some length =>
      if length ≤ 0 ∨ length > maxBodyBytes then .ok none
      else
        match req.read length.toNat with
        | .error e => .error e
        | .ok raw =>
            match loads (cfg.nesting + 1) (Utf8.decode raw) with
            | .ok v => .ok (some v)
            | .error .value => .ok none
            | .error .recursion => .error .other

/-- The whole body was sent, and its length is announced. -/
def HttpRequest.SendsBody (req : HttpRequest) : Prop :=
  (req.header "Content-Length").bind PyStr.int = some (req.body.length : Int)

/-- What is read from a body of a length that is taken depends on its text alone. -/
theorem readJsonBody_of_sendsBody (cfg : ServerConfig) {req : HttpRequest} (hsends : req.SendsBody)
    (hsize : req.body.length ≤ maxBodyBytes) :
    readJsonBody cfg req =
      match loads (cfg.nesting + 1) (Utf8.decode req.body) with
      | .ok v => .ok (some v)
      | .error .value => .ok none
      | .error .recursion => .error .other := by
  rcases Option.bind_eq_some_iff.1 hsends with ⟨text, hheader, hint⟩
  have htext : text ≠ [] := by
    rintro rfl
    cases hint
  unfold readJsonBody
  simp only [hheader, Option.getD_some, if_neg htext, hint]
  by_cases hempty : req.body = []
  · rw [hempty, if_pos (Or.inl (by simp))]
    rfl
  · have hpos := List.length_pos_iff.2 hempty
    have hbounds : ¬((req.body.length : Int) ≤ 0 ∨ (req.body.length : Int) > maxBodyBytes) := by
      omega
    have hread : req.read req.body.length = .ok req.body := by
      rw [HttpRequest.read, if_pos (Nat.le_refl _), List.take_length]
    rw [if_neg hbounds, Int.toNat_natCast, hread]

/-- A character of a client id. -/
def isIdChar (c : Nat) : Bool :=
  (65 ≤ c && c ≤ 90) || (97 ≤ c && c ≤ 122) || (48 ≤ c && c ≤ 57) || c == 46 || c == 95 || c == 45

/-- The anchor `$` of Python's regular expressions: the end of the text, or a newline
that is its last character. -/
def atDollar (rest : PyStr) : Bool :=
  rest == [] || rest == [10]

/-- `CLIENT_ID_RE.match`: the class takes as many characters as it can, up to 128, and
gives them back one after the other until the anchor holds. -/
def clientIdRe (v : PyStr) : Bool :=
  let run := (v.takeWhile isIdChar).take 128
  (List.range run.length).any fun n => atDollar (v.drop (n + 1))

/-- `_valid_client_id` -/
def validClientId : PyVal → Bool
  | .str v => clientIdRe v
  | _ => false

/-! ## The handlers -/

/-- How a handler ends, or the statement that its answer waits for. -/
inductive Reply where
  | send (r : Response)
  | store (op : DbOp)

/-- `_require_valid_client_id` -/
def requireValidClientId (v : PyVal) (next : PyStr → Reply) : Reply :=
  match v with
  | .str id =>
      if validClientId (.str id) then next id
      else .send (.error 400 "invalid client_id")
  | _ => .send (.error 400 "invalid client_id")

/-- `_require_body_client_id` -/
def requireBodyClientId (cfg : ServerConfig) (req : HttpRequest)
    (next : List (PyStr × PyVal) → PyStr → Reply) : Except PyExc Reply :=
  match readJsonBody cfg req with
  | .error e => .error e
  | .ok (some (.dict (m :: d))) =>
      .ok (requireValidClientId (dictGet (m :: d) (PyStr.ofString "client_id")) (next (m :: d)))
  | .ok _ => .ok (.send (.error 400 "bad request"))

/-- A time stamp that is not a number is dropped; a `bool` is an `int`. -/
def clientTs : PyVal → PyVal
  | .int i => .int i
  | .bool b => .bool b
  | .float t => .float t
  | _ => .none

/-- `_handle_report` -/
def handleReport (cfg : ServerConfig) (req : HttpRequest) : Except PyExc Reply :=
  requireBodyClientId cfg req fun body clientId =>
    match dictGet body (PyStr.ofString "event_type") with
    | .str eventType =>
        if eventType.length > 64 then .send (.error 400 "invalid event_type")
        else
          match dictGet body (PyStr.ofString "detail") with
          | .str detail =>
              if detail.length > 2000 then .send (.error 400 "invalid detail")
              else
                .store (.addReport clientId eventType detail
                  (clientTs (dictGet body (PyStr.ofString "ts"))) (clientIp cfg req))
          | _ => .send (.error 400 "invalid detail")
    | _ => .send (.error 400 "invalid event_type")

/-- `_handle_ban` -/
def handleBan (cfg : ServerConfig) (req : HttpRequest) : Except PyExc Reply :=
  requireBodyClientId cfg req fun body clientId =>
    match dictGet body (PyStr.ofString "reason") with
    | .str reason =>
        if 0 < reason.length ∧ reason.length ≤ 500 then .store (.ban clientId reason)
        else .send (.error 400 "invalid reason")
    | _ => .send (.error 400 "invalid reason")

/-- `_handle_unban` -/
def handleUnban (cfg : ServerConfig) (req : HttpRequest) : Except PyExc Reply :=
  requireBodyClientId cfg req fun _ clientId => .store (.unban clientId)

/-- `_handle_banned` -/
def handleBanned (clientId : PyStr) : Except PyExc Reply :=
  .ok (requireValidClientId (.str clientId) fun id => .store (.banStatus id))

/-- `_handle_reports` -/
def handleReports (clientId : PyStr) : Except PyExc Reply :=
  .ok (requireValidClientId (.str clientId) fun id => .store (.listReports id))

/-- `_requires_auth`: the keys that the token was compared with, and how the handler ends -/
def requiresAuth (keys : List PyStr) (req : HttpRequest) (handler : Except PyExc Reply) :
    List PyStr × Except PyExc Reply :=
  let (compared, result) := authed keys req
  match result with
  | .error e => (compared, .error e)
  | .ok false => (compared, .ok (.send (.error 401 "unauthorized")))
  | .ok true => (compared, handler)

/-- `_do_POST` after the rate limiter -/
def doPost (cfg : ServerConfig) (req : HttpRequest) : List PyStr × Except PyExc Reply :=
  if req.path = PyStr.ofString "/report" then
    requiresAuth cfg.reportKeys req (handleReport cfg req)
  else if req.path = PyStr.ofString "/ban" then
    requiresAuth cfg.adminKeys req (handleBan cfg req)
  else if req.path = PyStr.ofString "/unban" then
    requiresAuth cfg.adminKeys req (handleUnban cfg req)
  else ([], .ok (.send (.error 404 "not found")))

def bannedPath : PyStr := PyStr.ofString "/banned/"

def reportsPath : PyStr := PyStr.ofString "/reports/"

/-- `_do_GET` after the rate limiter -/
def doGet (cfg : ServerConfig) (req : HttpRequest) : List PyStr × Except PyExc Reply :=
  if bannedPath.isPrefixOf req.path then
    requiresAuth cfg.adminKeys req (handleBanned (req.path.drop bannedPath.length))
  else if reportsPath.isPrefixOf req.path then
    requiresAuth cfg.adminKeys req (handleReports (req.path.drop reportsPath.length))
  else ([], .ok (.send (.error 404 "not found")))

def handle (cfg : ServerConfig) (req : HttpRequest) : List PyStr × Except PyExc Reply :=
  match req.command with
  | .post => doPost cfg req
  | .get => doGet cfg req

/-! ## Tokens -/

/-- A request carries a key: its first Authorization header is that of a bearer with the
key as its token. -/
def CarriesKey (keys : List PyStr) (req : HttpRequest) : Prop :=
  ∃ k ∈ keys, req.header "Authorization" = some (bearerStart ++ k)

theorem bearer_eq_some_iff {req : HttpRequest} {got : PyStr} :
    bearer req = some got ↔ req.header "Authorization" = some (bearerStart ++ got) := by
  unfold bearer
  cases hauth : req.header "Authorization" with
  | none =>
      have hnil : bearerStart.isPrefixOf ([] : PyStr) = false := by decide
      simp [hnil]
  | some auth =>
      simp only [Option.getD_some, Option.ite_none_right_eq_some, Option.some.injEq,
        List.isPrefixOf_iff_prefix]
      constructor
      · rintro ⟨⟨rest, rfl⟩, hrest⟩
        rw [List.drop_left] at hrest
        rw [hrest]
      · rintro rfl
        exact ⟨List.prefix_append _ _, List.drop_left⟩

/-- What a comparison with several keys finds. -/
theorem compareAny_spec (got : PyStr) (ks : List PyStr) :
    ((compareAny got ks).2 = .ok true → got ∈ ks) ∧
      (got ∈ ks → (compareAny got ks).2 ≠ .ok false) ∧
      (∀ e, (compareAny got ks).2 = .error e → e = .other) ∧ (compareAny got ks).1 <+: ks := by
  induction ks with
  | nil => exact ⟨by simp [compareAny], by simp, by simp [compareAny], List.prefix_refl _⟩
  | cons k ks ih =>
      rcases ih with ⟨htrue, hmem, herror, hstart⟩
      unfold compareAny compareDigest
      by_cases hascii : (got.isAscii && k.isAscii) = true
      · rw [if_pos hascii]
        by_cases hk : got = k
        · subst hk
          simp
        · have hbeq : (got == k) = false := by simpa using hk
          rw [hbeq]
          refine ⟨fun h => List.mem_cons_of_mem _ (htrue h), ?_, herror, ?_⟩
          · intro h
            exact hmem ((List.mem_cons.1 h).resolve_left hk)
          · exact (List.cons_prefix_cons).2 ⟨rfl, hstart⟩
      · rw [if_neg hascii]
        simp

theorem carriesKey_of_authed {keys : List PyStr} {req : HttpRequest}
    (h : (authed keys req).2 = .ok true) : CarriesKey keys req := by
  unfold authed at h
  cases hgot : bearer req with
  | none => simp [hgot] at h
  | some got =>
      rw [hgot] at h
      exact ⟨got, (compareAny_spec got keys).1 h, bearer_eq_some_iff.1 hgot⟩

/-- A request that carries a key is let in, or a comparison raises an exception. -/
theorem authed_of_carriesKey {keys : List PyStr} {req : HttpRequest} (h : CarriesKey keys req) :
    (authed keys req).2 = .ok true ∨ (authed keys req).2 = .error .other := by
  rcases h with ⟨k, hk, hheader⟩
  rw [authed, bearer_eq_some_iff.2 hheader]
  rcases compareAny_spec k keys with ⟨-, hmem, herror, -⟩
  rcases hres : (compareAny k keys).2 with e | b
  · exact Or.inr (congrArg Except.error (herror e hres))
  · cases b with
    | true => exact Or.inl rfl
    | false => exact absurd hres (hmem hk)

/-- The keys that a token is compared with are the first ones of the tier. -/
theorem authed_compared (keys : List PyStr) (req : HttpRequest) :
    (authed keys req).1 <+: keys := by
  unfold authed
  cases bearer req with
  | none => exact List.nil_prefix
  | some got => exact (compareAny_spec got keys).2.2.2

theorem requiresAuth_compared (keys : List PyStr) (req : HttpRequest)
    (handler : Except PyExc Reply) : (requiresAuth keys req handler).1 = (authed keys req).1 := by
  unfold requiresAuth
  rcases authed keys req with ⟨compared, _ | _ | _⟩ <;> rfl

theorem requiresAuth_snd (keys : List PyStr) (req : HttpRequest) (handler : Except PyExc Reply) :
    (requiresAuth keys req handler).2 =
      match (authed keys req).2 with
      | .error e => .error e
      | .ok false => .ok (.send (.error 401 "unauthorized"))
      | .ok true => handler := by
  unfold requiresAuth
  rcases authed keys req with ⟨compared, _ | _ | _⟩ <;> rfl

theorem requiresAuth_of_authed {keys : List PyStr} {req : HttpRequest}
    (handler : Except PyExc Reply) (h : (authed keys req).2 = .ok true) :
    (requiresAuth keys req handler).2 = handler := by
  rw [requiresAuth_snd, h]

theorem requiresAuth_of_refused {keys : List PyStr} {req : HttpRequest}
    (handler : Except PyExc Reply) (h : (authed keys req).2 = .ok false) :
    (requiresAuth keys req handler).2 = .ok (.send (.error 401 "unauthorized")) := by
  rw [requiresAuth_snd, h]

/-- A handler behind `_requires_auth` comes to its statement only with a key. -/
theorem requiresAuth_store {keys : List PyStr} {req : HttpRequest} {handler : Except PyExc Reply}
    {op : DbOp} (h : (requiresAuth keys req handler).2 = .ok (.store op)) :
    CarriesKey keys req ∧ handler = .ok (.store op) := by
  rw [requiresAuth_snd] at h
  split at h
  · contradiction
  · simp at h
  · rename_i hauthed
    exact ⟨carriesKey_of_authed hauthed, h⟩

theorem requiresAuth_of_carriesKey {keys : List PyStr} {req : HttpRequest}
    (handler : Except PyExc Reply) (h : CarriesKey keys req) :
    (requiresAuth keys req handler).2 = handler ∨
      ((authed keys req).2 = .error .other ∧
        (requiresAuth keys req handler).2 = .error .other) := by
  rcases authed_of_carriesKey h with hres | hres
  · exact Or.inl (requiresAuth_of_authed handler hres)
  · exact Or.inr ⟨hres, by rw [requiresAuth_snd, hres]⟩

/-! ## The endpoints -/

section

variable {cfg : ServerConfig} {req : HttpRequest}

theorem handle_report (hpost : req.command = .post) (hpath : req.path = PyStr.ofString "/report") :
    handle cfg req = requiresAuth cfg.reportKeys req (handleReport cfg req) := by
  rw [handle, hpost]
  dsimp only
  rw [doPost, if_pos hpath]

theorem handle_ban (hpost : req.command = .post) (hpath : req.path = PyStr.ofString "/ban") :
    handle cfg req = requiresAuth cfg.adminKeys req (handleBan cfg req) := by
  rw [handle, hpost]
  dsimp only
  rw [doPost, hpath, if_neg (by decide), if_pos rfl]

theorem handle_unban (hpost : req.command = .post) (hpath : req.path = PyStr.ofString "/unban") :
    handle cfg req = requiresAuth cfg.adminKeys req (handleUnban cfg req) := by
  rw [handle, hpost]
  dsimp only
  rw [doPost, hpath, if_neg (by decide), if_neg (by decide), if_pos rfl]

theorem handle_banned {clientId : PyStr} (hget : req.command = .get)
    (hpath : req.path = bannedPath ++ clientId) :
    handle cfg req = requiresAuth cfg.adminKeys req (handleBanned clientId) := by
  have hstart : bannedPath.isPrefixOf req.path = true := by
    rw [hpath, List.isPrefixOf_iff_prefix]
    exact List.prefix_append _ _
  rw [handle, hget]
  dsimp only
  rw [doGet, if_pos hstart, hpath, List.drop_left]

theorem handle_reports {clientId : PyStr} (hget : req.command = .get)
    (hpath : req.path = reportsPath ++ clientId) :
    handle cfg req = requiresAuth cfg.adminKeys req (handleReports clientId) := by
  -- the two paths of GET requests are told apart by their beginnings
  have hother : bannedPath.isPrefixOf req.path = false := by
    rw [hpath]
    rfl
  have hstart : reportsPath.isPrefixOf req.path = true := by
    rw [hpath, List.isPrefixOf_iff_prefix]
    exact List.prefix_append _ _
  rw [handle, hget]
  dsimp only
  rw [doGet, if_neg (by rw [hother]; decide), if_pos hstart, hpath, List.drop_left]

/-- A report with a key comes to its handler. -/
theorem handle_of_authed (hpost : req.command = .post)
    (hpath : req.path = PyStr.ofString "/report")
    (hkey : (authed cfg.reportKeys req).2 = .ok true) :
    (handle cfg req).2 = handleReport cfg req := by
  rw [handle_report hpost hpath, requiresAuth_of_authed _ hkey]

end

/-! ## What a request can lead to -/

/-- The body of a request is an object that names a client. -/
structure NamesClient (cfg : ServerConfig) (req : HttpRequest) (body : List (PyStr × PyVal))
    (clientId : PyStr) : Prop where
  read : readJsonBody cfg req = .ok (some (.dict body))
  client : dictGet body (PyStr.ofString "client_id") = .str clientId
  valid : clientIdRe clientId = true

theorem requireBodyClientId_store {cfg : ServerConfig} {req : HttpRequest}
    {next : List (PyStr × PyVal) → PyStr → Reply} {op : DbOp}
    (h : requireBodyClientId cfg req next = .ok (.store op)) :
    ∃ body clientId, NamesClient cfg req body clientId ∧ next body clientId = .store op := by
  unfold requireBodyClientId requireValidClientId at h
  split at h
  · contradiction
  · rename_i m d hbody
    rw [Except.ok.injEq] at h
    split at h
    · rename_i id hclient
      split_ifs at h with hvalid
      exact ⟨m :: d, id, ⟨hbody, hclient, hvalid⟩, h⟩
    · contradiction
  · simp at h

theorem NamesClient.requireBodyClientId {cfg : ServerConfig} {req : HttpRequest}
    {body : List (PyStr × PyVal)} {clientId : PyStr} (h : NamesClient cfg req body clientId)
    (next : List (PyStr × PyVal) → PyStr → Reply) :
    requireBodyClientId cfg req next = .ok (next body clientId) := by
  have hclient := h.client
  have hvalid : validClientId (.str clientId) = true := h.valid
  rw [Anticheat.requireBodyClientId, h.read]
  rcases body with - | ⟨m, d⟩
  · contradiction
  · simp only [hclient, requireValidClientId, hvalid, if_true]

/-- The client that a request names is determined by it. -/
theorem NamesClient.unique {cfg : ServerConfig} {req : HttpRequest}
    {body body' : List (PyStr × PyVal)} {clientId clientId' : PyStr}
    (h : NamesClient cfg req body clientId) (h' : NamesClient cfg req body' clientId') :
    body = body' ∧ clientId = clientId' := by
  have hbody := h.read.symm.trans h'.read
  simp only [Except.ok.injEq, Option.some.injEq, PyVal.dict.injEq] at hbody
  subst hbody
  have hclient := h.client.symm.trans h'.client
  rw [PyVal.str.injEq] at hclient
  exact ⟨rfl, hclient⟩

/-- What a `/ban` or an `/unban` request asks for. -/
inductive BanCommand where
  | ban (clientId reason : PyStr)
  | unban (clientId : PyStr)
deriving DecidableEq

/-- A `/ban` or `/unban` request with a key of the admin tier that is valid, and what it
asks for. -/
inductive BanRequest (cfg : ServerConfig) (req : HttpRequest) : BanCommand → Prop where
  | ban {body : List (PyStr × PyVal)} {clientId reason : PyStr} :
      req.command = .post → req.path = PyStr.ofString "/ban" → CarriesKey cfg.adminKeys req →
      NamesClient cfg req body clientId →
      dictGet body (PyStr.ofString "reason") = .str reason →
      0 < reason.length → reason.length ≤ 500 → BanRequest cfg req (.ban clientId reason)
  | unban {body : List (PyStr × PyVal)} {clientId : PyStr} :
      req.command = .post → req.path = PyStr.ofString "/unban" → CarriesKey cfg.adminKeys req →
      NamesClient cfg req body clientId → BanRequest cfg req (.unban clientId)

/-- A `/report` request with a key of the report tier that is valid, and the row that it
asks for at a time. -/
inductive ReportRequest (cfg : ServerConfig) (req : HttpRequest) (now : Int) :
    ReportRow → Prop where
  | report {body : List (PyStr × PyVal)} {clientId eventType detail : PyStr} :
      req.command = .post → req.path = PyStr.ofString "/report" →
      CarriesKey cfg.reportKeys req → NamesClient cfg req body clientId →
      dictGet body (PyStr.ofString "event_type") = .str eventType → eventType.length ≤ 64 →
      dictGet body (PyStr.ofString "detail") = .str detail → detail.length ≤ 2000 →
      ReportRequest cfg req now
        ⟨clientId, eventType, detail, clientTs (dictGet body (PyStr.ofString "ts")), now,
          clientIp cfg req⟩

/-- The statements that a request may lead to. -/
inductive Authorised (cfg : ServerConfig) (req : HttpRequest) : DbOp → Prop where
  | addReport {clientId eventType detail sourceAddr : PyStr} {ts : PyVal} :
      (∀ now, ReportRequest cfg req now ⟨clientId, eventType, detail, ts, now, sourceAddr⟩) →
      Authorised cfg req (.addReport clientId eventType detail ts sourceAddr)
  | ban {clientId reason : PyStr} : BanRequest cfg req (.ban clientId reason) →
      Authorised cfg req (.ban clientId reason)
  | unban {clientId : PyStr} : BanRequest cfg req (.unban clientId) →
      Authorised cfg req (.unban clientId)
  | banStatus {clientId : PyStr} : req.command = .get → req.path = bannedPath ++ clientId →
      CarriesKey cfg.adminKeys req → clientIdRe clientId = true →
      Authorised cfg req (.banStatus clientId)
  | listReports {clientId : PyStr} : req.command = .get → req.path = reportsPath ++ clientId →
      CarriesKey cfg.adminKeys req → clientIdRe clientId = true →
      Authorised cfg req (.listReports clientId)

theorem handleReport_store {cfg : ServerConfig} {req : HttpRequest} {op : DbOp}
    (hpost : req.command = .post) (hpath : req.path = PyStr.ofString "/report")
    (hkey : CarriesKey cfg.reportKeys req) (h : handleReport cfg req = .ok (.store op)) :
    ∃ clientId eventType detail ts sourceAddr,
      op = .addReport clientId eventType detail ts sourceAddr ∧
        ∀ now, ReportRequest cfg req now ⟨clientId, eventType, detail, ts, now, sourceAddr⟩ := by
  rcases requireBodyClientId_store h with ⟨body, clientId, hnames, h⟩
  split at h
  · rename_i eventType htype
    split_ifs at h with hlen
    split at h
    · rename_i detail hdetail
      split_ifs at h with hlen'
      rw [Reply.store.injEq] at h
      refine ⟨clientId, eventType, detail, _, _, h.symm, ?_⟩
      intro now
      exact .report hpost hpath hkey hnames htype (not_lt.1 hlen) hdetail (not_lt.1 hlen')
    · contradiction
  · contradiction

theorem handleBan_store {cfg : ServerConfig} {req : HttpRequest} {op : DbOp}
    (hpost : req.command = .post) (hpath : req.path = PyStr.ofString "/ban")
    (hkey : CarriesKey cfg.adminKeys req) (h : handleBan cfg req = .ok (.store op)) :
    Authorised cfg req op := by
  rcases requireBodyClientId_store h with ⟨body, clientId, hnames, h⟩
  split at h
  · rename_i reason hreason
    split_ifs at h with hlen
    rw [Reply.store.injEq] at h
    subst h
    exact .ban (.ban hpost hpath hkey hnames hreason hlen.1 hlen.2)
  · contradiction

theorem handleUnban_store {cfg : ServerConfig} {req : HttpRequest} {op : DbOp}
    (hpost : req.command = .post) (hpath : req.path = PyStr.ofString "/unban")
    (hkey : CarriesKey cfg.adminKeys req) (h : handleUnban cfg req = .ok (.store op)) :
    Authorised cfg req op := by
  rcases requireBodyClientId_store h with ⟨body, clientId, hnames, h⟩
  rw [Reply.store.injEq] at h
  subst h
  exact .unban (.unban hpost hpath hkey hnames)

/-- The two lookups differ in their path and in their statement. -/
theorem lookup_store {start path : PyStr} {lookup : PyStr → DbOp} {op : DbOp}
    (hstart : start.isPrefixOf path = true)
    (h : requireValidClientId (.str (path.drop start.length)) (fun id => .store (lookup id)) =
      .store op) :
    ∃ clientId, path = start ++ clientId ∧ clientIdRe clientId = true ∧ lookup clientId = op := by
  rcases List.isPrefixOf_iff_prefix.1 hstart with ⟨clientId, rfl⟩
  rw [List.drop_left, requireValidClientId] at h
  split_ifs at h with hvalid
  rw [Reply.store.injEq] at h
  exact ⟨clientId, rfl, hvalid, h⟩

/-- A request comes only to statements that it is authorised for. -/
theorem handle_store {cfg : ServerConfig} {req : HttpRequest} {op : DbOp}
    (h : (handle cfg req).2 = .ok (.store op)) : Authorised cfg req op := by
  unfold handle at h
  cases hcommand : req.command with
  | post =>
      rw [hcommand] at h
      simp only [doPost] at h
      split_ifs at h with hreport hban hunban
      · rcases requiresAuth_store h with ⟨hkey, h⟩
        rcases handleReport_store hcommand hreport hkey h with ⟨_, _, _, _, _, rfl, hrow⟩
        exact .addReport hrow
      · rcases requiresAuth_store h with ⟨hkey, h⟩
        exact handleBan_store hcommand hban hkey h
      · rcases requiresAuth_store h with ⟨hkey, h⟩
        exact handleUnban_store hcommand hunban hkey h
      · simp at h
  | get =>
      rw [hcommand] at h
      simp only [doGet] at h
      split_ifs at h with hbanned hreports
      · rcases requiresAuth_store h with ⟨hkey, h⟩
        rcases lookup_store hbanned (Except.ok.inj h) with ⟨clientId, hpath, hvalid, rfl⟩
        exact .banStatus hcommand hpath hkey hvalid
      · rcases requiresAuth_store h with ⟨hkey, h⟩
        rcases lookup_store hreports (Except.ok.inj h) with ⟨clientId, hpath, hvalid, rfl⟩
        exact .listReports hcommand hpath hkey hvalid
      · simp at h

/-! ## Requests that are answered at once -/

/-- The answers that are given without the database. -/
def Response.Refuses (r : Response) : Prop :=
  r.code = 400 ∨ r.code = 401 ∨ r.code = 404

/-- A reply that is no refusal is a statement. -/
def Reply.Refuses : Reply → Prop
  | .send r => r.Refuses
  | .store _ => True

/-- What the handlers send behind the check of the key. -/
def Reply.BadRequest : Reply → Prop
  | .send r => r.code = 400
  | .store _ => True

theorem Reply.BadRequest.refuses {reply : Reply} (h : reply.BadRequest) : reply.Refuses := by
  cases reply with
  | send r => exact Or.inl h
  | store op => trivial

theorem requireValidClientId_badRequest {v : PyVal} {next : PyStr → Reply}
    (hnext : ∀ id, (next id).BadRequest) : (requireValidClientId v next).BadRequest := by
  unfold requireValidClientId
  split
  · split_ifs
    · exact hnext _
    · rfl
  · rfl

theorem requireBodyClientId_badRequest {cfg : ServerConfig} {req : HttpRequest}
    {next : List (PyStr × PyVal) → PyStr → Reply} (hnext : ∀ body id, (next body id).BadRequest)
    {reply : Reply} (h : requireBodyClientId cfg req next = .ok reply) : reply.BadRequest := by
  unfold requireBodyClientId at h
  split at h
  · contradiction
  · rw [← Except.ok.inj h]
    exact requireValidClientId_badRequest (hnext _)
  · rw [← Except.ok.inj h]
    rfl

theorem handleReport_badRequest {cfg : ServerConfig} {req : HttpRequest} {reply : Reply}
    (h : handleReport cfg req = .ok reply) : reply.BadRequest := by
  refine requireBodyClientId_badRequest ?_ h
  intro body id
  split
  · split_ifs
    · rfl
    · split
      · split_ifs
        · rfl
        · trivial
      · rfl
  · rfl

theorem handleBan_badRequest {cfg : ServerConfig} {req : HttpRequest} {reply : Reply}
    (h : handleBan cfg req = .ok reply) : reply.BadRequest := by
  refine requireBodyClientId_badRequest ?_ h
  intro body id
  split
  · split_ifs
    · trivial
    · rfl
  · rfl

theorem handleUnban_badRequest {cfg : ServerConfig} {req : HttpRequest} {reply : Reply}
    (h : handleUnban cfg req = .ok reply) : reply.BadRequest := by
  refine requireBodyClientId_badRequest ?_ h
  intro body id
  trivial

/-- The two lookups by path. -/
theorem lookup_badRequest {v : PyVal} {lookup : PyStr → DbOp} {reply : Reply}
    (h : (.ok (requireValidClientId v fun id => .store (lookup id)) : Except PyExc Reply) =
      .ok reply) : reply.BadRequest := by
  rw [← Except.ok.inj h]
  exact requireValidClientId_badRequest fun _ => trivial

theorem requiresAuth_refuses {keys : List PyStr} {req : HttpRequest}
    {handler : Except PyExc Reply} (hhandler : ∀ reply, handler = .ok reply → reply.BadRequest)
    {reply : Reply} (h : (requiresAuth keys req handler).2 = .ok reply) : reply.Refuses := by
  rw [requiresAuth_snd] at h
  split at h
  · contradiction
  · rw [← Except.ok.inj h]
    exact Or.inr (Or.inl rfl)
  · exact (hhandler reply h).refuses

/-- What a request is answered without the database is a refusal. -/
theorem handle_refuses {cfg : ServerConfig} {req : HttpRequest} {reply : Reply}
    (h : (handle cfg req).2 = .ok reply) : reply.Refuses := by
  have hnotFound : ∀ reply, (.ok (.send (.error 404 "not found")) : Except PyExc Reply) =
      .ok reply → reply.Refuses := by
    intro reply h
    rw [← Except.ok.inj h]
    exact Or.inr (Or.inr rfl)
  unfold handle at h
  cases hcommand : req.command with
  | post =>
      rw [hcommand] at h
      simp only [doPost] at h
      split_ifs at h
      · exact requiresAuth_refuses (fun _ => handleReport_badRequest) h
      · exact requiresAuth_refuses (fun _ => handleBan_badRequest) h
      · exact requiresAuth_refuses (fun _ => handleUnban_badRequest) h
      · exact hnotFound reply h
  | get =>
      rw [hcommand] at h
      simp only [doGet] at h
      split_ifs at h
      · exact requiresAuth_refuses (fun _ => lookup_badRequest) h
      · exact requiresAuth_refuses (fun _ => lookup_badRequest) h
      · exact hnotFound reply h

/-- A token is compared with each key at most once. -/
theorem handle_compared_nodup (cfg : ServerConfig) (req : HttpRequest) :
    (handle cfg req).1.Nodup := by
  have hauth : ∀ (keys : List PyStr) (handler : Except PyExc Reply), keys.Nodup →
      (requiresAuth keys req handler).1.Nodup := by
    intro keys handler hkeys
    rw [requiresAuth_compared]
    exact hkeys.sublist (authed_compared keys req).sublist
  unfold handle doPost doGet
  cases req.command with
  | post =>
      dsimp only
      split_ifs
      · exact hauth _ _ cfg.reportKeys_nodup
      · exact hauth _ _ cfg.adminKeys_nodup
      · exact hauth _ _ cfg.adminKeys_nodup
      · exact List.nodup_nil
  | get =>
      dsimp only
      split_ifs
      · exact hauth _ _ cfg.adminKeys_nodup
      · exact hauth _ _ cfg.adminKeys_nodup
      · exact List.nodup_nil

end Anticheat
