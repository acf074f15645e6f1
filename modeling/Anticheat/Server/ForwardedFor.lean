import Anticheat.Server.Service

/-!
# The address of a client behind a proxy

With {lit}`--trust-proxy` the server takes the client's address from the header
{lit}`X-Forwarded-For`.  A client may send any number of such lines of its own, with any
commas in them.  A proxy adds the address of its peer behind them: after a comma on the
last line, or as a line of its own.

Main results:

- Theorem {lit}`clientIp_of_endsWithHop`: the address is the hop that the proxy added, or
  the proxy's own address if the hop is none.
- Theorem {lit}`forwarded_address_unforgeable`: what the client sends before that hop
  chooses neither its bucket in the rate limiter nor the address that is stored.
-/

namespace Anticheat

open Foundation

/-- A hop with white space around it; a hop has no comma. -/
structure PaddedHop (hop t : PyStr) : Prop where
  noComma : 44 ∉ hop
  padded : ∃ pre post, (∀ c ∈ pre, PyStr.isSpace c = true) ∧
    (∀ c ∈ post, PyStr.isSpace c = true) ∧ t = pre ++ hop ++ post

/-- The lines of a header to which a proxy has added a hop. -/
inductive EndsWithHop (hop : PyStr) : List PyStr → Prop where
  /-- as a line of its own -/
  | newLine (lines : List PyStr) {t : PyStr} : PaddedHop hop t → EndsWithHop hop (lines ++ [t])
  /-- behind a comma on the last line -/
  | appended (lines : List PyStr) (last : PyStr) {t : PyStr} : PaddedHop hop t →
      EndsWithHop hop (lines ++ [last ++ 44 :: t])

theorem PaddedHop.strip_eq {hop t : PyStr} (h : PaddedHop hop t) :
    PyStr.strip t = PyStr.strip hop := by
  rcases h.padded with ⟨pre, post, hpre, hpost, rfl⟩
  exact PyStr.strip_pad hpre hpost hop

theorem PaddedHop.not_mem {hop t : PyStr} (h : PaddedHop hop t) : 44 ∉ t := by
  rcases h.padded with ⟨pre, post, hpre, hpost, rfl⟩
  intro hmem
  rcases List.mem_append.1 hmem with hmem | hmem
  · rcases List.mem_append.1 hmem with hmem | hmem
    · exact absurd (hpre 44 hmem) (by decide)
    · exact h.noComma hmem
  · exact absurd (hpost 44 hmem) (by decide)

/-- The text behind the last comma of the joined lines is the hop. -/
theorem EndsWithHop.afterLast_join {hop : PyStr} {lines : List PyStr} (h : EndsWithHop hop lines) :
    PyStr.strip (PyStr.afterLast 44 (PyStr.join [44] lines)) = PyStr.strip hop := by
  cases h with
  | newLine lines ht =>
      rename_i t
      have hlast : PyStr.afterLast 44 (PyStr.join [44] (lines ++ [t])) = t := by
        rcases PyStr.join_concat 44 lines t with hjoin | ⟨s, hjoin⟩
        · rw [hjoin, PyStr.afterLast_of_not_mem ht.not_mem]
        · rw [hjoin, PyStr.afterLast_append ht.not_mem]
      rw [hlast, ht.strip_eq]
  | appended lines last ht =>
      rename_i t
      have hlast : PyStr.afterLast 44 (PyStr.join [44] (lines ++ [last ++ 44 :: t])) = t := by
        rcases PyStr.join_concat 44 lines (last ++ 44 :: t) with hjoin | ⟨s, hjoin⟩
        · rw [hjoin, PyStr.afterLast_append ht.not_mem]
        · have hassoc : s ++ 44 :: (last ++ 44 :: t) = (s ++ 44 :: last) ++ 44 :: t := by simp
          rw [hjoin, hassoc, PyStr.afterLast_append ht.not_mem]
      rw [hlast, ht.strip_eq]

theorem EndsWithHop.ne_nil {hop : PyStr} {lines : List PyStr} (h : EndsWithHop hop lines) :
    lines ≠ [] := by
  cases h <;> simp

/-- Behind a proxy the address is the last hop, if that is an address. -/
theorem clientIp_of_endsWithHop {cfg : ServerConfig} (htrust : cfg.trustProxy = true)
    {req : HttpRequest} {hop : PyStr} (h : EndsWithHop hop (req.headerAll "X-Forwarded-For")) :
    clientIp cfg req =
      if cfg.validIp (PyStr.strip hop) then PyStr.strip hop else req.clientAddress := by
  have hlast := h.afterLast_join
  have hne := h.ne_nil
  unfold clientIp
  rw [htrust]
  cases hlines : req.headerAll "X-Forwarded-For" with
  | nil => contradiction
  | cons line lines =>
      rw [hlines] at hlast
      simp only [Bool.not_true, Bool.false_eq_true, if_false, hlast]

theorem clientIp_of_not_trustProxy {cfg : ServerConfig} (htrust : cfg.trustProxy = false)
    (req : HttpRequest) : clientIp cfg req = req.clientAddress := by
  simp [clientIp, htrust]

/-- A report is stored under the client's address. -/
theorem handle_addReport_sourceAddr {cfg : ServerConfig} {req : HttpRequest}
    {clientId eventType detail sourceAddr : PyStr} {ts : PyVal}
    (h : (handle cfg req).2 = .ok (.store (.addReport clientId eventType detail ts sourceAddr))) :
    sourceAddr = clientIp cfg req := by
  cases handle_store h with
  | addReport hrequest =>
      cases hrequest 0
      rfl

/-- Behind a proxy, two requests of one peer to which the proxy added the same hop have
the same address, whatever the client sent before the hop: the rate limiter counts them
in the same bucket, and their reports are stored under the same address.  Without a proxy
the address is that of the peer. -/
theorem forwarded_address_unforgeable (cfg : ServerConfig) :
    (cfg.trustProxy = true → ∀ (req req' : HttpRequest) (hop : PyStr),
      req.clientAddress = req'.clientAddress →
      EndsWithHop hop (req.headerAll "X-Forwarded-For") →
      EndsWithHop hop (req'.headerAll "X-Forwarded-For") →
        clientIp cfg req =
          (if cfg.validIp (PyStr.strip hop) then PyStr.strip hop else req.clientAddress) ∧
        clientIp cfg req' = clientIp cfg req ∧
        (∀ (s : Service) (now : ℚ), (s.step cfg (.arrive req' now)).limiter =
          (s.step cfg (.arrive req now)).limiter) ∧
        ∀ clientId eventType detail ts addr clientId' eventType' detail' ts' addr',
          (handle cfg req).2 = .ok (.store (.addReport clientId eventType detail ts addr)) →
          (handle cfg req').2 = .ok (.store (.addReport clientId' eventType' detail' ts' addr')) →
          addr' = addr) ∧
    (cfg.trustProxy = false → ∀ req : HttpRequest, clientIp cfg req = req.clientAddress) := by
  refine ⟨?_, clientIp_of_not_trustProxy⟩
  intro htrust req req' hop hpeer h h'
  have hip := clientIp_of_endsWithHop htrust h
  have hsame : clientIp cfg req' = clientIp cfg req := by
    rw [hip, clientIp_of_endsWithHop htrust h', hpeer]
  refine ⟨hip, hsame, ?_, ?_⟩
  · intro s now
    simp only [Service.step, hsame]
  · intro clientId eventType detail ts addr clientId' eventType' detail' ts' addr' hstore hstore'
    rw [handle_addReport_sourceAddr hstore, handle_addReport_sourceAddr hstore', hsame]

/-- A server behind a proxy, for which every text is an address. -/
def proxyConfig : ServerConfig :=
  { twoKeyConfig with trustProxy := true, validIp := fun _ => true }

/-- A request that came through a proxy with some header lines. -/
def proxiedRequest (lines : List PyStr) : HttpRequest where
  command := .get
  path := PyStr.ofString "/banned/x"
  headers := lines.map fun line => (PyStr.ofString "X-Forwarded-For", line)
  clientAddress := PyStr.ofString "10.0.0.1"
  body := []

/-- One client sends nothing of its own, the other two lines with a comma; the proxy adds
the same hop to both, to the second one on the last line. -/
theorem forwarded_two_requests :
    clientIp proxyConfig (proxiedRequest
      [PyStr.ofString "1.1.1.1", PyStr.ofString "2.2.2.2,3.3.3.3, 9.9.9.9"]) =
    clientIp proxyConfig (proxiedRequest [PyStr.ofString "9.9.9.9"]) := by
  have hhop : (44 : Nat) ∉ PyStr.ofString "9.9.9.9" := by decide
  have hown : PaddedHop (PyStr.ofString "9.9.9.9") (PyStr.ofString "9.9.9.9") :=
    ⟨hhop, [], [], by simp, by simp, by simp⟩
  have hspace : PaddedHop (PyStr.ofString "9.9.9.9") (PyStr.ofString " 9.9.9.9") :=
    ⟨hhop, [32], [], by decide, by simp, rfl⟩
  have hend : EndsWithHop (PyStr.ofString "9.9.9.9")
      ((proxiedRequest [PyStr.ofString "9.9.9.9"]).headerAll "X-Forwarded-For") :=
    .newLine [] hown
  have hend' : EndsWithHop (PyStr.ofString "9.9.9.9")
      ((proxiedRequest [PyStr.ofString "1.1.1.1",
        PyStr.ofString "2.2.2.2,3.3.3.3, 9.9.9.9"]).headerAll "X-Forwarded-For") :=
    .appended [PyStr.ofString "1.1.1.1"] (PyStr.ofString "2.2.2.2,3.3.3.3") hspace
  exact ((forwarded_address_unforgeable proxyConfig).1 rfl _ _ _ (by decide) hend hend').2.1

end Anticheat
