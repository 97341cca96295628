import CurlWs.Handshake.Headers

/-!
# The upgrade

Two headers of the answer say that the protocol changes: "Connection: upgrade" and "Upgrade:
websocket".  `_check_connection` and `_check_upgrade` keep a flag for each, which nothing reads: at
the end of the headers `_header_cb` asks for the key alone.

**What is to be refused.**  A response without one of the flags is refused if `on_connect` is not
called at its end, and curl is told to stop (`RefusesUnlessUpgraded`).  Both are stated for every
end of headers in a run, not for the last one only.

**When it is.**  In every run a flag is what the lines state (`upgrade_iff`), and the end of the
headers goes by the key (`headerCb_crlf`).  So the responses that are not refused are those with the
expected key, and nothing goes wrong exactly if each of them states the upgrade.

* **`refuses_iff_stated`** — the two flags are set whenever `on_connect` is called, as long as every
  response with the expected key states the upgrade.
-/

namespace CurlWs

variable {env : Env} {cfg : Cfg}

/-- Both flags are set. -/
def HeaderMap.Upgrade (h : HeaderMap) : Prop := h.upgraded = true ∧ h.connectionWebsocket = true

/-- Without the flags there is no upgrade: `on_connect` is not called, and curl is told to stop at
the end of the headers. -/
structure RefusesUnlessUpgraded (env : Env) (cfg : Cfg) (acts : List Action) : Prop where
  connected : ∀ acts₁ a acts₂, acts = acts₁ ++ a :: acts₂ →
    Connects env (run env (Cws.fresh cfg) acts₁) a →
      (run env (Cws.fresh cfg) acts₁).headerState.Upgrade
  refused : ∀ acts₁ acts₂, acts = acts₁ ++ .header crlf 101 curlHttpVersion11 :: acts₂ →
    ¬ (run env (Cws.fresh cfg) acts₁).headerState.Upgrade →
      (headerCb env (run env (Cws.fresh cfg) acts₁) crlf 101 curlHttpVersion11).1 = 0

/-- The end of the headers: curl goes on if the key has been accepted, and stops otherwise. -/
lemma headerCb_crlf (s : Cws) :
    (headerCb env s crlf 101 curlHttpVersion11).1 = if s.headerState.accepted then 2 else 0 := by
  have hprocess (s' : Cws) : (processHeader env s' crlf 101 curlHttpVersion11).1
      = if s'.headerState.accepted then 2 else 0 := by
    simp only [processHeader, ne_eq, not_true, or_self, if_false]
    rw [if_pos (show crlf = [0x0d, 0x0a] from rfl)]
    cases s'.headerState.accepted with
    | false => rfl
    | true => rfl
  by_cases hfollow : s.cfg.followRedirects = true
  · rw [headerCb, if_pos hfollow, if_neg (by omega)]
    exact hprocess _
  · rw [headerCb, if_neg hfollow]
    exact hprocess s

/-- The flags of the two headers. -/
lemma upgrade_iff (acts : List Action) : (run env (Cws.fresh cfg) acts).headerState.Upgrade ↔
    Fact.upgraded.Stated cfg (processedLines cfg acts) ∧
      Fact.connectionWebsocket.Stated cfg (processedLines cfg acts) := by
  have hflag := (flag_run env cfg acts).flag
  exact and_congr (hflag .upgraded) (hflag .connectionWebsocket)

/-- **The upgrade is refused without the two headers, exactly if no response has the expected key
without them.** -/
theorem refuses_iff_stated (acts : List Action) : RefusesUnlessUpgraded env cfg acts ↔
    ∀ acts₁ acts₂, acts = acts₁ ++ .header crlf 101 curlHttpVersion11 :: acts₂ →
      Fact.accepted.Stated cfg (processedLines cfg acts₁) →
        Fact.upgraded.Stated cfg (processedLines cfg acts₁) ∧
          Fact.connectionWebsocket.Stated cfg (processedLines cfg acts₁) := by
  have haccepted (acts₁ : List Action) :
      (run env (Cws.fresh cfg) acts₁).headerState.accepted = true ↔
        Fact.accepted.Stated cfg (processedLines cfg acts₁) :=
    (flag_run env cfg acts₁).flag .accepted
  constructor
  · intro h acts₁ acts₂ hacts hkey
    have hflags : (run env (Cws.fresh cfg) acts₁).headerState.Upgrade := by
      by_contra hno
      have hzero := h.refused acts₁ acts₂ hacts hno
      rw [headerCb_crlf, if_pos ((haccepted acts₁).mpr hkey)] at hzero
      cases hzero
    exact (upgrade_iff acts₁).mp hflags
  · intro h
    refine ⟨fun acts₁ a acts₂ hacts hconnects => ?_, fun acts₁ acts₂ hacts hno => ?_⟩
    · obtain ⟨rfl, hkey, -⟩ := connects_iff.mp hconnects
      exact (upgrade_iff acts₁).mpr (h acts₁ acts₂ hacts ((haccepted acts₁).mp hkey))
    · have hkey : ¬ (run env (Cws.fresh cfg) acts₁).headerState.accepted = true := by
        intro hkey
        exact hno ((upgrade_iff acts₁).mpr (h acts₁ acts₂ hacts ((haccepted acts₁).mp hkey)))
      rw [headerCb_crlf, if_neg hkey]

/-- A status line, the key and the end of the headers are enough. -/
theorem connects_without_upgrade :
    let cfg : Cfg := { expectedKeyHeader := [0x78, 0x79] }
    ¬ RefusesUnlessUpgraded .quiet cfg
      [.header (httpPrefix ++ [0x31]) 101 curlHttpVersion11,
        .header (acceptPrefix ++ [0x20, 0x78, 0x79] ++ crlf) 101 curlHttpVersion11,
        .header crlf 101 curlHttpVersion11] := by
  intro cfg h
  have hflags := h.connected
    [.header (httpPrefix ++ [0x31]) 101 curlHttpVersion11,
      .header (acceptPrefix ++ [0x20, 0x78, 0x79] ++ crlf) 101 curlHttpVersion11]
    (.header crlf 101 curlHttpVersion11) [] rfl (by rw [Connects]; decide +kernel)
  exact absurd hflags.1 (by decide +kernel)

end CurlWs
