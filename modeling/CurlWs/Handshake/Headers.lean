import CurlWs.Receive.Effect

/-!
# Headers

`_header_cb` is given the lines of every response on a connection and keeps three facts about the
last one in flags.  Each flag is compared with the last header that states its fact.

**Which lines count.**  A line is skipped while curl follows a redirection, and rejected unless it
belongs to `HTTP/1.1 101` (`Processed`).  A status line among the processed ones starts over: what
was stated before it is forgotten (`sinceStatusLine`).

**Three facts, one lemma.**  The accepted key, the upgrade and the connection are entries of a table
in the source, a name and a function for each.  `Fact` has the flag, the name and the values that
suit, and every lemma is about any of them.  The functions of the other names leave a flag alone
(`flag_runChecker`), its own sets it by the value (`flag_runChecker_own`).

**One step, every run.**  A processed line takes the flag to `Fact.next` (`read_headerCb`), every
other action leaves it alone (`heeds_step`), and in every run the flags go by the lines
(`flag_run`).

## Main results

* **`flag_run`** — in every run, a flag is set if the last such header since the last status line
  has a value that suits it, and not otherwise.
* **`connects_iff`** — `on_connect` is called at the end of the headers, if the key has been
  accepted.
-/

namespace CurlWs

/-- The line that ends the headers. -/
def crlf : List Byte := [0x0d, 0x0a]

/-- A line is skipped while curl follows a redirection, and rejected unless it is part of
`HTTP/1.1 101`; otherwise it is processed. -/
def Processed (cfg : Cfg) (status version : ℤ) : Prop :=
  ¬ (cfg.followRedirects = true ∧ 300 ≤ status ∧ status ≤ 399) ∧
    status = 101 ∧ version = curlHttpVersion11

instance (cfg : Cfg) (status version : ℤ) : Decidable (Processed cfg status version) :=
  inferInstanceAs (Decidable (_ ∧ _))

/-- The line an action gives to `_header_cb`, if it is processed. -/
def Action.processed (cfg : Cfg) : Action → Option (List Byte)
  | .header line status version => if Processed cfg status version then some line else none
  | _ => none

/-- The processed lines of a run. -/
def processedLines (cfg : Cfg) (acts : List Action) : List (List Byte) :=
  acts.filterMap (Action.processed cfg)

/-- The lines after the last status line. -/
def sinceStatusLine (lines : List (List Byte)) : List (List Byte) :=
  lines.rtakeWhile fun line => !cwsHasPrefix line httpPrefix

/-- The last header of a name in the last response. -/
def lastHeader (pre : List Byte) (lines : List (List Byte)) : Option (List Byte) :=
  ((sinceStatusLine lines).filter fun line => cwsHasPrefix line pre).getLast?

/-! ## The three facts

A fact is a flag in `struct header_map`, the name of the header that states it and the values that
do. -/

/-- What has to be known for a handshake. -/
inductive Fact where
  | accepted
  | upgraded
  | connectionWebsocket
  deriving DecidableEq, Repr

namespace Fact

/-- Where `struct header_map` keeps it. -/
def flag : Fact → HeaderMap → Bool
  | .accepted, h => h.accepted
  | .upgraded, h => h.upgraded
  | .connectionWebsocket, h => h.connectionWebsocket

/-- The name of the header that states it. -/
def header : Fact → List Byte
  | .accepted => acceptPrefix
  | .upgraded => connectionPrefix
  | .connectionWebsocket => upgradePrefix

/-- The values of the header that suit. -/
def suits (cfg : Cfg) : Fact → List Byte → Bool
  | .accepted, value => value = cfg.expectedKeyHeader
  | .upgraded, value =>
      cwsStrncasecmp value (ascii ['u', 'p', 'g', 'r', 'a', 'd', 'e']) value.length = 0
  | .connectionWebsocket, value =>
      cwsStrncasecmp value (ascii ['w', 'e', 'b', 's', 'o', 'c', 'k', 'e', 't']) value.length = 0

/-- The last response states it. -/
def Stated (cfg : Cfg) (lines : List (List Byte)) (fact : Fact) : Prop :=
  ∃ line, lastHeader fact.header lines = some line ∧
    fact.suits cfg (headerValue line fact.header) = true

end Fact

/-! ## Lines

The lines of a run, and what one line more means for a fact. -/

lemma processedLines_concat (cfg : Cfg) (acts : List Action) (a : Action) :
    processedLines cfg (acts ++ [a]) = processedLines cfg acts ++ (a.processed cfg).toList := by
  rw [processedLines, List.filterMap_append, processedLines]
  cases h : a.processed cfg with
  | none => rw [List.filterMap_cons_none h]; rfl
  | some line => rw [List.filterMap_cons_some h]; rfl

/-- The last header of a name has the name as its prefix. -/
lemma hasPrefix_of_lastHeader {pre line : List Byte} {lines : List (List Byte)}
    (h : lastHeader pre lines = some line) : cwsHasPrefix line pre = true :=
  (List.mem_filter.mp (List.mem_of_getLast? h)).2

/-- A line more: a status line forgets, a header of the name replaces, any other line passes. -/
lemma lastHeader_concat (pre : List Byte) (lines : List (List Byte)) (line : List Byte) :
    lastHeader pre (lines ++ [line]) =
      if cwsHasPrefix line httpPrefix then none
      else if cwsHasPrefix line pre then some line
      else lastHeader pre lines := by
  rw [lastHeader, sinceStatusLine, List.rtakeWhile_concat]
  split_ifs with hnot hstatus hpre hstatus hpre
  · rw [hstatus] at hnot
    cases hnot
  · rw [List.filter_append, List.filter_singleton, hpre, cond_true, List.getLast?_concat]
  · rw [List.filter_append, List.filter_singleton, Bool.eq_false_of_not_eq_true hpre, cond_false,
      List.append_nil]
    rfl
  · rfl
  · exact absurd (Bool.not_eq_true' _ |>.mpr (Bool.eq_false_of_not_eq_true hstatus)) hnot
  · exact absurd (Bool.not_eq_true' _ |>.mpr (Bool.eq_false_of_not_eq_true hstatus)) hnot

/-- A processed line, as far as a flag is concerned. -/
def Fact.next (cfg : Cfg) (fact : Fact) (line : List Byte) (flag : Bool) : Bool :=
  if cwsHasPrefix line httpPrefix then false
  else if cwsHasPrefix line fact.header then fact.suits cfg (headerValue line fact.header)
  else flag

/-- A flag that goes by the lines so far goes by one more. -/
lemma stated_concat {cfg : Cfg} {fact : Fact} {lines : List (List Byte)} {flag : Bool}
    (h : flag = true ↔ fact.Stated cfg lines) (line : List Byte) :
    fact.next cfg line flag = true ↔ fact.Stated cfg (lines ++ [line]) := by
  rw [Fact.Stated, lastHeader_concat, Fact.next]
  split_ifs with hstatus hpre
  · refine ⟨fun hf => absurd hf id, ?_⟩
    rintro ⟨_, hnone, _⟩
    cases hnone
  · refine ⟨fun hsuits => ⟨line, rfl, hsuits⟩, ?_⟩
    rintro ⟨line', hline, hsuits⟩
    obtain rfl := Option.some.inj hline
    exact hsuits
  · exact h

/-! ## One line

A line passes through the whole table, so through a function that sets the flag and several that do
not. -/

/-- A function of the table that leaves a flag alone. -/
lemma flag_runChecker (fact : Fact) (check : Cws → List Byte → Cws)
    (h : ∀ s value, fact.flag (check s value).headerState = fact.flag s.headerState)
    (line pre : List Byte) (s : Cws) :
    fact.flag (runChecker line s (pre, check)).headerState = fact.flag s.headerState := by
  rw [runChecker]
  split_ifs
  · exact h s _
  · rfl

/-- The function of the table that sets it. -/
lemma flag_runChecker_own (fact : Fact) (check : Cws → List Byte → Cws)
    (h : ∀ s value, fact.flag (check s value).headerState = fact.suits s.cfg value)
    (line pre : List Byte) (s : Cws) :
    fact.flag (runChecker line s (pre, check)).headerState =
      if cwsHasPrefix line pre then fact.suits s.cfg (headerValue line pre)
      else fact.flag s.headerState := by
  rw [runChecker]
  split_ifs
  · exact h s _
  · rfl

/-- The table of headers sets each flag by its own header. -/
lemma flag_headerCheckers (fact : Fact) (line : List Byte) (s : Cws) :
    fact.flag (headerCheckers.foldl (runChecker line) s).headerState =
      if cwsHasPrefix line fact.header then fact.suits s.cfg (headerValue line fact.header)
      else fact.flag s.headerState := by
  simp only [headerCheckers, List.foldl_cons, List.foldl_nil]
  cases fact with
  | accepted =>
      rw [flag_runChecker .accepted checkUpgrade fun _ _ => rfl,
        flag_runChecker .accepted checkConnection fun _ _ => rfl,
        flag_runChecker .accepted checkProtocol fun _ _ => rfl,
        flag_runChecker_own .accepted checkAccept fun _ _ => rfl]
      rfl
  | upgraded =>
      rw [flag_runChecker .upgraded checkUpgrade fun _ _ => rfl,
        flag_runChecker_own .upgraded checkConnection fun _ _ => rfl,
        flag_runChecker .upgraded checkProtocol fun _ _ => rfl,
        flag_runChecker .upgraded checkAccept fun _ _ => rfl]
      rfl
  | connectionWebsocket =>
      rw [flag_runChecker_own .connectionWebsocket checkUpgrade fun _ _ => rfl,
        flag_runChecker .connectionWebsocket checkConnection fun _ _ => rfl,
        flag_runChecker .connectionWebsocket checkProtocol fun _ _ => rfl,
        flag_runChecker .connectionWebsocket checkAccept fun _ _ => rfl]
      rfl

/-- The end of the headers states nothing. -/
lemma next_crlf (cfg : Cfg) (fact : Fact) (flag : Bool) : fact.next cfg crlf flag = flag := by
  have hstatus : cwsHasPrefix crlf httpPrefix = false := by decide
  have hheader : cwsHasPrefix crlf fact.header = false := by cases fact <;> decide
  rw [Fact.next, hstatus, hheader]
  rfl

/-- A user function that is called on the way does not touch the handshake. -/
lemma fixed_call {s s' : Cws} {installed : Bool} {c : Callback}
    (h : s'.view = s.enterDispatch.view.call installed c) :
    s'.leaveDispatch.view.fixed = s.view.fixed := by
  rw [view_leaveDispatch, h]
  exact View.fixed_call ..

/-- What is left of a line that has been read. -/
structure Read (s s' : Cws) (line : List Byte) : Prop where
  cfg : s'.cfg = s.cfg
  flag : ∀ fact : Fact, fact.flag s'.headerState = fact.next s.cfg line (fact.flag s.headerState)

/-- The line at the end of the headers leaves the handshake alone. -/
lemma read_crlf {s s' : Cws} (h : s'.view.fixed = s.view.fixed) : Read s s' crlf := by
  obtain ⟨hcfg, hstate⟩ := Prod.mk.inj h
  refine ⟨hcfg, fun fact => ?_⟩
  rw [next_crlf]
  exact congrArg fact.flag hstate

/-- A line of the right response, whatever it is. -/
lemma read_processHeader (env : Env) (s : Cws) (line : List Byte) :
    Read s (processHeader env s line 101 curlHttpVersion11).2 line := by
  simp only [processHeader, ne_eq, not_true, or_self, if_false]
  split_ifs with hcrlf haccepted hstatus
  · rw [hcrlf]
    exact read_crlf (fixed_call (view_cbOnClose ..))
  · rw [hcrlf]
    exact read_crlf (fixed_call (view_cbOnConnect ..))
  · refine ⟨rfl, fun fact => ?_⟩
    rw [Fact.next, if_pos hstatus]
    cases fact <;> rfl
  · refine ⟨?_, fun fact => ?_⟩
    · obtain ⟨h, hs'⟩ := foldl_runChecker line s
      rw [hs']
    · rw [Fact.next, if_neg hstatus]
      exact flag_headerCheckers fact line s

/-- The note about redirection plays no part. -/
lemma Read.redirection {s s' : Cws} {line : List Byte} (b : Bool)
    (h : Read { s with headerState := { s.headerState with redirection := b } } s' line) :
    Read s s' line := by
  refine ⟨h.cfg, fun fact => (h.flag fact).trans ?_⟩
  cases fact <;> rfl

/-- **A processed line.** -/
theorem read_headerCb {s : Cws} {status version : ℤ} (h : Processed s.cfg status version)
    (env : Env)
    (line : List Byte) : Read s (headerCb env s line status version).2 line := by
  obtain ⟨hredirect, rfl, rfl⟩ := h
  simp only [headerCb]
  split_ifs with hfollow hstatus
  · exact absurd ⟨hfollow, hstatus⟩ hredirect
  · exact (read_processHeader env _ line).redirection false
  · exact read_processHeader env s line

/-- Any other line. -/
lemma headerCb_unprocessed {s : Cws} {status version : ℤ} (h : ¬ Processed s.cfg status version)
    (env : Env) (line : List Byte) :
    ∃ b, (headerCb env s line status version).2
      = { s with headerState := { s.headerState with redirection := b } } := by
  have hreject (s' : Cws) (hr : ¬ (s.cfg.followRedirects = true ∧ 300 ≤ status ∧ status ≤ 399)) :
      (processHeader env s' line status version).2 = s' := by
    have hbad : status ≠ 101 ∨ version ≠ curlHttpVersion11 := by
      by_contra hgood
      exact h ⟨hr, not_not.mp (not_or.mp hgood).1, not_not.mp (not_or.mp hgood).2⟩
    rw [processHeader, if_pos hbad]
  simp only [headerCb]
  split_ifs with hfollow hstatus
  · exact ⟨true, rfl⟩
  · exact ⟨false, hreject _ fun hr => hstatus hr.2⟩
  · exact ⟨s.headerState.redirection, hreject s fun hr => hfollow hr.1⟩

/-! ## Every run

Only a header line changes the flags: the stream, the calls of the user and the timing of curl leave
them alone.  A run counts up to where its object is freed (`Run`). -/

/-- The flags go by the lines. -/
structure Heeds (cfg : Cfg) (lines : List (List Byte)) (s : Cws) : Prop where
  cfg_eq : s.cfg = cfg
  flag : ∀ fact : Fact, fact.flag s.headerState = true ↔ fact.Stated cfg lines

/-- Whatever leaves the handshake alone keeps the flags. -/
lemma Heeds.fixed {cfg : Cfg} {lines : List (List Byte)} {s s' : Cws} (h : Heeds cfg lines s)
    (hfixed : s'.view.fixed = s.view.fixed) : Heeds cfg lines s' := by
  obtain ⟨hcfg, hstate⟩ := Prod.mk.inj hfixed
  have hstate' : s'.headerState = s.headerState := hstate
  refine ⟨hcfg.trans h.cfg_eq, fun fact => ?_⟩
  rw [hstate']
  exact h.flag fact

/-- What no iteration of the receive loop changes. -/
lemma receiveCb_same {γ : Type*} {φ : View → γ} {env : Env}
    (h : ∀ s buf, φ (cwsProcessFrame env s buf).1.view = φ s.view) (s : Cws) (buf : List Byte) :
    φ (receiveCb env s buf).2.view = φ s.view := by
  have hloop (fuel : ℕ) : ∀ (s : Cws) (buf : List Byte),
      φ (receiveLoop env fuel s buf).view = φ s.view := by
    induction fuel with
    | zero =>
        intro s buf
        rfl
    | succ fuel ih =>
        intro s buf
        rw [receiveLoop]
        split_ifs
        · simp only
          split_ifs
          · exact h s buf
          · exact (ih _ _).trans (h s buf)
        · rfl
  simp only [receiveCb]
  split_ifs
  · rfl
  · rfl
  · rfl
  · exact hloop _ _ _

/-- The stream has no part in the handshake. -/
lemma fixed_receiveCb (env : Env) (s : Cws) (buf : List Byte) :
    (receiveCb env s buf).2.view.fixed = s.view.fixed := by
  refine receiveCb_same (fun s buf => ?_) s buf
  obtain ⟨r, w, heffect, hview⟩ := effect_processFrame env s buf
  rw [hview]
  exact heffect.fixed

/-- **Every action.** -/
theorem heeds_step {cfg : Cfg} {lines : List (List Byte)} {s : Cws} (h : Heeds cfg lines s)
    (env : Env) (a : Action) : Heeds cfg (lines ++ (a.processed cfg).toList) (step env s a) := by
  cases a with
  | api c =>
      rw [show (Action.api c).processed cfg = none from rfl, Option.toList_none, List.append_nil]
      exact h.fixed (congrArg View.fixed (view_apiCall env s c))
  | send len =>
      rw [show (Action.send len).processed cfg = none from rfl, Option.toList_none, List.append_nil]
      exact h.fixed (congrArg View.fixed (view_sendCb s len))
  | receive buf =>
      rw [show (Action.receive buf).processed cfg = none from rfl, Option.toList_none,
        List.append_nil]
      exact h.fixed (fixed_receiveCb env s buf)
  | header line status version =>
      by_cases hp : Processed cfg status version
      · have hread := read_headerCb (h.cfg_eq ▸ hp) env line
        rw [show (Action.header line status version).processed cfg = some line from if_pos hp]
        refine ⟨hread.cfg.trans h.cfg_eq, fun fact => ?_⟩
        rw [step, hread.flag fact, h.cfg_eq]
        exact stated_concat (h.flag fact) line
      · obtain ⟨b, hsame⟩ := headerCb_unprocessed (h.cfg_eq ▸ hp) env line
        rw [show (Action.header line status version).processed cfg = none from if_neg hp,
          Option.toList_none, List.append_nil, step, hsame]
        refine ⟨h.cfg_eq, fun fact => ?_⟩
        rw [← h.flag fact]
        cases fact <;> rfl

/-- **In every run, the flags go by the lines that have been processed.** -/
theorem flag_run (env : Env) (cfg : Cfg) (acts : List Action) :
    Heeds cfg (processedLines cfg acts) (run env (Cws.fresh cfg) acts) := by
  induction acts using List.reverseRecOn with
  | nil =>
      refine ⟨rfl, fun fact => ⟨fun h => ?_, ?_⟩⟩
      · cases fact <;> cases h
      · rintro ⟨_, hnone, _⟩
        cases hnone
  | append_singleton acts a ih =>
      rw [processedLines_concat, run_concat]
      exact heeds_step ih env a

/-! ## `on_connect`

The calls of one function are read off the trace of events. -/

/-- A call of `on_connect`. -/
def Event.connectCall : Event → Option (Option (List Byte))
  | .callback (.onConnect protocols) _ => some protocols
  | _ => none

/-- The calls of `on_connect`. -/
def onConnects (trace : List Event) : List (Option (List Byte)) := trace.filterMap Event.connectCall

/-- `on_connect` is called in the course of an action. -/
def Connects (env : Env) (s : Cws) (a : Action) : Prop :=
  onConnects (step env s a).trace ≠ onConnects s.trace

/-- The calls are the same in the view. -/
lemma onConnects_view (s : Cws) : onConnects s.view.trace = onConnects s.trace := by
  rw [Cws.view, onConnects, onConnects, List.filterMap_filter]
  refine congrArg (List.filterMap · s.trace) (funext fun e => ?_)
  cases e <;> rfl

/-- No event of the stream is a call of `on_connect`. -/
lemma overlooks_connectCall : Overlooks Event.connectCall where
  payload _ := rfl
  closing _ := rfl
  frame _ _ := rfl
  write _ _ := rfl
  call c d hc _ := by
    cases c with
    | onConnect protocols => exact absurd rfl (hc protocols)
    | _ => rfl

/-- The stream calls other functions only. -/
lemma onConnects_receiveCb (env : Env) (s : Cws) (buf : List Byte) :
    onConnects (receiveCb env s buf).2.view.trace = onConnects s.view.trace := by
  refine receiveCb_same (φ := fun v => onConnects v.trace) (fun s buf => ?_) s buf
  obtain ⟨r, w, heffect, hview⟩ := effect_processFrame env s buf
  rw [hview]
  rcases overlooks_connectCall.effect heffect with ⟨p, -, rfl⟩ | hsame
  · refine (overlooks_connectCall.sendFragment _ _ _).trans ?_
    rw [Overlooks.log _ (overlooks_connectCall.payload p)]
    split_ifs <;> exact List.append_nil _
  · exact hsame

/-- A line of the right response: `on_connect` at the end of the headers, once. -/
lemma onConnects_processHeader (env : Env) (s : Cws) (line : List Byte) :
    onConnects (processHeader env s line 101 curlHttpVersion11).2.view.trace
      = onConnects s.view.trace ++
        if line = crlf ∧ s.headerState.accepted = true ∧ s.cfg.cb.onConnect = true then
          [s.headerState.wsProtocolsReceived]
        else [] := by
  simp only [processHeader, ne_eq, not_true, or_self, if_false]
  by_cases hcrlf : line = crlf
  · rw [if_pos (show line = [0x0d, 0x0a] from hcrlf)]
    cases haccepted : s.headerState.accepted with
    | false =>
        rw [if_pos (show (!false) = true from rfl), if_neg fun h => Bool.false_ne_true h.2.1,
          List.append_nil]
        show onConnects (cbOnClose env s.enterDispatch _ _ _).view.trace = _
        rw [view_cbOnClose]
        exact Overlooks.installed _ (fun _ => rfl) _
    | true =>
        rw [if_neg (show ¬ (!true) = true from Bool.false_ne_true)]
        show onConnects (cbOnConnect env s.enterDispatch _).view.trace = _
        rw [view_cbOnConnect, View.call]
        show onConnects (ite (s.cfg.cb.onConnect = true) _ _ : View).trace = _
        split_ifs with hcb hno hno
        · rw [View.log, onConnects, List.filterMap_append]
          rfl
        · exact absurd ⟨hcrlf, rfl, hcb⟩ hno
        · exact absurd hno.2.2 hcb
        · exact (List.append_nil _).symm
  · have hno : ¬ (line = crlf ∧ s.headerState.accepted = true ∧ s.cfg.cb.onConnect = true) :=
      fun h => hcrlf h.1
    rw [if_neg (show ¬ line = [0x0d, 0x0a] from hcrlf), if_neg hno, List.append_nil]
    split_ifs
    · rfl
    · obtain ⟨h, hs'⟩ := foldl_runChecker line s
      rw [hs']
      rfl

/-- **`on_connect` is called at the end of the headers, if the key has been accepted.** -/
theorem connects_iff {env : Env} {s : Cws} {a : Action} :
    Connects env s a ↔ a = .header crlf 101 curlHttpVersion11 ∧ s.headerState.accepted = true ∧
      s.cfg.cb.onConnect = true := by
  rw [Connects, ← onConnects_view, ← onConnects_view]
  cases a with
  | api c =>
      rw [step, view_apiCall]
      exact ⟨fun h => absurd rfl h, fun h => by cases h.1⟩
  | send len =>
      rw [step, view_sendCb]
      exact ⟨fun h => absurd rfl h, fun h => by cases h.1⟩
  | receive buf =>
      rw [step, onConnects_receiveCb]
      exact ⟨fun h => absurd rfl h, fun h => by cases h.1⟩
  | header line status version =>
      by_cases hp : Processed s.cfg status version
      · obtain ⟨hredirect, rfl, rfl⟩ := hp
        have hcalls : onConnects (headerCb env s line 101 curlHttpVersion11).2.view.trace
            = onConnects s.view.trace ++
              if line = crlf ∧ s.headerState.accepted = true ∧ s.cfg.cb.onConnect = true then
                [s.headerState.wsProtocolsReceived]
              else [] := by
          by_cases hfollow : s.cfg.followRedirects = true
          · rw [headerCb, if_pos hfollow, if_neg fun hstatus => hredirect ⟨hfollow, hstatus⟩]
            exact onConnects_processHeader env _ line
          · rw [headerCb, if_neg hfollow]
            exact onConnects_processHeader env s line
        rw [step, hcalls]
        split_ifs with h
        · exact ⟨fun _ => ⟨by rw [h.1], h.2⟩, fun _ => by simp⟩
        · refine ⟨fun hne => absurd (List.append_nil _) hne, fun hall => absurd ?_ h⟩
          obtain ⟨hline, hrest⟩ := hall
          obtain ⟨rfl, -, -⟩ := Action.header.inj hline
          exact ⟨rfl, hrest⟩
      · obtain ⟨b, hsame⟩ := headerCb_unprocessed hp env line
        rw [step, hsame]
        refine ⟨fun hne => absurd rfl hne, fun hall => absurd ?_ hp⟩
        obtain ⟨hline, -⟩ := hall
        obtain ⟨-, rfl, rfl⟩ := Action.header.inj hline
        exact ⟨by omega, rfl, rfl⟩

end CurlWs
