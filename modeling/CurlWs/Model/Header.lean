import CurlWs.Model.Receive

/-!
# The handshake

`header.c` and the string functions of `utils.c` it uses.  What `curl_easy_getinfo` reports for a
line, the response code and the HTTP version, is given with the line.

**Strings.**  A string is the bytes stored from its pointer on; `cwsStrncasecmp` reads bytes past
the end of the list as zero, which is how a string literal ends, and what it reads beyond that has
no meaning in C. `cwsStrncasecmpAt` is the same function on memory, and says how much of it has been
read.  `isspace` and `tolower` are those of the C locale, for a `char` that is signed.

**Lines.**  `_header_cb` is called once for each line of each response.  A status line clears what
has been found so far, an empty line is where the connection is accepted or refused, and any other
line is shown to the four functions of a table.  Whether a line has the name of a table entry is
asked of the trimmed line, while the value is cut off from the line as it came; the two are one
thing only if nothing is in front of the name.

**Redirections.**  While redirections are followed, all lines of a response with a code of the three
hundreds are left to curl, and the flag that remembers it also holds back the bytes of the body and
those to send.
-/

namespace CurlWs

/-! ## `utils.c`

The loop of `cws_strncasecmp` compares before it looks at the count, so that it is entered with at
least one byte to compare. -/

/-- `isspace` in the C locale. -/
def isSpace (b : Byte) : Bool := b = 0x20 || (0x09 ≤ b && b ≤ 0x0d)

/-- `cws_trim`. -/
def cwsTrim (s : List Byte) : List Byte :=
  ((s.dropWhile isSpace).reverse.dropWhile isSpace).reverse

/-- `tolower` in the C locale, of a `char` that is signed.  A byte from `0x80` on is a negative
argument, for which the table of the locale has the value of the byte, and `EOF` for the last. -/
def toLower (b : Byte) : ℤ :=
  if 0x41 ≤ b ∧ b ≤ 0x5a then b.toNat + 32 else if b = 0xff then -1 else b.toNat

/-- The `do`-`while` loop of `cws_strncasecmp`, entered with at least one byte to compare. -/
def strncasecmpLoop : ℕ → List Byte → List Byte → ℤ
  | 0, s1, s2 => toLower (s1.headD 0) - toLower (s2.headD 0)
  | n + 1, s1, s2 =>
      let c := toLower (s1.headD 0) - toLower (s2.headD 0)
      if c = 0 then strncasecmpLoop n s1.tail s2.tail else c

/-- `cws_strncasecmp`, of strings at different addresses. -/
def cwsStrncasecmp (s1 s2 : List Byte) (n : ℕ) : ℤ :=
  if n = 0 then 0 else strncasecmpLoop (n - 1) s1 s2

/-- What `cws_strncasecmp` returns, and how many bytes of each string it has read. -/
structure Compared where
  c : ℤ
  reads : ℕ
  deriving DecidableEq, Repr

/-- The `do`-`while` loop of `cws_strncasecmp` at the `i`th bytes, with `n` more to compare. -/
def strncasecmpLoopAt (s1 s2 : ℕ → Byte) : ℕ → ℕ → Compared
  | 0, i => ⟨toLower (s1 i) - toLower (s2 i), i + 1⟩
  | n + 1, i =>
      let c := toLower (s1 i) - toLower (s2 i)
      if c = 0 then strncasecmpLoopAt s1 s2 n (i + 1) else ⟨c, i + 1⟩

/-- `cws_strncasecmp`, of what is stored from two different addresses on. -/
def cwsStrncasecmpAt (s1 s2 : ℕ → Byte) (n : ℕ) : Compared :=
  if n = 0 then ⟨0, 0⟩ else strncasecmpLoopAt s1 s2 (n - 1) 0

/-- `cws_has_prefix`. -/
def cwsHasPrefix (s pre : List Byte) : Bool :=
  let t := cwsTrim s
  if t.length < pre.length then false else cwsStrncasecmp t pre pre.length = 0

/-- `cws_strndup`: up to the first NUL, and NULL for an empty limit. -/
def cwsStrndup (s : List Byte) (maxlen : ℕ) : Option (List Byte) :=
  if 0 < maxlen then some ((s.take maxlen).takeWhile (· ≠ 0)) else none

/-! ## `header.c`

The names of the table, the functions in it, and the callback. -/

/-- "Sec-WebSocket-Accept:" -/
def acceptPrefix : List Byte :=
  ascii ['S', 'e', 'c', '-', 'W', 'e', 'b', 'S', 'o', 'c', 'k', 'e', 't', '-', 'A', 'c', 'c', 'e',
    'p', 't', ':']

/-- "Sec-WebSocket-Protocol:" -/
def protocolPrefix : List Byte :=
  ascii ['S', 'e', 'c', '-', 'W', 'e', 'b', 'S', 'o', 'c', 'k', 'e', 't', '-', 'P', 'r', 'o', 't',
    'o', 'c', 'o', 'l', ':']

/-- "Connection:" -/
def connectionPrefix : List Byte :=
  ascii ['C', 'o', 'n', 'n', 'e', 'c', 't', 'i', 'o', 'n', ':']

/-- "Upgrade:" -/
def upgradePrefix : List Byte := ascii ['U', 'p', 'g', 'r', 'a', 'd', 'e', ':']

/-- "HTTP/" -/
def httpPrefix : List Byte := ascii ['H', 'T', 'T', 'P', '/']

/-- "server didn't accept the websocket upgrade" -/
def notAccepted : List Byte :=
  ascii ['s', 'e', 'r', 'v', 'e', 'r', ' ', 'd', 'i', 'd', 'n', Char.ofNat 0x27, 't', ' ', 'a', 'c',
    'c', 'e', 'p', 't', ' ', 't', 'h', 'e', ' ', 'w', 'e', 'b', 's', 'o', 'c', 'k', 'e', 't', ' ',
    'u', 'p', 'g', 'r', 'a', 'd', 'e']

/-- `_check_accept`. -/
def checkAccept (s : Cws) (value : List Byte) : Cws :=
  { s with headerState := { s.headerState with accepted := value = s.cfg.expectedKeyHeader } }

/-- `_check_protocol`. -/
def checkProtocol (s : Cws) (value : List Byte) : Cws :=
  { s with headerState :=
    { s.headerState with wsProtocolsReceived := cwsStrndup value value.length } }

/-- `_check_upgrade`. -/
def checkUpgrade (s : Cws) (value : List Byte) : Cws :=
  let websocket := ascii ['w', 'e', 'b', 's', 'o', 'c', 'k', 'e', 't']
  { s with headerState :=
    { s.headerState with
      connectionWebsocket := cwsStrncasecmp value websocket value.length = 0 } }

/-- `_check_connection`. -/
def checkConnection (s : Cws) (value : List Byte) : Cws :=
  let upgrade := ascii ['u', 'p', 'g', 'r', 'a', 'd', 'e']
  { s with headerState :=
    { s.headerState with upgraded := cwsStrncasecmp value upgrade value.length = 0 } }

/-- The table `header_checkers`. -/
def headerCheckers : List (List Byte × (Cws → List Byte → Cws)) :=
  [(acceptPrefix, checkAccept), (protocolPrefix, checkProtocol),
    (connectionPrefix, checkConnection), (upgradePrefix, checkUpgrade)]

/-- The value `_header_cb` hands to a checker: the offset is taken on the line as it came. -/
def headerValue (line pre : List Byte) : List Byte := cwsTrim (line.drop pre.length)

/-- One entry of the table against a line. -/
def runChecker (line : List Byte) (s : Cws) (c : List Byte × (Cws → List Byte → Cws)) : Cws :=
  if cwsHasPrefix line c.1 then c.2 s (headerValue line c.1) else s

/-- `CURL_HTTP_VERSION_1_1`. -/
def curlHttpVersion11 : ℤ := 2

/-- `_header_cb` once redirection has been ruled out. -/
def processHeader (env : Env) (s : Cws) (line : List Byte) (status version : ℤ) : ℕ × Cws :=
  -- only `HTTP/1.1 101 Switching Protocols` is accepted
  if status ≠ 101 ∨ version ≠ curlHttpVersion11 then (0, s)
  else if line = [0x0d, 0x0a] then
    if !s.headerState.accepted then
      (0, (cbOnClose env s.enterDispatch 1011 (some notAccepted) sizeMax).leaveDispatch)
    else
      (line.length,
        (cbOnConnect env s.enterDispatch s.headerState.wsProtocolsReceived).leaveDispatch)
  else if cwsHasPrefix line httpPrefix then
    (line.length,
      { s with headerState :=
        { s.headerState with
          accepted := false, upgraded := false, connectionWebsocket := false,
          wsProtocolsReceived := none } })
  else (line.length, headerCheckers.foldl (runChecker line) s)

/-- `_header_cb`. -/
def headerCb (env : Env) (s : Cws) (line : List Byte) (status version : ℤ) : ℕ × Cws :=
  if s.cfg.followRedirects then
    if 300 ≤ status ∧ status ≤ 399 then
      (line.length, { s with headerState := { s.headerState with redirection := true } })
    else
      processHeader env { s with headerState := { s.headerState with redirection := false } }
        line status version
  else processHeader env s line status version

end CurlWs
