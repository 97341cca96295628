import CurlWs.Model.Api

/-!
# Callbacks and default handlers

`cb.c` and `handlers.c`: the one place from which user functions are called, what becomes of their
return values, and the two handlers the library supplies when the user installs none.

**A user function** is entered, makes its calls of the public functions one after another, and
returns.  Which calls it makes and what it returns is the environment's choice, so that it may
depend on all that has happened.  A value other than zero closes the connection, with that value for
a code if it is one, and 1011 otherwise.  That its entry is recorded together with `dispatching` is
for the statements about what may be called from where.

**The default handlers.**  Without a function for fragments, the library puts messages together and
hands them to the functions for whole ones; a message in one fragment is handed on without being
stored.  Its `realloc` is taken to succeed.  Without a function for pings, it answers with a pong.
Their entries are recorded as well, as calls of `cb_on_fragment` and `cb_on_ping`.
-/

namespace CurlWs

/-- `__process_rv`: any value but zero closes the connection. -/
def processRv (env : Env) (s : Cws) (code : ℤ) : Cws :=
  if code = 0 then s
  else
    let code := if isCloseCodeValid code then code else 1011
    (cwsClose env s code none 0).2

/-- Enter a user function: it makes its calls, returns, and its value is processed. -/
def userCallback (env : Env) (s : Cws) (c : Callback) : Cws :=
  let r := env.user s.clock c
  let s := (s.log (.callback c s.dispatching)).tick
  processRv env (apiCalls env s r.calls) r.rv

/-- `cb_on_connect`. -/
def cbOnConnect (env : Env) (s : Cws) (protocols : Option (List Byte)) : Cws :=
  if s.cfg.cb.onConnect then userCallback env s (.onConnect protocols) else s

/-- `cb_on_text`. -/
def cbOnText (env : Env) (s : Cws) (text : Option (List Byte)) : Cws :=
  if s.cfg.cb.onText then userCallback env s (.onText text) else s

/-- `cb_on_binary`. -/
def cbOnBinary (env : Env) (s : Cws) (buf : Option (List Byte)) : Cws :=
  if s.cfg.cb.onBinary then userCallback env s (.onBinary buf) else s

/-- `cb_on_pong`. -/
def cbOnPong (env : Env) (s : Cws) (buf : List Byte) : Cws :=
  if s.cfg.cb.onPong then userCallback env s (.onPong buf) else s

/-- The text `cb_on_close` reports: `SIZE_MAX` asks for `strlen`, and without a text the length is
zero. -/
def closeReason (text : Option (List Byte)) (len : ℕ) : Option (List Byte) :=
  text.map fun t => t.take (if len = sizeMax then strlen t else len)

/-- `cb_on_close`. -/
def cbOnClose (env : Env) (s : Cws) (code : ℤ) (text : Option (List Byte)) (len : ℕ) : Cws :=
  if s.cfg.cb.onClose then userCallback env s (.onClose code (closeReason text len)) else s

/-- A pointer to an accumulated buffer, which is NULL until something is put in it. -/
def bufferPtr (b : List Byte) : Option (List Byte) := if b = [] then none else some b

/-- The two ends of `_default_on_fragment`: `cb_on_binary` or `cb_on_text`. -/
def cbOnMessage (env : Env) (s : Cws) (isBinary : Bool) (buffer : Option (List Byte)) : Cws :=
  if isBinary then cbOnBinary env s buffer else cbOnText env s buffer

/-- The middle of `_default_on_fragment`: start a message if this is its first fragment, and append
the fragment. -/
def appendFragment (s : Cws) (info : Flags) (buffer : Option (List Byte)) : Cws :=
  let s :=
    if cwsFirst &&& info ≠ 0 then
      { s with streamType := (cwsBinary ||| cwsText) &&& info, streamBuffer := [] }
    else s
  { s with streamBuffer := s.streamBuffer ++ buffer.getD [] }

/-- `_default_on_fragment`.  It returns zero, so its value needs no processing. -/
def defaultOnFragment (env : Env) (s : Cws) (info : Flags) (buffer : Option (List Byte)) : Cws :=
  let oneFrame := cwsFirst ||| cwsLast
  if oneFrame = oneFrame &&& info then cbOnMessage env s (cwsBinary &&& info ≠ 0) buffer
  else
    let s := appendFragment s info buffer
    if cwsLast &&& info ≠ 0 then
      let s := cbOnMessage env s (cwsBinary &&& s.streamType ≠ 0) (bufferPtr s.streamBuffer)
      { s with streamBuffer := [] }
    else s

/-- `_default_on_ping`: a pong with the same payload. -/
def defaultOnPing (env : Env) (s : Cws) (buffer : List Byte) : Cws :=
  (cwsPong env s (some buffer) buffer.length).2

/-- `cb_on_fragment`: the user's function or the default one, never NULL. -/
def cbOnFragment (env : Env) (s : Cws) (info : Flags) (buf : Option (List Byte)) : Cws :=
  if s.cfg.cb.onFragment then userCallback env s (.onFragment info buf)
  else defaultOnFragment env (s.log (.callback (.onFragment info buf) s.dispatching)) info buf

/-- `cb_on_ping`. -/
def cbOnPing (env : Env) (s : Cws) (buf : List Byte) : Cws :=
  if s.cfg.cb.onPing then userCallback env s (.onPing buf)
  else defaultOnPing env (s.log (.callback (.onPing buf) s.dispatching)) buf

end CurlWs
