import CurlWs.Model.Header

/-!
# Runs

What can happen to a connection from outside: the application calls a public function, or curl calls
one of the three functions the library has registered with it.  Curl is single-threaded per handle,
so these happen one after another; what happens inside a callback is part of the action that led to
the callback.

**Every order.**  A run is any sequence of actions on a fresh connection.  Nothing is asked of their
order, and nothing of what the callbacks do in them, so that a theorem about all runs is about all
applications and all servers.  Invariants are proved once for a step and come to every run by
`run_invariant`.

**The end of an object.**  A run does not stop when the object is freed: the state that
`cws_destroy` leaves only has `freed` set, and further actions go on with its fields.  They stand
for uses of memory that has been freed, which have no meaning in C.  A statement about every run is
therefore one about the code as far as the run has not freed its object, and beyond that about
nothing. -/

namespace CurlWs

/-- One action on a connection. -/
inductive Action where
  | api (c : ApiCall)
  | send (len : ℕ)
  | receive (buf : List Byte)
  | header (line : List Byte) (status version : ℤ)
  deriving DecidableEq, Repr

/-- The state after an action. -/
def step (env : Env) (s : Cws) : Action → Cws
  | .api c => (apiCall env s c).2
  | .send len => (sendCb s len).2
  | .receive buf => (receiveCb env s buf).2
  | .header line status version => (headerCb env s line status version).2

/-- The state after a sequence of actions. -/
def run (env : Env) (s : Cws) (acts : List Action) : Cws := acts.foldl (step env) s

@[simp] lemma run_nil (env : Env) (s : Cws) : run env s [] = s := rfl

@[simp] lemma run_cons (env : Env) (s : Cws) (a : Action) (acts : List Action) :
    run env s (a :: acts) = run env (step env s a) acts := rfl

lemma run_append (env : Env) (s : Cws) (acts acts' : List Action) :
    run env s (acts ++ acts') = run env (run env s acts) acts' :=
  List.foldl_append

lemma run_concat (env : Env) (s : Cws) (acts : List Action) (a : Action) :
    run env s (acts ++ [a]) = step env (run env s acts) a := by
  rw [run_append, run_cons, run_nil]

/-- **Invariants of runs.**  What holds of a fresh connection and survives every action holds in
every state of every run. -/
theorem run_invariant {env : Env} {cfg : Cfg} {P : Cws → Prop} (init : P (Cws.fresh cfg))
    (hstep : ∀ s a, P s → P (step env s a)) (acts : List Action) :
    P (run env (Cws.fresh cfg) acts) :=
  List.foldlRecOn acts (step env) init fun s hs a _ => hstep s a hs

/-- Surroundings in which nothing goes wrong: there is memory, and the callbacks do nothing. -/
def Env.quiet : Env := ⟨fun _ => true, fun _ => .zero, fun _ _ => {}⟩

end CurlWs
