import TcpRedirector.Proof.Auth.Provider

/-!
# The handle of the agent's pipe

Any number of threads use the one handle `m_pipe`, and each of them may close
it and open another. The pipes that are open are read off the log
(`openPipes`). While the mutex is free, the open pipe is `m_pipe`; a thread
that holds it opens a pipe only when none is open, and calls the system on
the open pipe alone (`handleRules`, `pipe_open`). No handle is used after it
was closed, none is closed twice, and none is lost.
-/

namespace TR.Impl

open ProviderProg

/-- The pipe that a call uses, if it is not `INVALID_HANDLE_VALUE`. -/
def ProviderCall.uses : ProviderCall → Option Handle
  | .system (.setNamedPipeHandleState pipe) => some pipe
  | .system (.closeHandle pipe) | .system (.writeFile pipe _) | .system (.readFile pipe) => pipe
  | _ => none

/-- The pipes that are open after a call. -/
def openAfter (pipes : List Handle) : (c : ProviderCall) → c.Resp → List Handle
  | .system .createFile, some pipe => pipe :: pipes
  | .system (.closeHandle (some pipe)), _ => pipes.erase pipe
  | _, _ => pipes

/-- The pipes that are open after the calls of a log. -/
def openPipes (log : List (Nat × Answered ProviderCall ProviderCall.Resp)) : List Handle :=
  log.foldl (fun pipes y => openAfter pipes y.2.1 y.2.2) []

theorem openPipes_concat (log : List (Nat × Answered ProviderCall ProviderCall.Resp)) (t : Nat) (c : ProviderCall)
    (r : c.Resp) : openPipes (log ++ [(t, ⟨c, r⟩)]) = openAfter (openPipes log) c r := List.foldl_append

/-- The call uses the open pipe, and opens one only if none is open. -/
def ProviderCall.Fits (c : ProviderCall) (pipes : List Handle) : Prop :=
  (∀ pipe, c.uses = some pipe → pipes = [pipe]) ∧ (c = .system .createFile → pipes = [])

/-- A call after which the same pipes are open, whatever the answer. -/
def Still : ProviderCall → Prop
  | .system .createFile | .system (.closeHandle _) => False
  | _ => True

theorem Still.openAfter {c : ProviderCall} (h : Still c) (pipes : List Handle) (r : c.Resp) :
    openAfter pipes c r = pipes := by
  cases c with
  | system c =>
    cases c with
    | createFile => exact absurd h id
    | closeHandle pipe => exact absurd h id
    | _ => rfl
  | _ => rfl

theorem Outside.still {c : ProviderCall} (h : Outside c) : Still c := by
  cases c with
  | system c =>
    cases c with
    | sleep ms => trivial
    | launchAuthAgent => trivial
    | _ => exact absurd h id
  | _ => trivial

theorem Outside.fits {c : ProviderCall} (h : Outside c) (pipes : List Handle) : c.Fits pipes := by
  cases c with
  | system c =>
    cases c with
    | sleep ms => exact ⟨nofun, nofun⟩
    | launchAuthAgent => exact ⟨nofun, nofun⟩
    | _ => exact absurd h id
  | loadConnected => exact ⟨nofun, nofun⟩
  | _ => exact absurd h id

/-- One pipe at most is open before and after a call that fits. -/
theorem ProviderCall.Fits.length_openAfter {c : ProviderCall} {pipes : List Handle} (h : c.Fits pipes) (r : c.Resp)
    (hl : pipes.length ≤ 1) : (openAfter pipes c r).length ≤ 1 := by
  unfold openAfter
  split
  next pipe =>
    rw [h.2 rfl]
    rfl
  next pipe r => exact pipes.erase_sublist.length_le.trans hl
  next => exact hl

/-- What the mutex protects: the open pipe is `m_pipe`. -/
def handleRules : LockRules ProviderCall ProviderCall.Resp (Provider × List Handle) where
  I a := a.2 = a.1.pipe.toList
  free := Outside
  next _ _ c a r a' := FieldStep a.1 c r a'.1 ∧ a'.2 = openAfter a.2 c r
  check _ c a _ := c.Fits a.2
  check_free h := h.fits _

section

variable {x : JsonText} {t n : Nat} {α : Type} {Q : Option (Nat × Provider × List Handle) → α → Prop} {p : Provider}
  {pipes : List Handle}

/-- An access to a field. -/
theorem guarded_access {c : ProviderCall} {k : c.Resp → ProviderProg α} {y : c.Resp × Provider} (hy : p.access c = some y)
    (h : Guarded handleRules t Q (k y.1) (some (n, y.2, pipes))) :
    Guarded handleRules t Q (.call (.other c) k) (some (n, p, pipes)) := by
  rintro r ⟨p', pipes'⟩ ⟨hstep, hpipes⟩
  simp only [FieldStep, hy] at hstep
  subst hstep
  have hfield : c.uses = none ∧ Still c ∧ c ≠ .system .createFile := by
    cases c with
    | system c => cases hy
    | _ => exact ⟨rfl, trivial, ProviderCall.noConfusion⟩
  obtain ⟨huses, hstill, hne⟩ := hfield
  rw [hstill.openAfter] at hpipes
  dsimp only at hpipes
  subst hpipes
  refine ⟨⟨fun pipe hpipe => ?_, fun hc => absurd hc hne⟩, h⟩
  rw [huses] at hpipe
  cases hpipe

/-- A call to the system. -/
theorem guarded_calls {c : PipeCall} {k : c.Resp → ProviderProg α} (hfits : ProviderCall.Fits (.system c) pipes)
    (h : ∀ r, Guarded handleRules t Q (k r) (some (n, p, openAfter pipes (.system c) r))) :
    Guarded handleRules t Q (.call (.other (.system c)) k) (some (n, p, pipes)) := by
  rintro r ⟨p', pipes'⟩ ⟨hstep, hpipes⟩
  cases hstep
  dsimp only at hpipes
  subst hpipes
  exact ⟨hfits, h r⟩

/-- A call on the pipe `m_pipe`. -/
theorem fits_pipe {c : ProviderCall} {p : Option Handle} (hc : c.uses = p) (hne : c ≠ .system .createFile) :
    c.Fits p.toList := by
  refine ⟨fun h hh => ?_, fun h => absurd h hne⟩
  rw [hc] at hh
  rw [hh]
  rfl

theorem pipes_erase (pipe : Handle) : [pipe].erase pipe = [] := List.erase_cons_head pipe []

/-! ## The functions that hold the mutex -/

/-- `Call` leaves the pipe, open or not. -/
theorem guarded_callLocked_pipe (method : String) (params : Option Json) :
    Guarded handleRules t (fun s _ => ∃ p', s = some (n, p', p.pipe.toList) ∧ p'.pipe = p.pipe)
      (callLocked x method params) (some (n, p, p.pipe.toList)) := by
  refine guarded_access (y := (p.nextId, { p with nextId := p.nextId + 1 })) rfl ?_
  dsimp only [Prog.bind]
  split
  next => exact ⟨_, rfl, rfl⟩
  next msg _ =>
    refine guarded_access (y := (p.pipe, { p with nextId := p.nextId + 1 })) rfl ?_
    refine guarded_calls (fits_pipe rfl nofun) fun (r : Option (BitVec 32)) => ?_
    cases r with
    | some err => exact ⟨_, rfl, rfl⟩
    | none =>
      refine guarded_access (y := (p.pipe, { p with nextId := p.nextId + 1 })) rfl ?_
      refine guarded_calls (fits_pipe rfl nofun) fun (r : Except (BitVec 32) { b : Bytes // b.length ≤ 65535 }) => ?_
      cases r with
      | ok buf =>
        dsimp only [pure, Prog.bind]
        split
        next => exact ⟨_, rfl, rfl⟩
        next resp _ => exact guarded_access (y := ((), { p with nextId := p.nextId + 1 })) rfl ⟨_, rfl, rfl⟩
      | error err =>
        show Guarded _ _ _ (Prog.bind (if err = ERROR_BROKEN_PIPE ∨ err = ERROR_PIPE_NOT_CONNECTED then _ else _) _) _
        split
        · exact guarded_access (y := ((), { p with nextId := p.nextId + 1, connected := false })) rfl ⟨_, rfl, rfl⟩
        · exact ⟨_, rfl, rfl⟩

theorem guarded_waitForPipe_pipe {f : Unit → ProviderProg α} (k : Nat)
    (hf : Guarded handleRules t Q (f ()) (some (n, p, pipes))) :
    Guarded handleRules t Q (waitForPipe k >>= f) (some (n, p, pipes)) := by
  induction k with
  | zero => exact hf
  | succ k ih =>
    refine guarded_calls ⟨nofun, nofun⟩ fun (r : Option (BitVec 32)) => ?_
    cases r with
    | none => exact hf
    | some err =>
      show Guarded _ _ _ ((if err = ERROR_SEM_TIMEOUT then waitForPipe k else sleep 500 >>= fun _ => waitForPipe k) >>= f) _
      split
      · exact ih
      · exact guarded_calls ⟨nofun, nofun⟩ fun _ => ih

/-- The `hello` of `ConnectToAgent`: the mutex is locked once more for it. -/
theorem guarded_hello_pipe {f : Except Bytes Json → ProviderProg α} (method : String) (params : Option Json)
    (hf : ∀ resp p', p'.pipe = p.pipe → Guarded handleRules t Q (f resp) (some (n, p', p.pipe.toList))) :
    Guarded handleRules t Q (call x method params >>= f) (some (n, p, p.pipe.toList)) := by
  refine Guarded_bind.mpr ?_
  show Guarded _ _ _ (callLocked x method params >>= fun resp => unlock >>= fun _ => pure resp)
    (some (n + 1, p, p.pipe.toList))
  refine Guarded_bind.mpr ((guarded_callLocked_pipe method params).mono ?_)
  rintro s resp ⟨p', rfl, hp'⟩
  exact hf resp p' hp'

theorem guarded_connectLocked_pipe :
    Guarded handleRules t (fun s _ => ∃ a, s = some (0, a) ∧ handleRules.I a) (connectLocked x)
      (some (0, p, p.pipe.toList)) := by
  refine guarded_access (y := (p.pipe, p)) rfl ?_
  dsimp only [Prog.bind]
  split
  next => exact ⟨_, rfl, rfl⟩
  next hnone =>
    rw [hnone]
    refine guarded_waitForPipe_pipe 10 (guarded_calls ⟨nofun, fun _ => rfl⟩ fun (r : Option Handle) => ?_)
    have hempty : handleRules.I (p, []) := by
      show [] = p.pipe.toList
      rw [hnone]
      rfl
    cases r with
    | none => exact ⟨_, rfl, hempty⟩
    | some pipe =>
      refine guarded_calls (fits_pipe (p := some pipe) rfl nofun) fun (ok : Bool) => ?_
      cases ok with
      | false =>
        refine guarded_calls (fits_pipe (p := some pipe) rfl nofun) fun _ => ⟨_, rfl, ?_⟩
        show [pipe].erase pipe = p.pipe.toList
        rw [hnone]
        exact pipes_erase pipe
      | true =>
        refine guarded_access (y := ((), { p with pipe := some pipe })) rfl ?_
        refine guarded_hello_pipe (p := { p with pipe := some pipe }) "hello" _ fun resp p' hp' => ?_
        split
        next version _ =>
          refine guarded_access (y := ((), { p' with version })) rfl ?_
          refine guarded_access (y := ((), { p' with version, connected := true })) rfl ⟨_, rfl, ?_⟩
          show [pipe] = p'.pipe.toList
          rw [hp']
          rfl
        next =>
          refine guarded_access (y := (p'.pipe, p')) rfl ?_
          rw [hp']
          refine guarded_calls (fits_pipe (p := some pipe) rfl nofun) fun _ => ?_
          refine guarded_access (y := ((), { p' with pipe := none })) rfl ⟨_, rfl, ?_⟩
          exact pipes_erase pipe

theorem guarded_disconnect_pipe : Guarded handleRules t (fun s _ => s = none) disconnectFromAgent none := by
  rintro ⟨p, pipes⟩ hI
  change pipes = p.pipe.toList at hI
  subst hI
  refine guarded_access (y := ((), { p with connected := false })) rfl ?_
  refine guarded_access (y := (p.pipe, { p with connected := false })) rfl ?_
  dsimp only [Prog.bind]
  split
  next hnone => exact ⟨rfl, rfl⟩
  next pipe hpipe =>
    rw [hpipe]
    refine guarded_calls (fits_pipe (p := some pipe) rfl nofun) fun _ => ?_
    refine guarded_access (y := ((), { p with connected := false, pipe := none })) rfl ⟨?_, rfl⟩
    exact pipes_erase pipe

theorem keepsRules_handle : KeepsRules handleRules x where
  outside := id
  call := by
    intro t method params
    refine guarded_locked ?_
    rintro ⟨p, pipes⟩ hI
    change pipes = p.pipe.toList at hI
    subst hI
    refine (guarded_callLocked_pipe method params).mono ?_
    rintro s r ⟨p', rfl, hp'⟩
    exact ⟨_, rfl, congrArg Option.toList hp'.symm⟩
  connect := by
    refine guarded_locked ?_
    rintro ⟨p, pipes⟩ hI
    change pipes = p.pipe.toList at hI
    subst hI
    exact guarded_connectLocked_pipe
  disconnect := guarded_disconnect_pipe

end

/-! ## Runs -/

section

variable {W ω ε : Type} {x : JsonText} {sys : ω → (c : PipeCall) → W → Option (c.Resp × W)} {move : ε → W → W}

/-- What the threads share: the fields, and the pipes that are open. -/
def handleView (g : Provider × W) (log : List (Nat × Answered ProviderCall ProviderCall.Resp)) : Provider × List Handle :=
  (g.1, openPipes log)

theorem handle_follows (i : PoolInput ProviderOp ω ε) (s : ProviderPool W) :
    Follows handleRules handleView (providerAnswer sys) i s := by
  intro t o c k r g hi ht ha
  have hstep := providerAnswer_field ha
  have hpipes := openPipes_concat s.log t c r
  refine ⟨fun hout => ?_, fun n hn => ⟨hstep, hpipes⟩⟩
  rw [hout.still.openAfter] at hpipes
  exact Prod.ext (hout.field hstep) hpipes

/-- The mutex protects the pipe, and one pipe at most is open. -/
structure PipeOwned (s : ProviderPool W) : Prop where
  pool : PoolInv handleRules handleView s
  length : (openPipes s.log).length ≤ 1

theorem PipeOwned.fits {s : ProviderPool W} (h : PipeOwned s) {i : PoolInput ProviderOp ω ε} {t : Nat} {c : ProviderCall}
    {r : c.Resp} (hlog : (providerStep x sys move i s).1.log = s.log ++ [(t, ⟨c, r⟩)]) : c.Fits (openPipes s.log) := by
  obtain ⟨t', o, c', k, r', g, hi, ht, ha, hy⟩ := Pool.step_log hlog
  cases hy
  exact h.pool.checked (handle_follows i s) hi ht ha

theorem PipeOwned.step (i : PoolInput ProviderOp ω ε) (s : ProviderPool W) (h : PipeOwned s) :
    PipeOwned (providerStep x sys move i s).1 where
  pool := by
    have hops : ∀ op t, Guarded handleRules t (fun s _ => s = none) (ProviderOp.run x op) none :=
      fun op _ => keepsRules_handle.op op
    refine PoolInv.step hops ?_ h.pool (handle_follows i s)
    exact fun _ _ _ => rfl
  length := by
    have hlogs : (providerStep x sys move i s).1.log = s.log ∨ ∃ y, (providerStep x sys move i s).1.log = s.log ++ [y] :=
      Pool.step_log_cases i
    obtain hsame | ⟨⟨t, c, r⟩, hlog⟩ := hlogs
    · exact (congrArg (fun log => (openPipes log).length ≤ 1) hsame).mpr h.length
    · refine (congrArg (fun log => (openPipes log).length ≤ 1) hlog).mpr ?_
      rw [openPipes_concat]
      exact (h.fits hlog).length_openAfter r h.length

theorem PipeOwned.start (w : W) : PipeOwned (ProviderPool.start w) := ⟨PoolInv.start rfl, Nat.zero_le 1⟩

/-- In every run a call uses the pipe that is open, one is opened only when none
is, so that one at most is open in every state, and with the mutex free it is
`m_pipe`. -/
theorem pipe_open (x : JsonText) (sys : ω → (c : PipeCall) → W → Option (c.Resp × W)) (move : ε → W → W) (w : W)
    (schedule : List (PoolInput ProviderOp ω ε)) :
    (∀ st ∈ trace (providerStep x sys move) schedule (ProviderPool.start w), ∀ t c r,
      st.post.log = st.pre.log ++ [(t, ⟨c, r⟩)] → c.Fits (openPipes st.pre.log)) ∧
    let s := run (providerStep x sys move) schedule (ProviderPool.start w)
    (openPipes s.log).length ≤ 1 ∧ (s.owner = none → openPipes s.log = s.shared.1.pipe.toList) := by
  refine ⟨fun st hst t c r hlog => ?_, ?_⟩
  · obtain ⟨hpre, hpost⟩ := trace_induct PipeOwned.step (PipeOwned.start w) hst
    rw [hpost] at hlog
    exact hpre.fits hlog
  · have hinv : PipeOwned (run (providerStep x sys move) schedule (ProviderPool.start w)) :=
      run_induct PipeOwned.step schedule (PipeOwned.start w)
    exact ⟨hinv.length, fun hfree => hinv.pool.free hfree⟩

end

end TR.Impl
