import TcpRedirector.Impl.Auth.KerberosAgentProvider
import TcpRedirector.Proof.Framework.Locked
import TcpRedirector.Proof.Framework.Run

/-!
# The provider's threads and the pipe mutex

What the threads share is seen as the fields of the provider together with an
account of the calls made so far (`PipeView`). Every operation does its work
on the pipe in three functions that hold the mutex: `Call`, of which `CallEnd`
lists how it can end, `ConnectToAgent` and `DisconnectFromAgent`. What these
keep (`PipeView.Kept`), all operations keep (`KeepsRules.op`), and so does
every run in which the answers are as the view considers them
(`PipeView.Kept.run`).
-/

namespace TR.Impl

open ProviderProg

/-- The calls that a thread makes without the mutex. -/
def Outside : ProviderCall → Prop
  | .loadConnected | .system (.sleep _) | .system .launchAuthAgent => True
  | _ => False

/-- The calls that only `Call` makes are not quiet. -/
def Quiet : ProviderCall → Prop
  | .fetchAddNextId | .returned _ | .system (.writeFile _ _) | .system (.readFile _) => False
  | _ => True

theorem Outside.quiet {c : ProviderCall} (h : Outside c) : Quiet c := by
  cases c with
  | system c => cases c <;> trivial
  | _ => trivial

/-- What a call leaves of the fields. -/
def FieldStep (p : Provider) (c : ProviderCall) (r : c.Resp) (p' : Provider) : Prop :=
  match p.access c with
  | some y => (r, p') = y
  | none => p' = p

/-- A way to look at the provider. -/
structure PipeView (E : Type) where
  /-- What holds of the fields while the mutex is free. -/
  K : Provider → Prop
  /-- What holds of the account. -/
  J : E → Prop
  init : E
  /-- The account after a call of a thread. -/
  upd : Nat → E → (c : ProviderCall) → c.Resp → E
  /-- The answers that are considered; the number says how often the mutex was locked again. -/
  may : Nat → E → (c : ProviderCall) → c.Resp → Prop
  /-- What a thread may call. -/
  check : Nat → E → ProviderCall → Prop
  upd_quiet {t : Nat} {e : E} {c : ProviderCall} {r : c.Resp} : Quiet c → upd t e c r = e
  check_of_not_returned {t : Nat} {e : E} {c : ProviderCall} : (∀ resp, c ≠ .returned resp) → check t e c

variable {E : Type}

theorem Outside.not_returned {c : ProviderCall} (h : Outside c) (resp : Json) : c ≠ .returned resp := by
  rintro rfl
  exact h

def PipeView.rules (V : PipeView E) : LockRules ProviderCall ProviderCall.Resp (Provider × E) where
  I a := V.K a.1 ∧ V.J a.2
  free := Outside
  next t n c a r a' := FieldStep a.1 c r a'.1 ∧ a'.2 = V.upd t a.2 c r ∧ V.may n a.2 c r
  check t c a _ := V.check t a.2 c
  check_free h := V.check_of_not_returned h.not_returned

section

variable {V : PipeView E} {x : JsonText} {t n : Nat} {α : Type} {Q : Option (Nat × Provider × E) → α → Prop} {p : Provider}
  {e : E}

/-- An access to a field. -/
theorem guarded_field {c : ProviderCall} {k : c.Resp → ProviderProg α} {y : c.Resp × Provider} (hy : p.access c = some y)
    (hc : V.check t e c) (h : Guarded V.rules t Q (k y.1) (some (n, y.2, V.upd t e c y.1))) :
    Guarded V.rules t Q (.call (.other c) k) (some (n, p, e)) := by
  rintro r ⟨p', e'⟩ ⟨hstep, he, -⟩
  simp only [FieldStep, hy] at hstep
  subst hstep he
  exact ⟨hc, h⟩

theorem guarded_quiet {c : ProviderCall} {k : c.Resp → ProviderProg α} {y : c.Resp × Provider} (hq : Quiet c)
    (hy : p.access c = some y) (h : Guarded V.rules t Q (k y.1) (some (n, y.2, e))) :
    Guarded V.rules t Q (.call (.other c) k) (some (n, p, e)) := by
  refine guarded_field hy (V.check_of_not_returned fun resp hc => ?_) ?_
  · subst hc
    exact hq
  · rw [V.upd_quiet hq]
    exact h

/-- A call to the system. -/
theorem guarded_system {c : PipeCall} {k : c.Resp → ProviderProg α}
    (h : ∀ r, V.may n e (.system c) r → Guarded V.rules t Q (k r) (some (n, p, V.upd t e (.system c) r))) :
    Guarded V.rules t Q (.call (.other (.system c)) k) (some (n, p, e)) := by
  rintro r ⟨p', e'⟩ ⟨hstep, he, hm⟩
  cases hstep
  subst he
  exact ⟨V.check_of_not_returned nofun, h r hm⟩

theorem guarded_quietSystem {c : PipeCall} {k : c.Resp → ProviderProg α} (hq : Quiet (.system c))
    (h : ∀ r, Guarded V.rules t Q (k r) (some (n, p, e))) :
    Guarded V.rules t Q (.call (.other (.system c)) k) (some (n, p, e)) := by
  refine guarded_system fun r _ => ?_
  rw [V.upd_quiet hq]
  exact h r

/-! ## The functions that hold the mutex -/

/-- What `ReadMessage` leaves of the fields when `ReadFile` fails. -/
def Provider.afterError (p : Provider) (err : BitVec 32) : Provider :=
  if err = ERROR_BROKEN_PIPE ∨ err = ERROR_PIPE_NOT_CONNECTED then { p with connected := false } else p

/-- How `Call` can end after it has taken its id: what it leaves, and its result. -/
inductive CallEnd (V : PipeView E) (x : JsonText) (t n : Nat) (p : Provider) (e : E) :
    Provider → E → Except Bytes Json → Prop
  | dump {what : Bytes} : CallEnd V x t n p e p e (.error what)
  | write {msg what : Bytes} {err : BitVec 32} :
      V.may n e (.system (.writeFile p.pipe msg)) (some err) →
      CallEnd V x t n p e p (V.upd t e (.system (.writeFile p.pipe msg)) (some err)) (.error what)
  | read {msg what : Bytes} {err : BitVec 32} {e₁ : E} :
      V.may n e (.system (.writeFile p.pipe msg)) none → e₁ = V.upd t e (.system (.writeFile p.pipe msg)) none →
      V.may n e₁ (.system (.readFile p.pipe)) (.error err) →
      CallEnd V x t n p e (p.afterError err) (V.upd t e₁ (.system (.readFile p.pipe)) (.error err)) (.error what)
  | parse {msg what : Bytes} {buf : { b : Bytes // b.length ≤ 65535 }} {e₁ : E} :
      V.may n e (.system (.writeFile p.pipe msg)) none → e₁ = V.upd t e (.system (.writeFile p.pipe msg)) none →
      V.may n e₁ (.system (.readFile p.pipe)) (.ok buf) →
      CallEnd V x t n p e p (V.upd t e₁ (.system (.readFile p.pipe)) (.ok buf)) (.error what)
  | ok {msg : Bytes} {buf : { b : Bytes // b.length ≤ 65535 }} {resp : Json} {e₁ e₂ : E} :
      V.may n e (.system (.writeFile p.pipe msg)) none → e₁ = V.upd t e (.system (.writeFile p.pipe msg)) none →
      V.may n e₁ (.system (.readFile p.pipe)) (.ok buf) → e₂ = V.upd t e₁ (.system (.readFile p.pipe)) (.ok buf) →
      x.parse buf.1 = .ok resp → CallEnd V x t n p e p (V.upd t e₂ (.returned resp) ()) (.ok resp)

/-- A response that is returned has been read after the request was written. -/
def ChecksReturned (V : PipeView E) (x : JsonText) : Prop :=
  ∀ t n pipe e id msg buf resp, V.J e →
    let e₀ := V.upd t e .fetchAddNextId id
    let e₁ := V.upd t e₀ (.system (.writeFile pipe msg)) none
    V.may n e₀ (.system (.writeFile pipe msg)) none → V.may n e₁ (.system (.readFile pipe)) (.ok buf) →
      x.parse buf.1 = .ok resp → V.check t (V.upd t e₁ (.system (.readFile pipe)) (.ok buf)) (.returned resp)

theorem guarded_callLocked (hJ : V.J e) (hret : ChecksReturned V x) (method : String) (params : Option Json) :
    Guarded V.rules t (fun s r => ∃ p' e', s = some (n, p', e') ∧
        CallEnd V x t n { p with nextId := p.nextId + 1 } (V.upd t e .fetchAddNextId p.nextId) p' e' r)
      (callLocked x method params) (some (n, p, e)) := by
  refine guarded_field (y := (p.nextId, { p with nextId := p.nextId + 1 })) rfl (V.check_of_not_returned nofun) ?_
  have hcheck : ∀ msg buf resp, _ := hret t n p.pipe e p.nextId
  obtain ⟨p₁, hp₁⟩ : ∃ p₁, p₁ = { p with nextId := p.nextId + 1 } := ⟨_, rfl⟩
  have hpipe : p.pipe = p₁.pipe := by rw [hp₁]
  rw [hpipe] at hcheck
  rw [← hp₁]
  generalize V.upd t e .fetchAddNextId p.nextId = e₀ at hcheck
  dsimp only [Prog.bind]
  split
  next => exact ⟨_, _, rfl, .dump⟩
  next msg _ =>
    refine guarded_quiet (y := (p₁.pipe, p₁)) trivial rfl (guarded_system fun (r : Option (BitVec 32)) hw => ?_)
    cases r with
    | some err => exact ⟨_, _, rfl, .write hw⟩
    | none =>
      refine guarded_quiet (y := (p₁.pipe, p₁)) trivial rfl
        (guarded_system fun (r : Except (BitVec 32) { b : Bytes // b.length ≤ 65535 }) hr => ?_)
      cases r with
      | ok buf =>
        dsimp only [pure, Prog.bind]
        split
        next => exact ⟨_, _, rfl, .parse hw rfl hr⟩
        next resp hparse =>
          exact guarded_field (y := ((), p₁)) rfl (hcheck msg buf resp hJ hw hr hparse) ⟨_, _, rfl, .ok hw rfl hr rfl hparse⟩
      | error err =>
        have hend : CallEnd V x t n p₁ e₀ _ _ (.error (ascii "ReadFile failed: " ++ decimal err.toNat)) := .read hw rfl hr
        unfold Provider.afterError at hend
        show Guarded _ _ _ (Prog.bind (if err = ERROR_BROKEN_PIPE ∨ err = ERROR_PIPE_NOT_CONNECTED then _ else _) _) _
        split
        next hb =>
          rw [if_pos hb] at hend
          exact guarded_quiet (y := ((), { p₁ with connected := false })) trivial rfl ⟨_, _, rfl, hend⟩
        next hb =>
          rw [if_neg hb] at hend
          exact ⟨_, _, rfl, hend⟩

theorem guarded_waitForPipe {f : Unit → ProviderProg α} (k : Nat) (hf : Guarded V.rules t Q (f ()) (some (n, p, e))) :
    Guarded V.rules t Q (waitForPipe k >>= f) (some (n, p, e)) := by
  induction k with
  | zero => exact hf
  | succ k ih =>
    refine guarded_quietSystem trivial fun (r : Option (BitVec 32)) => ?_
    cases r with
    | none => exact hf
    | some err =>
      show Guarded _ _ _ ((if err = ERROR_SEM_TIMEOUT then waitForPipe k else sleep 500 >>= fun _ => waitForPipe k) >>= f) _
      split
      · exact ih
      · exact guarded_quietSystem trivial fun _ => ih

end

/-- What `Call`, `ConnectToAgent` and `DisconnectFromAgent` keep. The first may
break `K` while `ConnectToAgent` says `hello`. -/
structure PipeView.Kept (V : PipeView E) (x : JsonText) : Prop where
  returned : ChecksReturned V x
  account : ∀ {t n : Nat} {p p' : Provider} {e e' : E} {id : BitVec 64} {r}, V.J e →
    CallEnd V x t n p (V.upd t e .fetchAddNextId id) p' e' r → V.J e'
  fields : ∀ {t : Nat} {p p' : Provider} {e e' : E} {nextId : BitVec 64} {r}, V.K p →
    CallEnd V x t 0 { p with nextId } e p' e' r → V.K p'
  hello : ∀ {t : Nat} {p p' : Provider} {pipe : Handle} {e e' : E} {nextId : BitVec 64} {r}, V.K p → p.pipe = none →
    CallEnd V x t 1 { p with pipe := some pipe, nextId } e p' e' r →
      (∀ version, V.K { p' with version, connected := true }) ∧ V.K { p' with pipe := none }
  disconnected : ∀ p : Provider, V.K { p with connected := false, pipe := none }

/-- The end of what a thread does with the mutex: it still holds it, and the
invariant holds again. -/
def Restored (V : PipeView E) (n : Nat) {α : Type} (s : Option (Nat × Provider × E)) (_ : α) : Prop :=
  ∃ a, s = some (n, a) ∧ V.rules.I a

section

variable {V : PipeView E} {x : JsonText} {t : Nat} {α β : Type} {p : Provider} {e : E}

theorem PipeView.Kept.guarded_callLocked (h : V.Kept x) (hK : V.K p) (hJ : V.J e) (method : String) (params : Option Json) :
    Guarded V.rules t (Restored V 0) (callLocked x method params) (some (0, p, e)) := by
  refine (Impl.guarded_callLocked hJ h.returned method params).mono ?_
  rintro s r ⟨p', e', rfl, hend⟩
  exact ⟨_, rfl, h.fields hK hend, h.account hJ hend⟩

/-- The `hello` of `ConnectToAgent`: the mutex is locked once more for it. -/
theorem PipeView.Kept.guarded_hello (h : V.Kept x) {n : Nat} {Q : Option (Nat × Provider × E) → α → Prop}
    {f : Except Bytes Json → ProviderProg α} (hJ : V.J e) (method : String) (params : Option Json)
    (hf : ∀ resp p' e', V.J e' → CallEnd V x t (n + 1) { p with nextId := p.nextId + 1 }
      (V.upd t e .fetchAddNextId p.nextId) p' e' resp → Guarded V.rules t Q (f resp) (some (n, p', e'))) :
    Guarded V.rules t Q (call x method params >>= f) (some (n, p, e)) := by
  refine Guarded_bind.mpr ?_
  show Guarded _ _ _ (callLocked x method params >>= fun resp => unlock >>= fun _ => pure resp) (some (n + 1, p, e))
  refine Guarded_bind.mpr ((Impl.guarded_callLocked hJ h.returned method params).mono ?_)
  rintro s resp ⟨p', e', rfl, hend⟩
  exact hf resp p' e' (h.account hJ hend) hend

theorem PipeView.Kept.guarded_connectLocked (h : V.Kept x) (hK : V.K p) (hJ : V.J e) :
    Guarded V.rules t (Restored V 0) (connectLocked x) (some (0, p, e)) := by
  refine guarded_quiet (y := (p.pipe, p)) trivial rfl ?_
  dsimp only [Prog.bind]
  split
  next => exact ⟨_, rfl, hK, hJ⟩
  next hnone =>
    refine guarded_waitForPipe 10 (guarded_quietSystem trivial fun (r : Option Handle) => ?_)
    cases r with
    | none => exact ⟨_, rfl, hK, hJ⟩
    | some pipe =>
      refine guarded_quietSystem trivial fun (ok : Bool) => ?_
      cases ok with
      | false => exact guarded_quietSystem trivial fun _ => ⟨_, rfl, hK, hJ⟩
      | true =>
        refine guarded_quiet (y := ((), { p with pipe := some pipe })) trivial rfl ?_
        refine h.guarded_hello hJ "hello" _ fun resp p' e' hJ' hend => ?_
        obtain ⟨hyes, hno⟩ := h.hello hK hnone hend
        split
        next version _ =>
          refine guarded_quiet (y := ((), { p' with version })) trivial rfl ?_
          exact guarded_quiet (y := ((), { p' with version, connected := true })) trivial rfl ⟨_, rfl, hyes version, hJ'⟩
        next =>
          refine guarded_quiet (y := (p'.pipe, p')) trivial rfl (guarded_quietSystem trivial fun _ => ?_)
          exact guarded_quiet (y := ((), { p' with pipe := none })) trivial rfl ⟨_, rfl, hno, hJ'⟩

theorem PipeView.Kept.guarded_disconnect (h : V.Kept x) :
    Guarded V.rules t (fun s _ => s = none) disconnectFromAgent none := by
  rintro ⟨p, e⟩ ⟨-, hJ⟩
  refine guarded_quiet (y := ((), { p with connected := false })) trivial rfl ?_
  refine guarded_quiet (y := (p.pipe, { p with connected := false })) trivial rfl ?_
  have hoff := h.disconnected p
  dsimp only [Prog.bind]
  split
  next hnone =>
    rw [← hnone] at hoff
    exact ⟨⟨hoff, hJ⟩, rfl⟩
  next pipe _ =>
    refine guarded_quietSystem trivial fun _ => ?_
    exact guarded_quiet (y := ((), { p with connected := false, pipe := none })) trivial rfl ⟨⟨hoff, hJ⟩, rfl⟩

end

/-! ## The operations -/

/-- Rules that are kept by the functions that take the mutex. -/
structure KeepsRules {A : Type} (R : LockRules ProviderCall ProviderCall.Resp A) (x : JsonText) : Prop where
  outside : ∀ {c}, Outside c → R.free c
  call : ∀ {t} method params, Guarded R t (fun s _ => s = none) (call x method params) none
  connect : ∀ {t}, Guarded R t (fun s _ => s = none) (connectToAgent x) none
  disconnect : ∀ {t}, Guarded R t (fun s _ => s = none) disconnectFromAgent none

section

variable {A α β : Type} {R : LockRules ProviderCall ProviderCall.Resp A} {x : JsonText} {t : Nat}

/-- A function that takes the mutex for `p`. -/
theorem guarded_locked {p : ProviderProg α}
    (hp : ∀ a, R.I a → Guarded R t (fun s _ => ∃ a, s = some (0, a) ∧ R.I a) p (some (0, a))) :
    Guarded R t (fun s _ => s = none) (do
      lock
      let r ← p
      unlock
      pure r) none := by
  intro a ha
  show Guarded R t _ (p >>= fun r => unlock >>= fun _ => pure r) (some (0, a))
  refine Guarded_bind.mpr ((hp a ha).mono ?_)
  rintro s r ⟨a', rfl, ha'⟩
  exact ⟨ha', rfl⟩

/-- A sequence without the mutex. -/
theorem guarded_seq {p : ProviderProg β} {f : β → ProviderProg α} (hp : Guarded R t (fun s _ => s = none) p none)
    (hf : ∀ b, Guarded R t (fun s _ => s = none) (f b) none) : Guarded R t (fun s _ => s = none) (p >>= f) none := by
  refine Guarded_bind.mpr (hp.mono ?_)
  rintro s b rfl
  exact hf b

variable (h : KeepsRules R x)
include h

theorem KeepsRules.guarded_outside {c : ProviderCall} (hc : Outside c) :
    Guarded R t (fun s _ => s = none) (.call (.other c) .ret : ProviderProg c.Resp) none := ⟨h.outside hc, fun _ => rfl⟩

theorem KeepsRules.guarded_pollConnect (n : Nat) : Guarded R t (fun s _ => s = none) (pollConnect x n) none := by
  induction n with
  | zero => rfl
  | succ n ih =>
    refine guarded_seq (p := sleep 500) (h.guarded_outside trivial) fun _ => ?_
    refine guarded_seq h.connect fun ok => ?_
    cases ok with
    | true => rfl
    | false => exact ih

theorem KeepsRules.guarded_reconnect : Guarded R t (fun s _ => s = none) (reconnect x) none := by
  refine guarded_seq h.connect fun ok => ?_
  cases ok with
  | true => rfl
  | false => exact guarded_seq (p := launchAuthAgent) (h.guarded_outside trivial) fun _ => h.guarded_pollConnect 20

theorem KeepsRules.guarded_ensureConnected : Guarded R t (fun s _ => s = none) (ensureConnected x) none := by
  refine guarded_seq (p := loadConnected) (h.guarded_outside trivial) fun connected => ?_
  cases connected with
  | true => rfl
  | false => exact h.guarded_reconnect

theorem KeepsRules.guarded_keepalive : Guarded R t (fun s _ => s = none) (keepalive x) none := by
  refine guarded_seq (p := sleep 15000) (h.guarded_outside trivial) fun _ => ?_
  refine guarded_seq (p := loadConnected) (h.guarded_outside trivial) fun connected => ?_
  cases connected with
  | false => exact h.guarded_reconnect
  | true =>
    refine guarded_seq (h.call "ping" none) fun resp => ?_
    cases resp with
    | error what => exact h.disconnect
    | ok resp =>
      dsimp only
      split
      · exact h.disconnect
      · rfl

/-- The common shape of the operations on contexts. -/
theorem KeepsRules.guarded_request {yes : ProviderProg α} {no : α}
    (hy : Guarded R t (fun s _ => s = none) yes none) :
    Guarded R t (fun s _ => s = none) (do
      ensureConnected x
      if ← loadConnected then yes else pure no) none := by
  refine guarded_seq h.guarded_ensureConnected fun _ => ?_
  refine guarded_seq (p := loadConnected) (h.guarded_outside trivial) fun connected => ?_
  cases connected with
  | true => exact hy
  | false => rfl

/-- Every operation keeps to the rules. -/
theorem KeepsRules.op (op : ProviderOp) : Guarded R t (fun s _ => s = none) (op.run x) none := by
  cases op with
  | createContext spn =>
    refine guarded_seq (h.guarded_request (guarded_seq (h.call _ _) fun resp => ?_)) fun _ => rfl
    cases resp <;> rfl
  | continueContext contextId challenge =>
    refine guarded_seq (h.guarded_request (guarded_seq (h.call _ _) fun resp => ?_)) fun _ => rfl
    cases resp <;> rfl
  | closeContext contextId => exact h.guarded_request (guarded_seq (h.call _ _) fun _ => rfl)
  | keepalive => exact h.guarded_keepalive
  | reset => exact h.disconnect
  | warmUp => exact h.guarded_ensureConnected

end

theorem PipeView.Kept.keepsRules {V : PipeView E} {x : JsonText} (h : V.Kept x) : KeepsRules V.rules x where
  outside := id
  call := fun _ _ => guarded_locked fun _ hI => h.guarded_callLocked hI.1 hI.2 _ _
  connect := guarded_locked fun _ hI => h.guarded_connectLocked hI.1 hI.2
  disconnect := h.guarded_disconnect

/-! ## Runs -/

/-- The account of a log. -/
def PipeView.account (V : PipeView E) (log : List (Nat × Answered ProviderCall ProviderCall.Resp)) : E :=
  log.foldl (fun e y => V.upd y.1 e y.2.1 y.2.2) V.init

theorem PipeView.account_concat (V : PipeView E) (log : List (Nat × Answered ProviderCall ProviderCall.Resp)) (t : Nat)
    (c : ProviderCall) (r : c.Resp) : V.account (log ++ [(t, ⟨c, r⟩)]) = V.upd t (V.account log) c r :=
  List.foldl_append

section

variable {W ω ε : Type} {x : JsonText} {sys : ω → (c : PipeCall) → W → Option (c.Resp × W)} {move : ε → W → W}
  {V : PipeView E}

/-- What the threads share, seen this way. -/
def PipeView.view (V : PipeView E) (g : Provider × W) (log : List (Nat × Answered ProviderCall ProviderCall.Resp)) :
    Provider × E := (g.1, V.account log)

/-- If the thread with the mutex makes a call in this step, it is answered as considered. -/
def PipeView.Considers (V : PipeView E) (st : StepOf (ProviderPool W) (PoolInput ProviderOp ω ε) Unit) : Prop :=
  ∀ t n c r, st.pre.owner = some (t, n) → st.post.log = st.pre.log ++ [(t, ⟨c, r⟩)] → V.may n (V.account st.pre.log) c r

theorem providerAnswer_field {o : ω} {c : ProviderCall} {g g' : Provider × W} {r : c.Resp}
    (h : providerAnswer sys o c g = some (r, g')) : FieldStep g.1 c r g'.1 := by
  obtain ⟨p, w⟩ := g
  cases c with
  | system c =>
    obtain ⟨y, -, hy⟩ := Option.map_eq_some_iff.mp h
    cases hy
    rfl
  | _ =>
    cases h
    rfl

theorem Outside.field {c : ProviderCall} (h : Outside c) {p p' : Provider} {r : c.Resp} (hs : FieldStep p c r p') :
    p' = p := by
  cases c with
  | loadConnected => exact (Prod.mk.inj hs).2
  | system c => exact hs
  | _ => exact absurd h id

theorem PipeView.follows {i : PoolInput ProviderOp ω ε} {s : ProviderPool W}
    (hc : V.Considers (stepOf (providerStep x sys move) i s)) : Follows V.rules V.view (providerAnswer sys) i s := by
  intro t o c k r g hi ht ha
  subst hi
  have hstep := providerAnswer_field ha
  have hacct := V.account_concat s.log t c r
  refine ⟨fun hout => ?_, fun n hn => ⟨hstep, hacct, ?_⟩⟩
  · rw [V.upd_quiet hout.quiet] at hacct
    exact Prod.ext (hout.field hstep) hacct
  · have hlog : (stepOf (providerStep x sys move) (.step t o) s).post.log = s.log ++ [(t, ⟨c, r⟩)] :=
      congrArg Pool.log (Pool.step_other ht ha)
    exact hc t n c r (Pool.owner_of_held hn) hlog

theorem PipeView.Kept.step (h : V.Kept x) (i : PoolInput ProviderOp ω ε) (s : ProviderPool W) (hs : PoolInv V.rules V.view s)
    (hc : V.Considers (stepOf (providerStep x sys move) i s)) : PoolInv V.rules V.view (providerStep x sys move i s).1 := by
  have hops : ∀ op t, Guarded V.rules t (fun s _ => s = none) (ProviderOp.run x op) none := fun op _ => h.keepsRules.op op
  refine PoolInv.step hops ?_ hs (V.follows hc)
  exact fun _ _ _ => rfl

theorem PipeView.Kept.run (h : V.Kept x) (hK : V.K {}) (hJ : V.J V.init) (w : W) (schedule : List (PoolInput ProviderOp ω ε))
    (hc : ∀ st ∈ trace (providerStep x sys move) schedule (ProviderPool.start w), V.Considers st) :
    PoolInv V.rules V.view (TR.run (providerStep x sys move) schedule (ProviderPool.start w)) :=
  run_induct_of h.step schedule (PoolInv.start (show V.rules.I ({}, V.init) from ⟨hK, hJ⟩)) hc

end

end TR.Impl
