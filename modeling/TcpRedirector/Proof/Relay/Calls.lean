import TcpRedirector.Impl.Relay.ConnectionHandler
import TcpRedirector.Proof.Framework.Prog

/-!
# The relay's calls, one by one

What `WP` says of each call followed by the rest of the handler, for any
observer, and of the small functions of the handler that may or may not make
a call.
-/

namespace TR.Impl

open RelayProg

variable {S α : Type} {obs : S → (c : Call) → c.Resp → Option S} {Q : S → Option α → Prop} {s : S}

section

variable {f : Unit → RelayProg α}

theorem WP_freeaddrinfo :
    WP obs Q (freeaddrinfo >>= f) s ↔ ∃ s', obs s .freeaddrinfo () = some s' ∧ WP obs Q (f ()) s' :=
  ⟨fun h => h (), fun h _ => h⟩

theorem WP_setsockopt {k : Sock} {opt : SockOpt} {v : Nat} : WP obs Q (setsockopt k opt v >>= f) s ↔
    ∃ s', obs s (.setsockopt k opt v) () = some s' ∧ WP obs Q (f ()) s' := ⟨fun h => h (), fun h _ => h⟩

theorem WP_closesocket {k : Sock} : WP obs Q (closesocket k >>= f) s ↔
    ∃ s', obs s (.closesocket k) () = some s' ∧ WP obs Q (f ()) s' := ⟨fun h => h (), fun h _ => h⟩

theorem WP_closeContext {id : BitVec 64} : WP obs Q (closeContext id >>= f) s ↔
    ∃ s', obs s (.closeContext id) () = some s' ∧ WP obs Q (f ()) s' := ⟨fun h => h (), fun h _ => h⟩

theorem WP_writeLastAuthToken {token : Bytes} : WP obs Q (writeLastAuthToken token >>= f) s ↔
    ∃ s', obs s (.writeLastAuthToken token) () = some s' ∧ WP obs Q (f ()) s' := ⟨fun h => h (), fun h _ => h⟩

theorem WP_sleep {ms : Nat} : WP obs Q (sleep ms >>= f) s ↔
    ∃ s', obs s (.sleep ms) () = some s' ∧ WP obs Q (f ()) s' := ⟨fun h => h (), fun h _ => h⟩

end

theorem WP_getaddrinfo {host : Bytes} {f : Option (BitVec 32) → RelayProg α} : WP obs Q (getaddrinfo host >>= f) s ↔
    ∀ r : Option (BitVec 32), ∃ s', obs s (.getaddrinfo host) r = some s' ∧ WP obs Q (f r) s' := Iff.rfl

theorem WP_socket {f : Option Sock → RelayProg α} : WP obs Q (socket >>= f) s ↔
    ∀ r : Option Sock, ∃ s', obs s .socket r = some s' ∧ WP obs Q (f r) s' := Iff.rfl

theorem WP_connect {k : Sock} {addr : BitVec 32} {port : BitVec 16} {f : Bool → RelayProg α} :
    WP obs Q (connect k addr port >>= f) s ↔
    ∀ r : Bool, ∃ s', obs s (.connect k addr port) r = some s' ∧ WP obs Q (f r) s' := Iff.rfl

theorem WP_send {k : Sock} {data : Bytes} {f : Option (Fin (data.length + 1)) → RelayProg α} :
    WP obs Q (send k data >>= f) s ↔
    ∀ r : Option (Fin (data.length + 1)), ∃ s', obs s (.send k data) r = some s' ∧ WP obs Q (f r) s' := Iff.rfl

theorem WP_recv {k : Sock} {len : Nat} {f : Option { b : Bytes // b.length ≤ len } → RelayProg α} :
    WP obs Q (recv k len >>= f) s ↔
    ∀ r : Option { b : Bytes // b.length ≤ len }, ∃ s', obs s (.recv k len) r = some s' ∧ WP obs Q (f r) s' := Iff.rfl

theorem WP_createContext {spn : Bytes} {f : CreateContextResult → RelayProg α} :
    WP obs Q (createContext spn >>= f) s ↔
    ∀ r : CreateContextResult, ∃ s', obs s (.createContext spn) r = some s' ∧ WP obs Q (f r) s' := Iff.rfl

theorem WP_continueContext {id : BitVec 64} {challenge : Bytes} {f : ContinueContextResult → RelayProg α} :
    WP obs Q (continueContext id challenge >>= f) s ↔ ∀ r : ContinueContextResult,
      ∃ s', obs s (.continueContext id challenge) r = some s' ∧ WP obs Q (f r) s' := Iff.rfl

theorem WP_readLastAuthToken {f : Bytes → RelayProg α} : WP obs Q (readLastAuthToken >>= f) s ↔
    ∀ r : Bytes, ∃ s', obs s .readLastAuthToken r = some s' ∧ WP obs Q (f r) s' := Iff.rfl

/-! ## The small functions -/

section

variable {P : Call → Prop} {m : Relay} {client proxy : Sock}

theorem calls_incrementProxyErrors (h : P .incrementProxyErrors) : (incrementProxyErrors m).Calls P := by
  rw [incrementProxyErrors]
  split
  · exact ⟨h, fun _ => trivial⟩
  · trivial

theorem calls_closeAuthContext (h : ∀ id, P (.closeContext id)) (ctx : AuthContext) :
    (closeAuthContext m ctx).Calls P := by
  cases ctx with
  | none => trivial
  | some id =>
    rw [closeAuthContext]
    split
    · exact ⟨h id, fun _ => trivial⟩
    · trivial

theorem calls_closeAll (h : ∀ k, P (.closesocket k)) (hf : P .freeaddrinfo) : (closeAll client proxy).Calls P :=
  ⟨h client, fun _ => ⟨h proxy, fun _ => ⟨hf, fun _ => trivial⟩⟩⟩

theorem calls_setSocketOptions (h : ∀ k opt v, P (.setsockopt k opt v)) : (setSocketOptions client proxy).Calls P :=
  ⟨h .., fun _ => ⟨h .., fun _ => ⟨h .., fun _ => ⟨h .., fun _ => ⟨h .., fun _ => ⟨h .., fun _ => ⟨h ..,
    fun _ => ⟨h .., fun _ => trivial⟩⟩⟩⟩⟩⟩⟩⟩

end

/-! ## What follows a response -/

/-- Neither a connection nor a CONNECT. -/
def Free : Call → Prop
  | .connect _ _ _ | .send _ _ => False
  | _ => True

/-- An invariant that every free call keeps, and with which an attempt may end. -/
structure FreeInv (obs : S → (c : Call) → c.Resp → Option S) (Q : S → Option Unit → Prop) (client : Sock) (I : S → Prop) :
    Prop where
  free : ∀ c, Free c → ∀ (r : c.Resp) s, I s → ∃ s', obs s c r = some s' ∧ I s'
  throws : ∀ s, I s → Q s none
  closed : ∀ proxy s, I s → WP obs Q (closeAll client proxy) s
  bridged : ∀ proxy s, I s → WP obs Q (startBridge client proxy) s

section

variable {Q : S → Option Unit → Prop} {client proxy : Sock} {I : S → Prop} {m : Relay} {ctx : AuthContext} {β : Type}
  (h : FreeInv obs Q client I)

include h

theorem FreeInv.bind {p : RelayProg β} {f : β → RelayProg Unit} (hp : p.Calls Free)
    (hf : ∀ b s, I s → WP obs Q (f b) s) {s : S} (hs : I s) : WP obs Q (p >>= f) s := by
  induction p generalizing s with
  | ret b => exact hf b s hs
  | throw => exact h.throws s hs
  | call c k ih =>
    intro r
    obtain ⟨s', hr, hs'⟩ := h.free c hp.1 r s hs
    exact ⟨s', hr, ih r (hp.2 r) hs'⟩

/-- The usual end of a failed attempt. -/
theorem FreeInv.failed {s : S} (hs : I s) : WP obs Q (do
    incrementProxyErrors m
    closeAuthContext m ctx
    closeAll client proxy) s :=
  h.bind (calls_incrementProxyErrors trivial)
    (fun _ _ hs => h.bind (calls_closeAuthContext (fun _ => trivial) ctx) (fun _ s hs => h.closed proxy s hs) hs) hs

/-- With a context that is certainly active. -/
theorem FreeInv.contextFailed {id : BitVec 64} {s : S} (hs : I s) : WP obs Q (do
    incrementProxyErrors m
    closeContext id
    closeAll client proxy) s :=
  h.bind (calls_incrementProxyErrors trivial)
    (fun _ _ hs => h.bind (p := closeContext id) ⟨trivial, fun _ => trivial⟩ (fun _ s hs => h.closed proxy s hs) hs) hs

theorem FreeInv.onConnected {s : S} (hs : I s) : WP obs Q (onConnected m client proxy ctx) s := by
  refine h.bind (calls_closeAuthContext (fun _ => trivial) ctx) (fun _ s hs => ?_) hs
  refine h.bind (p := do
    setsockopt proxy .rcvTimeo 0
    setsockopt proxy .sndTimeo 0
    setsockopt proxy .keepAlive 1
    setsockopt client .keepAlive 1
    freeaddrinfo) ?_ (fun _ s hs => h.bridged proxy s hs) hs
  exact ⟨trivial, fun _ => ⟨trivial, fun _ => ⟨trivial, fun _ => ⟨trivial, fun _ => ⟨trivial, fun _ => trivial⟩⟩⟩⟩⟩

theorem FreeInv.onChallenge {retry : Option (BitVec 64 → RelayProg Unit)}
    (hr : ∀ f, retry = some f → ∀ id s, I s → WP obs Q (f id) s) (id : BitVec 64) (resp : Bytes) {s : S} (hs : I s) :
    WP obs Q (onChallenge m client proxy retry id resp) s := by
  unfold Impl.onChallenge
  dsimp only
  split
  · exact h.contextFailed hs
  refine h.bind (p := continueContext id _) ⟨trivial, fun _ => trivial⟩ (fun (r : ContinueContextResult) s hs => ?_) hs
  split
  · exact h.contextFailed hs
  split
  · exact h.contextFailed hs
  refine h.bind (p := writeLastAuthToken r.token) ⟨trivial, fun _ => trivial⟩ (fun _ s hs => ?_) hs
  cases retry with
  | none => exact h.contextFailed hs
  | some f => exact hr f rfl id s hs

theorem FreeInv.onUnauthenticated {retry : Option (BitVec 64 → RelayProg Unit)}
    (hr : ∀ f, retry = some f → ∀ id s, I s → WP obs Q (f id) s) {s : S} (hs : I s) :
    WP obs Q (onUnauthenticated m client proxy retry) s := by
  refine h.bind (p := createContext (spn m)) ⟨trivial, fun _ => trivial⟩ (fun (r : CreateContextResult) s hs => ?_) hs
  split
  · refine h.bind (p := writeLastAuthToken r.token) ⟨trivial, fun _ => trivial⟩ (fun _ s hs => ?_) hs
    cases retry with
    | none =>
      exact h.bind (p := closeContext r.contextId) ⟨trivial, fun _ => trivial⟩ (fun _ s hs => h.closed proxy s hs) hs
    | some f => exact hr f rfl r.contextId s hs
  · exact h.bind (calls_incrementProxyErrors trivial) (fun _ s hs => h.closed proxy s hs) hs

theorem FreeInv.onFailure {again : Option (RelayProg Unit)} (ha : ∀ p, again = some p → ∀ s, I s → WP obs Q p s)
    (resp : Bytes) {s : S} (hs : I s) : WP obs Q (onFailure m client proxy again ctx resp) s := by
  unfold Impl.onFailure
  split
  · rename_i p _
    refine h.bind (calls_closeAuthContext (fun _ => trivial) ctx) (fun _ s hs => ?_) hs
    exact h.bind (p := do closesocket proxy; sleep 500) ⟨trivial, fun _ => ⟨trivial, fun _ => trivial⟩⟩
      (fun _ s hs => ha p rfl s hs) hs
  · exact h.failed hs

/-- The invariant holds whenever the handler jumps back or ends. -/
theorem FreeInv.awaitResponse {again : Option (RelayProg Unit)} {retry : Option (BitVec 64 → RelayProg Unit)}
    (ha : ∀ p, again = some p → ∀ s, I s → WP obs Q p s) (hr : ∀ f, retry = some f → ∀ id s, I s → WP obs Q (f id) s)
    {s : S} (hs : I s) : WP obs Q (awaitResponse m client proxy again retry ctx) s := by
  refine h.bind (p := recv proxy 4095) ⟨trivial, fun _ => trivial⟩ (fun r s hs => ?_) hs
  cases r with
  | none => exact h.throws s hs
  | some resp =>
    dsimp only
    unfold onResponse
    split
    · exact h.failed hs
    split
    · exact h.onConnected hs
    split
    · cases ctx with
      | none => exact h.onUnauthenticated hr hs
      | some id =>
        dsimp only
        split
        · exact h.onChallenge hr id resp.1 hs
        · exact h.contextFailed hs
    · exact h.onFailure ha resp.1 hs

end

/-! ## A small relay -/

namespace Demo

/-- A relay without authentication. -/
def tcpRelay : Relay := ⟨ascii "proxy", 3128, false, none, true⟩

/-- Socket 1 was accepted for a connection to 1.2.3.4:443. -/
def accepted : RelayContext := ⟨1, 0x04030201, 443, 0⟩

/-- Every call succeeds, but `recv` fails. -/
def reply : (c : Call) → c.Resp
  | .getaddrinfo _ => (some 0x0100007f : Option (BitVec 32))
  | .socket => (some 2 : Option Sock)
  | .connect _ _ _ => true
  | .send _ data => some (Fin.last data.length)
  | .recv _ _ => none
  | .createContext _ => (⟨true, 7, []⟩ : CreateContextResult)
  | .continueContext _ _ => (⟨true, []⟩ : ContinueContextResult)
  | .readLastAuthToken => ([] : Bytes)
  | .decrementRefs => (1 : BitVec 32)
  | .freeaddrinfo | .setsockopt _ _ _ | .shutdown _ | .closesocket _ | .closeContext _ | .writeLastAuthToken _
  | .incrementProxyErrors | .sleep _ | .startBridge _ _ | .fetchAdd _ => ()

end Demo

end TR.Impl
