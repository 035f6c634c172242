import TcpRedirector.Impl.Relay.ConnectionHandler
import TcpRedirector.Proof.Framework.Bytes

/-!
# What the handler makes of a response

After a response the handler takes one of four branches (`Branch`). `200` is
looked for in the status line, but `407`, `502` and `504` anywhere in the
response, so the branch is the one of the status code (`Branch.ofStatus`)
exactly if none of the three texts disturbs it (`classification_iff`).
-/

namespace TR.Impl

open RelayProg

inductive Branch where
  /-- The sockets are handed to the bridge. -/
  | tunnel
  /-- The response is taken for a demand to authenticate. -/
  | authenticate
  /-- Another connection to the proxy is tried. -/
  | reconnect
  /-- One proxy error is counted and everything closed. -/
  | fail
  deriving Repr, DecidableEq

/-- The branch a status code asks for, with so many gateway retries made. -/
def Branch.ofStatus (s : Nat) (auth : Bool) (gatewayRetries : Nat) : Branch :=
  if s = 200 then .tunnel
  else if s = 407 ∧ auth then .authenticate
  else if (s = 502 ∨ s = 504) ∧ gatewayRetries < MAX_GATEWAY_RETRIES then .reconnect
  else .fail

/-- The three digits of a status code. -/
def statusDigits (s : Nat) : Bytes :=
  [BitVec.ofNat 8 (48 + s / 100), BitVec.ofNat 8 (48 + s / 10 % 10), BitVec.ofNat 8 (48 + s % 10)]

/-- A response whose status line has the code `s`. -/
def HasStatus (s : Nat) (resp : Bytes) : Prop :=
  s < 1000 ∧ ∃ x rest, resp = ascii "HTTP/1." ++ x :: 32 :: (statusDigits s ++ rest)

section

variable (m : Relay)

/-- The branch the handler takes. -/
def branch (gatewayRetries : Nat) (resp : Bytes) : Branch :=
  if connectOk resp then .tunnel
  else if mentions407 resp && authConfigured m then .authenticate
  else if isGatewayError resp && gatewayRetries < MAX_GATEWAY_RETRIES then .reconnect
  else .fail

/-- The jump to `retry_proxy_connect` that is still allowed. -/
def jump (client : Sock) (addr destIp : BitVec 32) (destPort : BitVec 16) (gatewayRetries : Nat) :
    Option (RelayProg Unit) :=
  if gatewayRetries < MAX_GATEWAY_RETRIES then
    some (retryProxyConnect m client addr destIp destPort (MAX_GATEWAY_RETRIES - (gatewayRetries + 1)))
  else none

/-- What the handler does in a branch. -/
def Branch.prog (client proxy : Sock) (addr destIp : BitVec 32) (destPort : BitVec 16) (gatewayRetries : Nat)
    (retry : Option (BitVec 64 → RelayProg Unit)) (ctx : AuthContext) (resp : Bytes) : Branch → RelayProg Unit
  | .tunnel => onConnected m client proxy ctx
  | .authenticate =>
    match ctx with
    | some authContextId =>
      if m.authProvider = some .kerberosAgent then onChallenge m client proxy retry authContextId resp
      else onRejected m client proxy authContextId
    | none => onUnauthenticated m client proxy retry
  | .reconnect => do
    closeAuthContext m ctx
    closesocket proxy
    sleep 500
    retryProxyConnect m client addr destIp destPort (MAX_GATEWAY_RETRIES - (gatewayRetries + 1))
  | .fail => do
    incrementProxyErrors m
    closeAuthContext m ctx
    closeAll client proxy

/-- None of the texts that are looked for in the whole response leads to
another branch than the status code's. -/
def Undisturbed (s gatewayRetries : Nat) (resp : Bytes) : Prop :=
  s = 200 ∨ (s = 407 ∧ authConfigured m = true) ∨
    (¬ (authConfigured m = true ∧ ascii "407" <:+: resp) ∧
      (s = 502 ∨ s = 504 ∨ MAX_GATEWAY_RETRIES ≤ gatewayRetries ∨
        (¬ ascii "502" <:+: resp ∧ ¬ ascii "504" <:+: resp)))

end

/-! ## The tests on the response -/

section

variable {s : Nat} {resp : Bytes}

theorem ofNat_digit {a b : Nat} (ha : a < 10) (hb : b < 10) : BitVec.ofNat 8 (48 + a) = BitVec.ofNat 8 (48 + b) ↔ a = b := by
  constructor
  · intro h
    have := congrArg BitVec.toNat h
    simp only [BitVec.toNat_ofNat] at this
    omega
  · rintro rfl; rfl

theorem connectOk_iff (h : HasStatus s resp) : connectOk resp = true ↔ s = 200 := by
  obtain ⟨hs, x, rest, rfl⟩ := h
  have hok : connectOk (ascii "HTTP/1." ++ x :: 32 :: (statusDigits s ++ rest)) =
      (BitVec.ofNat 8 (48 + s / 100) == 50#8 && BitVec.ofNat 8 (48 + s / 10 % 10) == 48#8 &&
        BitVec.ofNat 8 (48 + s % 10) == 48#8) := by
    simp [connectOk, statusDigits, ascii]
  rw [hok, Bool.and_eq_true, Bool.and_eq_true, beq_iff_eq, beq_iff_eq, beq_iff_eq,
    show (50#8) = BitVec.ofNat 8 (48 + 2) from rfl, show (48#8) = BitVec.ofNat 8 (48 + 0) from rfl,
    ofNat_digit (by omega) (by omega), ofNat_digit (by omega) (by omega), ofNat_digit (by omega) (by omega)]
  omega

/-- The code stands in the response. -/
theorem statusDigits_infix (h : HasStatus s resp) : statusDigits s <:+: resp := by
  obtain ⟨-, x, rest, rfl⟩ := h
  exact ⟨ascii "HTTP/1." ++ [x, 32], rest, by simp⟩

theorem mentions407_iff (h0 : (0 : Byte) ∉ resp) : mentions407 resp = true ↔ ascii "407" <:+: resp := by
  rw [mentions407, cstr_of_notMem h0, find_isSome]

theorem isGatewayError_iff : isGatewayError resp = true ↔ ascii "504" <:+: resp ∨ ascii "502" <:+: resp := by
  rw [isGatewayError, Bool.or_eq_true, find_isSome, find_isSome]

theorem HasStatus.ne_nil (h : HasStatus s resp) : resp.isEmpty = false := by
  obtain ⟨-, x, rest, rfl⟩ := h
  rfl

end

section

variable {m : Relay} {s gatewayRetries : Nat} {resp : Bytes}

/-- The handler does what the branch says. -/
theorem onResponse_branch (client proxy : Sock) (addr destIp : BitVec 32) (destPort : BitVec 16)
    (retry : Option (BitVec 64 → RelayProg Unit)) (ctx : AuthContext) (hne : resp.isEmpty = false) :
    onResponse m client proxy (jump m client addr destIp destPort gatewayRetries) retry ctx resp =
      (branch m gatewayRetries resp).prog m client proxy addr destIp destPort gatewayRetries retry ctx resp := by
  simp only [onResponse, hne, branch, Bool.false_eq_true, ite_false]
  split
  · rfl
  · split
    · rfl
    · by_cases hg : gatewayRetries < MAX_GATEWAY_RETRIES
      · cases he : isGatewayError resp <;> simp [onFailure, jump, he, hg, Branch.prog]
      · cases he : isGatewayError resp <;> simp [onFailure, jump, he, hg, Branch.prog]

/-- The jump allowed after so many retries. -/
theorem retryProxyConnect_eq (client : Sock) (addr destIp : BitVec 32) (destPort : BitVec 16) :
    retryProxyConnect m client addr destIp destPort (MAX_GATEWAY_RETRIES - gatewayRetries) =
      connectProxy m client addr destIp destPort (jump m client addr destIp destPort gatewayRetries) := by
  rw [jump]
  split
  · rename_i hg
    rw [show MAX_GATEWAY_RETRIES - gatewayRetries = MAX_GATEWAY_RETRIES - (gatewayRetries + 1) + 1 by omega]
    rfl
  · rename_i hg
    rw [show MAX_GATEWAY_RETRIES - gatewayRetries = 0 by omega]
    rfl

/-- Which branch it is. -/
theorem branch_eq_iff (h : HasStatus s resp) (h0 : (0 : Byte) ∉ resp) :
    branch m gatewayRetries resp = .ofStatus s (authConfigured m) gatewayRetries ↔
      Undisturbed m s gatewayRetries resp := by
  have hc : ∀ c, s = c → statusDigits c <:+: resp := fun c e => e ▸ statusDigits_infix h
  have h407 : s = 407 → ascii "407" <:+: resp := hc 407
  have h502 : s = 502 → ascii "502" <:+: resp := hc 502
  have h504 : s = 504 → ascii "504" <:+: resp := hc 504
  simp only [branch, Branch.ofStatus, Undisturbed, connectOk_iff h, Bool.and_eq_true, mentions407_iff h0,
    isGatewayError_iff, decide_eq_true_eq]
  grind

end

/-- After so many gateway retries, the branch the handler takes on a response
with status code `s` is the one of `s`, of the configuration and of the
retries made, exactly if nothing else in the response disturbs it. -/
theorem classification_iff (m : Relay) (client proxy : Sock) (addr destIp : BitVec 32) (destPort : BitVec 16)
    (gatewayRetries : Nat) (retry : Option (BitVec 64 → RelayProg Unit)) (ctx : AuthContext) (s : Nat) (resp : Bytes)
    (h : HasStatus s resp) (h0 : (0 : Byte) ∉ resp) :
    retryProxyConnect m client addr destIp destPort (MAX_GATEWAY_RETRIES - gatewayRetries) =
        connectProxy m client addr destIp destPort (jump m client addr destIp destPort gatewayRetries) ∧
      onResponse m client proxy (jump m client addr destIp destPort gatewayRetries) retry ctx resp =
        (branch m gatewayRetries resp).prog m client proxy addr destIp destPort gatewayRetries retry ctx resp ∧
      (branch m gatewayRetries resp = .ofStatus s (authConfigured m) gatewayRetries ↔
        Undisturbed m s gatewayRetries resp) :=
  ⟨retryProxyConnect_eq client addr destIp destPort,
    onResponse_branch client proxy addr destIp destPort retry ctx h.ne_nil, branch_eq_iff h h0⟩

namespace Demo

/-- A proxy that authenticates its clients. -/
def authRelay : Relay := ⟨ascii "proxy", 3128, true, some .kerberosAgent, true⟩

/-- A refusal whose body names a ticket. -/
def forbidden : Bytes := ascii "HTTP/1.1 403 Forbidden\r\n\r\nTicket 90407"

end Demo

theorem Demo.forbidden_status : HasStatus 403 Demo.forbidden :=
  ⟨by decide, 49, ascii " Forbidden\r\n\r\nTicket 90407", by decide⟩

/-- A refusal that names no other code is classified by its own. -/
theorem classification_gatewayTimeout :
    let resp := ascii "HTTP/1.1 504 Gateway Timeout\r\n\r\n"
    HasStatus 504 resp ∧ (0 : Byte) ∉ resp ∧ branch Demo.authRelay 0 resp = .reconnect := by
  have hs : HasStatus 504 (ascii "HTTP/1.1 504 Gateway Timeout\r\n\r\n") :=
    ⟨by decide, 49, ascii " Gateway Timeout\r\n\r\n", by decide⟩
  refine ⟨hs, by decide, ?_⟩
  refine (classification_iff Demo.authRelay 1 2 0 0 0 0 none none 504 _ hs (by decide)).2.2.mpr (.inr (.inr ⟨?_, ?_⟩))
  · rintro ⟨-, h⟩
    exact absurd (find_isSome.mpr h) (by decide)
  · exact .inr (.inl rfl)

/-- A body with `407` in it turns a refusal into a demand to authenticate. -/
theorem forbidden_authenticates :
    HasStatus 403 Demo.forbidden ∧ (0 : Byte) ∉ Demo.forbidden ∧ Demo.forbidden.length ≤ 4095 ∧
      onResponse Demo.authRelay 1 2 (jump Demo.authRelay 1 0 0 0 0) none none Demo.forbidden =
        onUnauthenticated Demo.authRelay 1 2 none ∧
      branch Demo.authRelay 0 Demo.forbidden = .authenticate ∧
      Branch.ofStatus 403 (authConfigured Demo.authRelay) 0 = .fail := by
  have hb : branch Demo.authRelay 0 Demo.forbidden = .authenticate := by decide
  refine ⟨Demo.forbidden_status, by decide, by decide, ?_, hb, by decide⟩
  rw [onResponse_branch 1 2 0 0 0 none none Demo.forbidden_status.ne_nil, hb]
  rfl

end TR.Impl
