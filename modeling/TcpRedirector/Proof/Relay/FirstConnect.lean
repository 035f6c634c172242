import TcpRedirector.Proof.Relay.Calls

/-!
# The first CONNECT of a connection

What a handler sends to the proxy is given by the header that it has got from
`authenticate`. An observer keeps the calls since the last connection to the
proxy up to the next CONNECT; it accepts the handler if every header is as it
should be after those calls (`handler_follows`).
-/

namespace TR.Impl

open RelayProg

/-- The calls of a run, with their answers. -/
abbrev CallTrace : Type := List (Answered Call Call.Resp)

/-- A CONNECT with this header for the proxy. -/
def connectWith (destIp : BitVec 32) (destPort : BitVec 16) (header : Bytes) : Bytes :=
  connectReq destIp destPort ++ header ++ ascii "Proxy-Connection: Keep-Alive\r\n\r\n"

/-- `data` is the first CONNECT on a connection to the proxy; `part` are the calls in between. -/
def FirstConnect (tr part : CallTrace) (data : Bytes) : Prop :=
  ∃ before k addr port proxy n after,
    tr = before ++ ⟨.connect k addr port, true⟩ :: (part ++ ⟨.send proxy data, n⟩ :: after) ∧ ∀ e ∈ part, Free e.1

/-- Whether a CONNECT is as it should be. The calls since the connection are
given for the first one. -/
abbrev Accepts : Type := Option CallTrace → Bytes → Bool

/-- The calls since the last connection, if there was no CONNECT yet. -/
def watch (ok : Accepts) (s : Option CallTrace) (c : Call) (r : c.Resp) : Option (Option CallTrace) :=
  match c, r with
  | .connect _ _ _, (opened : Bool) => some (if opened then some [] else none)
  | .send _ data, _ => if ok s data then some none else none
  | c, r => some (s.map (· ++ [⟨c, r⟩]))

section

variable {ok : Accepts} {s s' : Option CallTrace} {tr part : CallTrace} {data : Bytes}

theorem watch_free {c : Call} (hc : Free c) (r : c.Resp) (s : Option CallTrace) :
    watch ok s c r = some (s.map (· ++ [⟨c, r⟩])) := by
  cases c with
  | connect | send => exact hc.elim
  | _ => rfl

theorem watch_send (h : ok s data = true) (proxy : Sock) (n : Option (Fin (data.length + 1))) :
    watch ok s (.send proxy data) n = some none := if_pos h

theorem observe_free (hpart : ∀ e ∈ part, Free e.1) (calls : CallTrace) :
    observe (watch ok) part (some calls) = some (some (calls ++ part)) := by
  induction part generalizing calls with
  | nil => rw [List.append_nil]; rfl
  | cons e part ih =>
    rw [observe, watch_free (hpart e List.mem_cons_self)]
    show observe (watch ok) part (some (calls ++ [e])) = _
    rw [ih fun e' he' => hpart e' (List.mem_cons_of_mem _ he'), List.append_assoc]
    rfl

/-- The observer has accepted every CONNECT. -/
theorem accepted_of_observe (h : observe (watch ok) tr s = some s') {proxy : Sock} {n : Option (Fin (data.length + 1))}
    (hmem : ⟨.send proxy data, n⟩ ∈ tr) : ∃ s, ok s data = true := by
  obtain ⟨before, after, rfl⟩ := List.append_of_mem hmem
  rw [observe_append] at h
  obtain ⟨s₁, -, h⟩ := Option.bind_eq_some_iff.mp h
  obtain ⟨s₂, h, -⟩ := Option.bind_eq_some_iff.mp h
  by_cases hok : ok s₁ data = true
  · exact ⟨s₁, hok⟩
  · simp [watch, hok] at h

/-- And every first one after the calls before it. -/
theorem first_of_observe (h : observe (watch ok) tr s = some s') (hfirst : FirstConnect tr part data) :
    ok (some part) data = true := by
  obtain ⟨before, k, addr, port, proxy, n, after, rfl, hpart⟩ := hfirst
  rw [observe_append] at h
  obtain ⟨s₁, -, h⟩ := Option.bind_eq_some_iff.mp h
  obtain ⟨s₂, h₂, h⟩ := Option.bind_eq_some_iff.mp h
  cases h₂
  rw [observe_append, show (if true = true then some [] else none : Option CallTrace) = some [] from rfl, observe_free hpart,
    List.nil_append] at h
  obtain ⟨s₃, h₃, h⟩ := Option.bind_eq_some_iff.mp h
  cases h₃
  obtain ⟨s₄, h, -⟩ := Option.bind_eq_some_iff.mp h
  by_cases hok : ok (some part) data = true
  · exact hok
  · simp [watch, hok] at h

end

/-! ## The handler -/

section

variable {ok : Accepts} {m : Relay} {client proxy : Sock} {destIp : BitVec 32} {destPort : BitVec 16}

/-- Nothing but a CONNECT is ever refused. -/
theorem freeInv_watch (ok : Accepts) (client : Sock) :
    FreeInv (watch ok) (fun _ _ => True) client (· = none) where
  free c hc r s hs := ⟨_, watch_free hc r s, by rw [hs]; rfl⟩
  throws _ _ := trivial
  closed _ _ _ := fun _ => ⟨_, rfl, fun _ => ⟨_, rfl, fun _ => ⟨_, rfl, trivial⟩⟩⟩
  bridged _ _ _ := fun _ => ⟨_, rfl, trivial⟩

/-- The header that `authenticate` gives in this state of the observer is accepted. -/
def GivesHeader (ok : Accepts) (m : Relay) (destIp : BitVec 32) (destPort : BitVec 16) (ctx : AuthContext)
    (s : Option CallTrace) : Prop :=
  WP (watch ok) (fun s r => ∀ a, r = some a → ok s (connectWith destIp destPort a.1) = true) (authenticate m ctx) s

theorem sendConnect_follows {again : Option (RelayProg Unit)} {retry : Option (BitVec 64 → RelayProg Unit)}
    {ctx : AuthContext}
    {s : Option CallTrace} (hheader : GivesHeader ok m destIp destPort ctx s)
    (ha : ∀ p, again = some p → WP (watch ok) (fun _ _ => True) p none)
    (hr : ∀ f, retry = some f → ∀ id, WP (watch ok) (fun _ _ => True) (f id) none) :
    WP (watch ok) (fun _ _ => True) (sendConnect m client proxy destIp destPort again retry ctx) s := by
  rw [sendConnect, WP_bind]
  refine hheader.mono fun s r hok => ?_
  cases r with
  | none => trivial
  | some a =>
    obtain ⟨auth, ctx'⟩ := a
    have hsend : ok s (connectWith destIp destPort auth) = true := hok (auth, ctx') rfl
    intro n
    refine ⟨none, watch_send hsend proxy n, ?_⟩
    have hfree := freeInv_watch ok client
    cases (n : Option (Fin _)) with
    | none => exact hfree.failed rfl
    | some n =>
      exact hfree.awaitResponse (fun p hp s hs => hs ▸ ha p hp) (fun f hf id s hs => hs ▸ hr f hf id) rfl

variable (hlater : ∀ id, GivesHeader ok m destIp destPort (some id) none)

include hlater

theorem retryConnect_follows {again : Option (RelayProg Unit)}
    (ha : ∀ p, again = some p → WP (watch ok) (fun _ _ => True) p none)
    (n : Nat) {ctx : AuthContext} {s : Option CallTrace} (hheader : GivesHeader ok m destIp destPort ctx s) :
    WP (watch ok) (fun _ _ => True) (retryConnect m client proxy destIp destPort again n ctx) s := by
  induction n generalizing ctx s with
  | zero => exact sendConnect_follows hheader ha nofun
  | succ n ih =>
    refine sendConnect_follows hheader ha fun f hf id => ?_
    cases hf
    exact ih (hlater id)

theorem connectProxy_follows (hfirst : GivesHeader ok m destIp destPort none (some [])) {addr : BitVec 32}
    {again : Option (RelayProg Unit)} (ha : ∀ p, again = some p → WP (watch ok) (fun _ _ => True) p none) :
    WP (watch ok) (fun _ _ => True) (connectProxy m client addr destIp destPort again) none := by
  have hfree := freeInv_watch ok client
  refine hfree.bind (p := socket) ⟨trivial, fun _ => trivial⟩ (fun k s hs => ?_) rfl
  cases k with
  | none =>
    refine hfree.bind (calls_incrementProxyErrors trivial) (fun _ _ _ => ?_) hs
    exact fun _ => ⟨_, rfl, fun _ => ⟨_, rfl, trivial⟩⟩
  | some proxy =>
    refine hfree.bind (calls_setSocketOptions fun _ _ _ => trivial) (fun _ s hs => ?_) hs
    intro r
    cases (r : Bool) with
    | true => exact ⟨some [], rfl, retryConnect_follows hlater ha 5 hfirst⟩
    | false =>
      refine ⟨none, rfl, hfree.bind (calls_incrementProxyErrors trivial) (fun _ s hs => hfree.closed proxy s hs) rfl⟩

theorem handler_follows (hfirst : GivesHeader ok m destIp destPort none (some [])) (client : Sock) (id : BitVec 32) :
    WP (watch ok) (fun _ _ => True) (connectionHandler m ⟨client, destIp, destPort, id⟩) none := by
  have hretries (addr : BitVec 32) (n : Nat) :
      WP (watch ok) (fun _ _ => True) (retryProxyConnect m client addr destIp destPort n) none := by
    induction n with
    | zero => exact connectProxy_follows hlater hfirst nofun
    | succ n ih => exact connectProxy_follows hlater hfirst fun p hp => by cases hp; exact ih
  intro addr
  refine ⟨none, rfl, ?_⟩
  cases (addr : Option (BitVec 32)) with
  | none =>
    refine (freeInv_watch ok client).bind (calls_incrementProxyErrors trivial) (fun _ _ _ => ?_) rfl
    exact fun _ => ⟨_, rfl, trivial⟩
  | some addr => exact hretries addr MAX_GATEWAY_RETRIES

end

/-! ## Its header -/

def authorization (scheme : String) (token : Bytes) : Bytes :=
  ascii "Proxy-Authorization: " ++ ascii scheme ++ token ++ ascii "\r\n"

section

variable {m : Relay} {destIp : BitVec 32} {destPort : BitVec 16}

/-- A CONNECT without authentication. -/
def plain (destIp : BitVec 32) (destPort : BitVec 16) : Accepts := fun _ data => data == connectWith destIp destPort []

theorem givesHeader_plain (h : m.proxyAuthRequired = false) (ctx : AuthContext) (s : Option CallTrace) :
    GivesHeader (plain destIp destPort) m destIp destPort ctx s := by
  have hconfigured : ¬authConfigured m = true := by simp [authConfigured, h]
  unfold GivesHeader authenticate
  rw [if_neg hconfigured]
  intro a ha
  cases ha
  exact beq_self_eq_true _

/-- A context that was created, whose token is sent. -/
def sends (destIp : BitVec 32) (destPort : BitVec 16) (data : Bytes) : Answered Call Call.Resp → Bool
  | ⟨.createContext _, (r : CreateContextResult)⟩ =>
    !r.success || data == connectWith destIp destPort (authorization "Negotiate " r.token)
  | _ => false

theorem created_of_sends {data : Bytes} {part : CallTrace} {e : Answered Call Call.Resp} (he : e ∈ part)
    (h : sends destIp destPort data e = true) :
    ∃ (name : Bytes) (r : CreateContextResult), ⟨.createContext name, r⟩ ∈ part ∧
      (r.success = true → data = connectWith destIp destPort (authorization "Negotiate " r.token)) := by
  obtain ⟨c, r⟩ := e
  cases c with
  | createContext name =>
    refine ⟨name, r, he, fun hsuccess => ?_⟩
    have hsends : (!CreateContextResult.success r ||
        data == connectWith destIp destPort (authorization "Negotiate " r.token)) = true := h
    rw [hsuccess] at hsends
    exact eq_of_beq hsends
  | _ => cases h

/-- A first CONNECT with the agent's token. -/
def negotiates (destIp : BitVec 32) (destPort : BitVec 16) : Accepts := fun part data =>
  match part with
  | none => true
  | some part => part.any (sends destIp destPort data)

theorem givesHeader_first (h : m.proxyAuthRequired = true) (hprovider : m.authProvider = some .kerberosAgent) :
    GivesHeader (negotiates destIp destPort) m destIp destPort none (some []) := by
  have hconfigured : authConfigured m = true := by simp [authConfigured, h, hprovider]
  have hheader (token : Bytes) : proxyAuthorization m token = authorization "Negotiate " token := by
    rw [proxyAuthorization, if_neg (by rw [hprovider]; nofun)]
    rfl
  rw [GivesHeader, authenticate, if_pos hconfigured]
  intro r
  refine ⟨some [⟨.createContext (spn m), r⟩], rfl, ?_⟩
  show WP _ _ (if CreateContextResult.success r = true then _ else _) _
  split
  next hsuccess =>
    intro a ha
    cases ha
    simp only [negotiates, List.any_cons, sends, hheader, beq_self_eq_true, Bool.or_true, Bool.true_or]
  next hfailure =>
    intro a ha
    simp only [negotiates, List.any_cons, sends, Bool.not_eq_true] at hfailure ⊢
    simp [hfailure]

theorem givesHeader_later (h : m.authProvider ≠ none) (hrequired : m.proxyAuthRequired = true) (id : BitVec 64) :
    GivesHeader (negotiates destIp destPort) m destIp destPort (some id) none := by
  have hconfigured : authConfigured m = true := by
    simpa [authConfigured, hrequired, Option.isSome_iff_ne_none] using h
  rw [GivesHeader, authenticate, if_pos hconfigured]
  exact fun _ => ⟨none, rfl, fun _ _ => rfl⟩

end

end TR.Impl
