import TcpRedirector.Impl.Relay.OneWayRelay
import TcpRedirector.Proof.Framework.Bytes
import TcpRedirector.Proof.Relay.Calls

/-!
# The bytes of a tunnel

The proxy answers a CONNECT with a header block and goes on with the
tunnel's data; `recv` may cut the stream anywhere. The handler reads once and
leaves the rest to the bridge, so the client receives exactly the tunnel's
data if that one `recv` ends where the header ends (`tunnel_faithful_iff`).
-/

namespace TR.Impl

/-- A tunnel as the two sockets show it. -/
structure Tunnel where
  /-- What the proxy has sent and nobody has read, as it arrives; then it
  closes. -/
  segments : List Bytes
  /-- What the client was sent. -/
  delivered : Bytes := []
  /-- The number of `send`s to the client. -/
  sends : Nat := 0
  deriving Repr, DecidableEq

namespace Tunnel

/-- `recv`: what has arrived of the first segment, up to `len` bytes. -/
def recv (w : Tunnel) (len : Nat) : { b : Bytes // b.length ≤ len } × Tunnel :=
  match w.segments with
  | [] => (⟨[], Nat.zero_le _⟩, w)
  | seg :: rest =>
    (⟨seg.take len, List.length_take_le ..⟩,
      { w with segments := if (seg.drop len).isEmpty then rest else seg.drop len :: rest })

/-- `send`: at least one byte goes out, and of the rest as many as `quota`
says. -/
def send (quota : Nat → Nat) (w : Tunnel) (data : Bytes) : Fin (data.length + 1) × Tunnel :=
  let n := min data.length (quota w.sends + 1)
  (⟨n, by omega⟩, { w with delivered := w.delivered ++ data.take n, sends := w.sends + 1 })

/-- The environment of a tunnel: `recv` from the proxy and `send` to the
client succeed, and `other` answers everything else. -/
def answer (client proxy : Sock) (quota : Nat → Nat) (other : (c : Call) → c.Resp) :
    (c : Call) → Tunnel → c.Resp × Tunnel
  | .recv s len, w => if s = proxy then (some (w.recv len).1, (w.recv len).2) else (other (.recv s len), w)
  | .send s data, w => if s = client then (some (w.send quota data).1, (w.send quota data).2)
      else (other (.send s data), w)
  | c, w => (other c, w)

end Tunnel

/-- The bridge that a call starts. -/
def bridged : Answered Call Call.Resp → Option (Sock × Sock)
  | ⟨.startBridge client proxy, _⟩ => some (client, proxy)
  | _ => none

/-- The client has received `out` in the end: the program `p` has run, and if
it started a bridge, so has its DN direction. -/
def Delivers {σ : Type} (answer : (c : Call) → σ → c.Resp × σ) (delivered : σ → Bytes) (p : RelayProg Unit) (w : σ)
    (out : Bytes) : Prop :=
  match (p.exec answer w).trace.findSome? bridged with
  | none => delivered (p.exec answer w).state = out
  | some (client, proxy) => ∃ n,
    let r := advance (oneWayRelay (dnConfig client proxy)) answer n (.recv 0, (p.exec answer w).state)
    r.1 = .done ∧ delivered r.2 = out

/-- A complete header block of a 200 response: it ends with the first empty line. -/
structure HeaderBlock (h : Bytes) : Prop where
  status : ∃ x rest, h = ascii "HTTP/1." ++ x :: ascii " 200" ++ rest
  complete : find (ascii "\r\n\r\n") h = some (h.length - 4)

/-! ## The bridge -/

section

variable {client proxy : Sock} {quota : Nat → Nat} {other : (c : Call) → c.Resp}

/-- The DN direction in a tunnel, from one state to another. -/
def Reaches (client proxy : Sock) (quota : Nat → Nat) (other : (c : Call) → c.Resp)
    (x y : OneWayState × Tunnel) : Prop :=
  ∃ n, advance (oneWayRelay (dnConfig client proxy)) (Tunnel.answer client proxy quota other) n x = y

theorem Reaches.trans {x y z : OneWayState × Tunnel} (h₁ : Reaches client proxy quota other x y)
    (h₂ : Reaches client proxy quota other y z) : Reaches client proxy quota other x z := by
  obtain ⟨a, rfl⟩ := h₁
  obtain ⟨b, rfl⟩ := h₂
  exact ⟨a + b, advance_add a b x⟩

/-- A direction that has ended has one end. -/
theorem Reaches.done_unique {x : OneWayState × Tunnel} {w₁ w₂ : Tunnel}
    (h₁ : Reaches client proxy quota other x (.done, w₁)) (h₂ : Reaches client proxy quota other x (.done, w₂)) :
    w₁ = w₂ := by
  obtain ⟨a, ha⟩ := h₁
  obtain ⟨b, hb⟩ := h₂
  have := advance_end_unique (x := x) (a := a) (b := b) (by rw [ha]; rfl) (by rw [hb]; rfl)
  rw [ha, hb] at this
  exact congrArg Prod.snd this

variable (client proxy quota other)

/-- What was received is sent on, however little each `send` takes. -/
theorem send_reaches (rest : Bytes) (len : Nat) (total : BitVec 64) (w : Tunnel) (h : rest ≠ []) :
    ∃ k, Reaches client proxy quota other (.send rest len total, w)
      (.recv (total + BitVec.ofNat 64 len), { w with delivered := w.delivered ++ rest, sends := k }) := by
  induction hn : rest.length using Nat.strong_induction_on generalizing rest w with
  | _ n ih =>
    obtain ⟨w', hw⟩ : ∃ w' : Tunnel, w' = (w.send quota rest).2 := ⟨_, rfl⟩
    have hstep : Reaches client proxy quota other (.send rest len total, w)
        (sendRest (rest.drop (w.send quota rest).1) len total, w') := by
      refine ⟨1, ?_⟩
      simp [advance, oneWayRelay, dnConfig, Tunnel.answer, hw]
    have hk : 0 < ((w.send quota rest).1 : Nat) := by
      have := List.length_pos_of_ne_nil h
      simp only [Tunnel.send]; omega
    have hd : w'.delivered = w.delivered ++ rest.take (w.send quota rest).1 := by rw [hw]; rfl
    have hs : w'.segments = w.segments := by rw [hw]; rfl
    generalize hkk : ((w.send quota rest).1 : Nat) = k at *
    rw [sendRest] at hstep
    split at hstep
    · rename_i he
      rw [List.isEmpty_iff] at he
      refine ⟨w'.sends, ?_⟩
      have : w.delivered ++ rest = w'.delivered := by
        rw [hd, ← List.take_append_drop k rest, he, List.append_nil, List.take_take, Nat.min_self]
      rw [this, ← hs]
      exact hstep
    · rename_i he
      rw [List.isEmpty_iff] at he
      obtain ⟨j, hj⟩ := ih _ (by rw [← hn, List.length_drop]; have := List.length_pos_of_ne_nil h; omega)
        (rest.drop k) w' he rfl
      refine ⟨j, hstep.trans ?_⟩
      have : w'.delivered ++ rest.drop k = w.delivered ++ rest := by
        rw [hd, List.append_assoc, List.take_append_drop]
      rw [this, hs] at hj
      exact hj

/-- The end of a direction, whichever of the two is the last. -/
theorem account_reaches (total : BitVec 64) (w : Tunnel) :
    Reaches client proxy quota other (.account total, w) (.done, w) := by
  obtain ⟨refs, hrefs⟩ : ∃ refs : BitVec 32, refs = other .decrementRefs := ⟨_, rfl⟩
  have hrel : Reaches client proxy quota other (.account total, w) (if refs = 0 then .closeClient else .done, w) :=
    ⟨3, by rw [hrefs]; rfl⟩
  split at hrel
  · exact hrel.trans ⟨2, rfl⟩
  · exact hrel

/-- What `recv` returns is the front of what is left. -/
theorem Tunnel.recv_spec {w : Tunnel} (h : ∀ seg ∈ w.segments, seg ≠ []) (len : Nat) (hlen : 0 < len) :
    (w.recv len).1.1 ++ (w.recv len).2.segments.flatten = w.segments.flatten ∧
      (∀ seg ∈ (w.recv len).2.segments, seg ≠ []) ∧ ((w.recv len).1.1 = [] ↔ w.segments = []) := by
  rw [recv]
  split
  · rename_i hs
    simp [hs]
  · rename_i seg rest hs
    rw [hs, List.forall_mem_cons] at h
    have hne : seg.take len ≠ [] := by simp [h.1]; omega
    refine ⟨?_, ?_, iff_of_false hne (by simp [hs])⟩
    · rw [hs, List.flatten_cons]
      dsimp only
      split
      · rename_i he
        rw [List.isEmpty_iff] at he
        rw [← List.take_append_drop len seg, he, List.append_nil, List.take_take, Nat.min_self]
      · rw [List.flatten_cons, ← List.append_assoc, List.take_append_drop]
    · dsimp only
      split
      · exact h.2
      · rename_i he
        rw [List.isEmpty_iff] at he
        exact List.forall_mem_cons.mpr ⟨he, h.2⟩

/-- The DN direction sends the client everything that is left. -/
theorem recv_reaches (total : BitVec 64) (w : Tunnel) (h : ∀ seg ∈ w.segments, seg ≠ []) :
    ∃ w' : Tunnel, w'.delivered = w.delivered ++ w.segments.flatten ∧
      Reaches client proxy quota other (.recv total, w) (.done, w') := by
  induction hn : w.segments.flatten.length using Nat.strong_induction_on generalizing total w with
  | _ n ih =>
    obtain ⟨hcat, hne, hnil⟩ := Tunnel.recv_spec h 131072 (by omega)
    have hstep : Reaches client proxy quota other (.recv total, w)
        (if (w.recv 131072).1.1.isEmpty then .account total
          else .send (w.recv 131072).1.1 (w.recv 131072).1.1.length total, (w.recv 131072).2) :=
      ⟨1, by simp [advance, oneWayRelay, dnConfig, Tunnel.answer]⟩
    have hdel : (w.recv 131072).2.delivered = w.delivered := by rw [Tunnel.recv]; split <;> rfl
    generalize (w.recv 131072).1.1 = b at hcat hnil hstep
    generalize (w.recv 131072).2 = w₁ at hcat hne hstep hdel
    by_cases hb : b = []
    · rw [hb, List.isEmpty_nil, if_pos rfl] at hstep
      rw [hnil.mp hb, List.flatten_nil, List.append_nil]
      exact ⟨w₁, hdel, hstep.trans (account_reaches client proxy quota other total w₁)⟩
    · rw [List.isEmpty_eq_false_iff.mpr hb, if_neg (by simp)] at hstep
      obtain ⟨k, hk⟩ := send_reaches client proxy quota other b b.length total w₁ hb
      have hlt : w₁.segments.flatten.length < n := by
        rw [← hn, ← hcat, List.length_append]
        have := List.length_pos_of_ne_nil hb
        omega
      obtain ⟨w', hd, hr⟩ := ih _ hlt (total + BitVec.ofNat 64 b.length)
        { w₁ with delivered := w₁.delivered ++ b, sends := k } hne rfl
      refine ⟨w', ?_, hstep.trans (hk.trans hr)⟩
      rw [hd, hdel, ← hcat, List.append_assoc]

end

/-! ## The response -/

section

variable (m : Relay) (client proxy : Sock) (again : Option (RelayProg Unit))
  (retry : Option (BitVec 64 → RelayProg Unit)) (ctx : AuthContext) (quota : Nat → Nat) (other : (c : Call) → c.Resp)

theorem onConnected_exec (w : Tunnel) :
    let ran := (onConnected m client proxy ctx).exec (Tunnel.answer client proxy quota other) w
    ran.state = w ∧ ran.trace.findSome? bridged = some (client, proxy) := by
  unfold onConnected closeAuthContext
  cases ctx with
  | none => exact ⟨rfl, rfl⟩
  | some id =>
    cases hp : m.authProvider with
    | none => exact ⟨rfl, rfl⟩
    | some p => exact ⟨rfl, rfl⟩

/-- A response that is neither 200 nor 407 nor a gateway error ends the handler. -/
theorem onFailure_exec {resp : Bytes} (hg : isGatewayError resp = false) (w : Tunnel) :
    let ran := (onFailure m client proxy again ctx resp).exec (Tunnel.answer client proxy quota other) w
    ran.state = w ∧ ran.trace.findSome? bridged = none := by
  unfold onFailure closeAuthContext incrementProxyErrors
  rw [hg]
  cases ctx with
  | none => cases m.connectionMonitor <;> exact ⟨rfl, rfl⟩
  | some id => cases m.connectionMonitor <;> cases hp : m.authProvider <;> exact ⟨rfl, rfl⟩

/-- The bytes of the status line the handler looks at. -/
theorem connectOk_of_prefix {b h rest : Bytes} (hh : HeaderBlock h) (hb : b <+: h ++ rest) (hl : 12 ≤ b.length) :
    connectOk b = true := by
  obtain ⟨x, tail, rfl⟩ := hh.status
  obtain ⟨more, hm⟩ := hb
  have ht : b.take 12 = ascii "HTTP/1." ++ x :: ascii " 200" := by
    have := congrArg (List.take 12) hm
    rw [List.take_append_of_le_length hl] at this
    simpa [ascii] using this
  have h7 : b.take 7 = ascii "HTTP/1." := by
    rw [← show (b.take 12).take 7 = b.take 7 by rw [List.take_take]; rfl, ht]; rfl
  have hi (i : Nat) (hi : i < 12) : b[i]? = (ascii "HTTP/1." ++ x :: ascii " 200")[i]? := by
    rw [← ht, List.getElem?_take_of_lt hi]
  simp [connectOk, hl, h7, hi, ascii]

/-- Before that the response mentions no other status. -/
theorem short_response {b h rest : Bytes} (hh : HeaderBlock h) (hb : b <+: h ++ rest) (hl : b.length < 12) :
    connectOk b = false ∧ mentions407 b = false ∧ isGatewayError b = false := by
  obtain ⟨x, tail, rfl⟩ := hh.status
  have hp : b <+: ascii "HTTP/1." ++ x :: ascii " 20" := by
    refine List.prefix_of_prefix_length_le hb ⟨48 :: (tail ++ rest), by simp [ascii]⟩ ?_
    simp [ascii]; omega
  have h40 : ¬ [52, 48] <:+: ascii "HTTP/1." ++ x :: ascii " 20" := by
    simp [ascii, List.infix_cons_iff, List.cons_prefix_cons]
  have h50 : ¬ [53, 48] <:+: ascii "HTTP/1." ++ x :: ascii " 20" := by
    simp [ascii, List.infix_cons_iff, List.cons_prefix_cons]
  have hc : cstr b <:+: ascii "HTTP/1." ++ x :: ascii " 20" := ((List.takeWhile_prefix _).trans hp).isInfix
  refine ⟨by simp [connectOk]; omega, ?_, ?_⟩
  · rw [mentions407, show ascii "407" = 52 :: 48 :: [55] from rfl, find_eq_none fun h => h40 (h.trans hc)]
    rfl
  · rw [isGatewayError, show ascii "504" = 53 :: 48 :: [52] from rfl, show ascii "502" = 53 :: 48 :: [50] from rfl,
      find_eq_none fun h => h50 (h.trans hp.isInfix), find_eq_none fun h => h50 (h.trans hp.isInfix)]
    rfl

/-- The bridge delivers what the handler left of the stream. -/
theorem delivers_bridged {p : RelayProg Unit} {w w' : Tunnel} (hne : ∀ seg ∈ w'.segments, seg ≠ [])
    (hw : (p.exec (Tunnel.answer client proxy quota other) w).state = w')
    (ht : (p.exec (Tunnel.answer client proxy quota other) w).trace.findSome? bridged = some (client, proxy))
    (out : Bytes) :
    Delivers (Tunnel.answer client proxy quota other) (·.delivered) p w out ↔
      w'.delivered ++ w'.segments.flatten = out := by
  rw [Delivers, ht, hw]
  obtain ⟨wEnd, hd, hr⟩ := recv_reaches client proxy quota other 0 w' hne
  rw [← hd]
  constructor
  · rintro ⟨k, hk, rfl⟩
    rw [hr.done_unique ⟨k, Prod.ext hk rfl⟩]
  · rintro rfl
    obtain ⟨n, hn⟩ := hr
    exact ⟨n, by rw [hn], by rw [hn]⟩

/-- The handler looks at one `recv`. -/
theorem delivers_awaitResponse (w : Tunnel) (out : Bytes) :
    Delivers (Tunnel.answer client proxy quota other) (·.delivered) (awaitResponse m client proxy again retry ctx) w out ↔
      Delivers (Tunnel.answer client proxy quota other) (·.delivered)
        (onResponse m client proxy again retry ctx (w.recv 4095).1.1) (w.recv 4095).2 out := by
  have hans : Tunnel.answer client proxy quota other (.recv proxy 4095) w = (some (w.recv 4095).1, (w.recv 4095).2) :=
    if_pos rfl
  have hex : (awaitResponse m client proxy again retry ctx).exec (Tunnel.answer client proxy quota other) w =
      let ran := (onResponse m client proxy again retry ctx (w.recv 4095).1.1).exec
        (Tunnel.answer client proxy quota other) (w.recv 4095).2
      ⟨⟨.recv proxy 4095, some (w.recv 4095).1⟩ :: ran.trace, ran.result, ran.state⟩ := by
    show Prog.exec _ (Prog.call (Call.recv proxy 4095) _) w = _
    rw [Prog.exec, hans]
    rfl
  rw [Delivers, Delivers, hex]
  rfl

end

/-- How many bytes the first `recv` of the handler returns. -/
def firstRecv (segments : List Bytes) : Nat := min (segments.headD []).length 4095

/-- For every header block `h` of a 200 response, every tunnel data `t` and
every way the stream arrives, and whatever the handler has been through
before: the client receives exactly `t` if and only if the handler's one
`recv` returns just the header, or less than it takes to see the 200 when
there is no data. -/
theorem tunnel_faithful_iff (m : Relay) (client proxy : Sock) (again : Option (RelayProg Unit))
    (retry : Option (BitVec 64 → RelayProg Unit)) (ctx : AuthContext) (quota : Nat → Nat)
    (other : (c : Call) → c.Resp) (h t : Bytes) (segments : List Bytes) (hh : HeaderBlock h)
    (hne : ∀ seg ∈ segments, seg ≠ []) (hcat : segments.flatten = h ++ t) :
    Delivers (Tunnel.answer client proxy quota other) (·.delivered) (awaitResponse m client proxy again retry ctx)
        { segments := segments } t ↔
      firstRecv segments = h.length ∨ (t = [] ∧ firstRecv segments < 12) := by
  rw [delivers_awaitResponse]
  have hspec := Tunnel.recv_spec (w := { segments := segments }) hne 4095 (by omega)
  have hlen : (Tunnel.recv { segments := segments } 4095).1.1.length = firstRecv segments := by
    cases segments <;> simp [Tunnel.recv, firstRecv, Nat.min_comm]
  have hdel : (Tunnel.recv { segments := segments } 4095).2.delivered = [] := by
    cases segments <;> rfl
  generalize (Tunnel.recv { segments := segments } 4095).1.1 = b at hspec hlen ⊢
  generalize (Tunnel.recv { segments := segments } 4095).2 = w at hspec hdel ⊢
  obtain ⟨hfl, hne', hnil⟩ := hspec
  rw [hcat] at hfl
  have hb : b <+: h ++ t := ⟨_, hfl⟩
  have h12 : 12 ≤ h.length := by
    obtain ⟨x, tail, rfl⟩ := hh.status
    simp [ascii]
  have hb0 : b.isEmpty = false := by
    rw [List.isEmpty_eq_false_iff, Ne, hnil]
    rintro rfl
    have := congrArg List.length hcat
    simp at this
    omega
  rw [← hlen]
  by_cases hl : 12 ≤ b.length
  · have hon : onResponse m client proxy again retry ctx b = onConnected m client proxy ctx := by
      simp [onResponse, hb0, connectOk_of_prefix hh hb hl]
    obtain ⟨hst, htr⟩ := onConnected_exec m client proxy ctx quota other w
    rw [hon, delivers_bridged client proxy quota other hne' hst htr, hdel, List.nil_append]
    constructor
    · rintro rfl
      have := congrArg List.length hfl
      simp only [List.length_append] at this
      exact .inl (by omega)
    · rintro (hle | ⟨-, hlt⟩)
      · exact (List.append_inj hfl hle).2
      · omega
  · obtain ⟨hok, h407, hgw⟩ := short_response hh hb (by omega)
    have hon : onResponse m client proxy again retry ctx b = onFailure m client proxy again ctx b := by
      simp [onResponse, hb0, hok, h407]
    obtain ⟨hst, htr⟩ := onFailure_exec m client proxy again ctx quota other hgw w
    rw [hon, Delivers, htr, hst, hdel]
    constructor
    · rintro rfl
      exact .inr ⟨rfl, by omega⟩
    · rintro (hle | ⟨ht, -⟩)
      · omega
      · exact ht.symm

namespace Demo

def header : Bytes := ascii "HTTP/1.1 200 Connection established\r\n\r\n"

theorem headerBlock_header : HeaderBlock header :=
  ⟨⟨49, ascii " Connection established\r\n\r\n", rfl⟩, by decide⟩

end Demo

/-- The header and the data arrive apart. -/
theorem tunnel_faithful_apart :
    Delivers (Tunnel.answer 1 2 (fun _ => 0) Demo.reply) (·.delivered) (awaitResponse Demo.tcpRelay 1 2 none none none)
      { segments := [Demo.header, ascii "220 ready"] } (ascii "220 ready") :=
  (tunnel_faithful_iff Demo.tcpRelay 1 2 none none none (fun _ => 0) Demo.reply Demo.header (ascii "220 ready") _
    Demo.headerBlock_header (by decide) (by decide)).mpr (.inl (by decide))

/-- They arrive together: the data is lost. -/
theorem tunnel_loses_data :
    let segments := [Demo.header ++ ascii "220 ready"]
    segments.flatten = Demo.header ++ ascii "220 ready" ∧
      Delivers (Tunnel.answer 1 2 (fun _ => 0) Demo.reply) (·.delivered)
        (awaitResponse Demo.tcpRelay 1 2 none none none) { segments := segments } [] ∧
      ¬ Delivers (Tunnel.answer 1 2 (fun _ => 0) Demo.reply) (·.delivered)
        (awaitResponse Demo.tcpRelay 1 2 none none none) { segments := segments } (ascii "220 ready") := by
  have hiff (out : Bytes) : Delivers (Tunnel.answer 1 2 (fun _ => 0) Demo.reply) (·.delivered)
      (awaitResponse Demo.tcpRelay 1 2 none none none) { segments := [Demo.header ++ ascii "220 ready"] } out ↔
      [] = out := by
    have hresp : (Tunnel.recv { segments := [Demo.header ++ ascii "220 ready"] } 4095).1.1 =
        Demo.header ++ ascii "220 ready" := by decide
    have hrest : (Tunnel.recv { segments := [Demo.header ++ ascii "220 ready"] } 4095).2 = { segments := [] } := by
      decide
    have hok : connectOk (Demo.header ++ ascii "220 ready") = true := by decide
    have hon : onResponse Demo.tcpRelay 1 2 none none none (Demo.header ++ ascii "220 ready") =
        onConnected Demo.tcpRelay 1 2 none := by
      rw [onResponse.eq_def, hok, show List.isEmpty (Demo.header ++ ascii "220 ready") = false by decide]
      rfl
    rw [delivers_awaitResponse, hresp, hrest, hon]
    obtain ⟨hst, htr⟩ := onConnected_exec Demo.tcpRelay 1 2 none (fun _ => 0) Demo.reply { segments := [] }
    exact delivers_bridged 1 2 _ _ (by simp) hst htr out
  exact ⟨rfl, (hiff _).mpr rfl, fun h => absurd ((hiff _).mp h) (by decide)⟩

end TR.Impl
