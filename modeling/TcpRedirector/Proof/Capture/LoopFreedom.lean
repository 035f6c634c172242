import TcpRedirector.Proof.Capture.Decision

/-!
# Packets of the service itself

`CheckProcessRule` never redirects the service's own connections to the
proxy, to prevent a loop. Its test is reached only by a packet whose port is
not tracked, and it tests the process that the PID cache names. A packet of
the service goes to the relay exactly if one of these two answers for an
earlier owner of its port (`own_towardsRelay_iff`, `noLoop_iff`).
-/

namespace TR.Impl

open TR.Impl.System

namespace Capture

variable {c : Capture} {cfg : Config} {os : Os} {rules : List Rule} {p : BitVec 16}

theorem judgePid_own : (c.judgePid cfg os rules cfg.currentProcessId).1.action = .direct := by
  rw [judgePid, if_pos rfl]

/-- What a cached owner leads to. -/
theorem checkProcessRule_of_cached {pid : BitVec 32} (h : c.cachedPid os p = some pid) (h0 : pid ≠ 0) :
    c.checkProcessRule cfg os rules p = c.judgePid cfg os rules pid := by
  simp only [checkProcessRule, findPidBySourcePort, h, if_neg h0]

theorem findPidBySourcePort_of_uncached (h : c.cachedPid os p = none) :
    (c.findPidBySourcePort os p).1 = (scanTcpTable os p).getD 0 := by
  rw [findPidBySourcePort, h]
  cases scanTcpTable os p <;> rfl

/-- A lookup that finds the service itself says DIRECT. -/
theorem checkProcessRule_own (h : (c.findPidBySourcePort os p).1 = cfg.currentProcessId) :
    (c.checkProcessRule cfg os rules p).1.action = .direct := by
  by_cases h0 : (c.findPidBySourcePort os p).1 = 0
  · exact checkProcessRule_of_unknown h0
  · rw [checkProcessRule]
    simp only [if_neg h0]
    rw [h]
    exact judgePid_own

end Capture

/-- The PID cache names an owner of `p` that the rules or the target send to
the proxy. -/
def CachedProxy (cfg : Config) (os : Os) (p : BitVec 16) (s : System) : Prop :=
  ∃ pid, s.capture.cachedPid os p = some pid ∧ pid ≠ 0 ∧ (s.capture.judgePid cfg os s.rules pid).1.action = .proxy

/-- The records of `pk`'s port answer for its owner: it gets past the fast
path, and either the port is tracked or the PID cache has an owner of it that
is proxied. -/
structure Mistaken (cfg : Config) (os : Os) (pk : Packet) (s : System) : Prop where
  received : pk.recvLen ≠ 0
  slow : ¬ s.Fast pk
  src : pk.src ≠ cfg.relayPort
  attached : cfg.connTable = true
  recorded : s.table.isTracked pk.src = true ∨ (pk.outbound = true ∧ CachedProxy cfg os pk.src s)

/-- If the TCP table does not lie about the service, step 4 redirects its
packet only for a cached owner. -/
theorem checkProcessRule_proxy_iff {cfg : Config} {os : Os} {p : BitVec 16} {s : System}
    (hown : s.capture.cachedPid os p = none → (scanTcpTable os p).getD 0 = cfg.currentProcessId) :
    (s.capture.checkProcessRule cfg os s.rules p).1.action = .proxy ↔ CachedProxy cfg os p s := by
  cases hp : s.capture.cachedPid os p with
  | none =>
    rw [Capture.checkProcessRule_own ((Capture.findPidBySourcePort_of_uncached hp).trans (hown hp))]
    refine iff_of_false (by simp) ?_
    rintro ⟨pid, h, -⟩
    rw [hp] at h
    cases h
  | some pid =>
    by_cases h0 : pid = 0
    · rw [checkProcessRule_of_unknown (by rw [Capture.findPidBySourcePort, hp]; exact h0)]
      refine iff_of_false (by simp) ?_
      rintro ⟨pid', h, hne, -⟩
      rw [hp, Option.some.injEq] at h
      exact hne (h ▸ h0)
    · rw [Capture.checkProcessRule_of_cached hp h0]
      refine ⟨fun h => ⟨pid, hp, h0, h⟩, ?_⟩
      rintro ⟨pid', h, -, ha⟩
      rw [hp, Option.some.injEq] at h
      exact h ▸ ha

/-- A packet of the service is rewritten towards the relay exactly if the
records of its port are mistaken for its owner. -/
theorem own_towardsRelay_iff {cfg : Config} {os : Os} {pk : Packet} {s : System}
    (hown : ∀ a, (step cfg (.packet os pk) s).2.route = .judged a → s.capture.cachedPid os pk.src = none →
      (scanTcpTable os pk.src).getD 0 = cfg.currentProcessId) :
    (step cfg (.packet os pk) s).2.route.towardsRelay = true ↔ Mistaken cfg os pk s := by
  rw [towardsRelay_iff]
  cases htr : s.table.isTracked pk.src with
  | true =>
    exact ⟨fun h => ⟨h.received, h.slow, h.src, h.attached, .inl htr⟩,
      fun h => ⟨h.received, h.slow, h.src, h.attached, .inl htr⟩⟩
  | false =>
    have hent : s.table.entry pk.src = none := by simpa [ConnectionTable.isTracked] using htr
    have hiff (hl : pk.recvLen ≠ 0) (hf : ¬ s.Fast pk) (hr : pk.src ≠ cfg.relayPort) (ht : cfg.connTable = true)
        (ho : pk.outbound = true) :
        (s.capture.checkProcessRule cfg os s.rules pk.src).1.action = .proxy ↔ CachedProxy cfg os pk.src s :=
      checkProcessRule_proxy_iff (hown _ (route_untracked os ⟨hf, hr, ht, hent, ho⟩ hl))
    constructor
    · rintro ⟨hl, hf, hr, ht, hrs⟩
      refine ⟨hl, hf, hr, ht, .inr ?_⟩
      obtain ⟨ho, ha⟩ := hrs.resolve_left (by simp [htr])
      exact ⟨ho, (hiff hl hf hr ht ho).mp ha⟩
    · rintro ⟨hl, hf, hr, ht, hrs⟩
      refine ⟨hl, hf, hr, ht, .inr ?_⟩
      obtain ⟨ho, ha⟩ := hrs.resolve_left (by simp [htr])
      exact ⟨ho, (hiff hl hf hr ht ho).mpr ha⟩

/-- Every lookup in the TCP table itself, past the PID cache, reports the
owner of the port. -/
def TruthfulLookups (tr : List LoopStep) : Prop :=
  ∀ st ∈ tr, ∀ os pk a, st.input = .packet os pk → st.out.route = .judged a →
    st.pre.capture.cachedPid os pk.src = none → (scanTcpTable os pk.src).getD 0 = os.owner pk.src

/-- In every run with truthful lookups the service's packets stay off the
relay exactly if no record of a port is mistaken for the service. -/
theorem noLoop_iff (cfg : Config) (path : WString) (host : Bytes) (port : BitVec 16) (rules : List Rule)
    (events : List Event) (ht : TruthfulLookups (loopTrace cfg events (.init path host port rules))) :
    (∀ st ∈ loopTrace cfg events (.init path host port rules), ∀ os pk, st.input = .packet os pk →
      os.owner pk.src = cfg.currentProcessId → st.out.route.towardsRelay = false) ↔
    ∀ st ∈ loopTrace cfg events (.init path host port rules), ∀ os pk, st.input = .packet os pk →
      os.owner pk.src = cfg.currentProcessId → ¬ Mistaken cfg os pk st.pre := by
  refine forall₂_congr fun st hst => forall₄_congr fun os pk hin hown => ?_
  obtain ⟨-, hstep⟩ := inv_loopTrace (inv_init cfg path host port rules) hst
  rw [hin] at hstep
  have hout : st.out = (step cfg (.packet os pk) st.pre).2 := congrArg StepOf.out hstep
  rw [← Bool.not_eq_true, hout]
  refine not_congr (own_towardsRelay_iff fun a ha hc => ?_)
  rw [ht st hst os pk a hin (hout ▸ ha) hc, hown]

namespace Demo

/-- A client's connection, then the service's own from another port. -/
def ownConnection : List Event :=
  [.packet (owned 1000 8) { client 1000 0x04030201 443 with syn := true },
   .packet (owned 2000 4) { client 2000 0x08070605 3128 with syn := true }]

/-- The same, but from the port that the client has just reset. -/
def reusedPort : List Event :=
  [.packet (owned 1000 8) { client 1000 0x04030201 443 with syn := true },
   .packet (owned 1000 8) { client 1000 0x04030201 443 with rst := true },
   .packet (owned 1000 4) { client 1000 0x08070605 3128 with syn := true }]

theorem truthful_ownConnection : TruthfulLookups (loopTrace cfg ownConnection start) := by
  intro st hst os pk a hin _ _
  simp only [loopTrace, ownConnection, trace, List.mem_cons, List.not_mem_nil, or_false] at hst
  rcases hst with rfl | rfl <;> cases hin <;> decide

theorem truthful_reusedPort : TruthfulLookups (loopTrace cfg reusedPort start) := by
  intro st hst os pk a hin _ _
  simp only [loopTrace, reusedPort, trace, List.mem_cons, List.not_mem_nil, or_false] at hst
  rcases hst with rfl | rfl | rfl <;> cases hin <;> decide

end Demo

/-- From a port of its own the service's connection is not redirected. -/
theorem noLoop_ownConnection : TruthfulLookups (loopTrace Demo.cfg Demo.ownConnection Demo.start) ∧
    ∀ st ∈ loopTrace Demo.cfg Demo.ownConnection Demo.start, ∀ os pk, st.input = .packet os pk →
      os.owner pk.src = Demo.cfg.currentProcessId → st.out.route.towardsRelay = false := by
  refine ⟨Demo.truthful_ownConnection, (noLoop_iff Demo.cfg [] (ascii "proxy") 3128 Demo.rules Demo.ownConnection
    Demo.truthful_ownConnection).mpr fun st hst os pk hin hown hm => ?_⟩
  simp only [loopTrace, Demo.ownConnection, trace, List.mem_cons, List.not_mem_nil, or_false] at hst
  rcases hst with rfl | rfl <;> cases hin
  · exact absurd hown (by decide)
  · rcases hm.recorded with h | ⟨-, pid, h, -⟩
    · exact absurd h (by decide)
    · exact absurd h (by rw [show Capture.cachedPid _ _ _ = none by decide]; simp)

/-- From the port of a client that was reset less than 30 seconds ago it is:
the PID cache still names the client. -/
theorem ownConnection_redirected : TruthfulLookups (loopTrace Demo.cfg Demo.reusedPort Demo.start) ∧
    ∃ st ∈ loopTrace Demo.cfg Demo.reusedPort Demo.start, ∃ os pk, st.input = .packet os pk ∧
      os.owner pk.src = Demo.cfg.currentProcessId ∧ st.out.route.towardsRelay = true := by
  refine ⟨Demo.truthful_reusedPort, _, List.mem_cons_of_mem _ (List.mem_cons_of_mem _ List.mem_cons_self), _, _, rfl,
    ?_, ?_⟩ <;> decide

end TR.Impl
