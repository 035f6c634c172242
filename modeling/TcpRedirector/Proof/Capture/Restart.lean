import TcpRedirector.Impl.Capture.Session
import TcpRedirector.Proof.Capture.Invariant

/-!
# A new capture session

`Open` clears the bitmaps, but neither the connection table nor the PID
cache. What the loop does with a packet rests on what it recorded in the same
session (`OwnSession`) exactly if nothing was tracked whenever a session was
opened, and no owner that was cached before it answers for a port
(`OwnStep`, `restart_fresh_iff`). The loop tracks a port, caches it as direct
or caches its owner only for a packet it judged (`tracked_of_step`,
`direct_of_step`, `pidCache_of_step`), so such a session stays on its own
(`SessionInv`).

The target's process id outlives the session too; it belongs to no port, and
`Open` looks for the target only while it is 0.
-/

namespace TR.Impl

open TR.Impl.System

/-- A packet from port `p` was judged so in the session. -/
def JudgedIn (session : List LoopStep) (p : BitVec 16) (a : Action) : Prop :=
  ∃ st ∈ session, ∃ os pk, st.input = .packet os pk ∧ pk.src = p ∧ st.out.route = .judged a

/-- The step looked the owner of port `p` up in the TCP table and found `pid`. -/
def Finds (st : LoopStep) (p : BitVec 16) (pid : BitVec 32) : Prop :=
  ∃ os pk a, st.input = .packet os pk ∧ pk.src = p ∧ st.out.route = .judged a ∧
    st.pre.capture.cachedPid os p = none ∧ scanTcpTable os p = some pid

/-- The owner of port `p` was found in the session. -/
def FoundIn (session : List LoopStep) (p : BitVec 16) (pid : BitVec 32) : Prop := ∃ st ∈ session, Finds st p pid

/-- The session holds no packet from port `p`. -/
def FirstFrom (session : List LoopStep) (p : BitVec 16) : Prop :=
  ∀ st ∈ session, ∀ os pk, st.input = .packet os pk → pk.src ≠ p

/-- The step opens a session. -/
def Opens (st : ServiceStep) : Prop :=
  (∃ opened, st.input = .captureStart opened) ∧ st.pre.1.isOpen = false ∧ st.post.1.isOpen = true

/-- Nothing is recorded about any port. -/
def Blank (s : System) : Prop := ∀ p, s.table.isTracked p = false ∧ s.capture.isPortDecided p = false

/-- What a session's packet is treated by was recorded in the session, the
owner it is judged by included, and its first packet from a port is judged. -/
structure OwnPacket (cfg : Config) (session : List LoopStep) (s : System) (os : Os) (pk : Packet) (o : Outcome) :
    Prop where
  tracked : o.route = .tracked → JudgedIn session pk.src .proxy
  restored : o.route = .restored → JudgedIn session pk.dst .proxy
  direct : o.route = .cachedDirect → JudgedIn session pk.src .direct
  owner : ∀ a pid, o.route = .judged a → a ≠ .block → s.capture.cachedPid os pk.src = some pid →
    FoundIn session pk.src pid
  first : pk.recvLen ≠ 0 → pk.outbound = true → cfg.connTable = true → pk.src ≠ cfg.relayPort →
    FirstFrom session pk.src →
    o.route = .judged (s.capture.checkProcessRule cfg os s.rules pk.src).1.action

/-- No step of a session rests on an earlier one. -/
def OwnSession (cfg : Config) (st : ServiceStep) : Prop :=
  (Opens st → Blank st.post.1.system) ∧
    ∀ os pk, st.input = .loop (.packet os pk) → st.pre.1.isOpen = true →
      OwnPacket cfg st.pre.2 st.pre.1.system os pk st.out

/-- An owner of port `p` that was cached before the session answers in it, and
the rules do not block it. -/
structure StaleOwner (cfg : Config) (session : List LoopStep) (s : System) (os : Os) (p : BitVec 16) : Prop where
  cached : (s.capture.cachedPid os p).isSome = true
  notFound : ∀ pid, ¬ FoundIn session p pid
  notBlocked : (s.capture.checkProcessRule cfg os s.rules p).1.action ≠ .block

/-- A session opens with nothing tracked, and step 4 meets no owner from before
it. -/
def OwnStep (cfg : Config) (st : ServiceStep) : Prop :=
  (Opens st → ∀ p, st.pre.1.system.table.isTracked p = false) ∧
    ∀ os pk, st.input = .loop (.packet os pk) → st.pre.1.isOpen = true → pk.recvLen ≠ 0 →
      st.pre.1.system.Untracked cfg pk → ¬ StaleOwner cfg st.pre.2 st.pre.1.system os pk.src

/-- What the open session recorded. -/
structure SessionInv (cfg : Config) (s : Service × List LoopStep) : Prop where
  inv : Inv cfg s.1.system
  tracked : s.1.isOpen = true → ∀ p, s.1.system.table.isTracked p = true → JudgedIn s.2 p .proxy
  direct : s.1.isOpen = true → ∀ p, s.1.system.capture.isPortDirect p = true → JudgedIn s.2 p .direct
  owner : s.1.isOpen = true → ∀ p e pid, s.1.system.capture.pidCache.lookup p = some e → FoundIn s.2 p pid →
    FoundIn s.2 p e.pid

theorem JudgedIn.mono {session : List LoopStep} {p : BitVec 16} {a : Action} (h : JudgedIn session p a) (st : LoopStep) :
    JudgedIn (session ++ [st]) p a := by
  obtain ⟨x, hx, hr⟩ := h
  exact ⟨x, List.mem_append_left _ hx, hr⟩

theorem FoundIn.mono {session : List LoopStep} {p : BitVec 16} {pid : BitVec 32} (h : FoundIn session p pid)
    (st : LoopStep) : FoundIn (session ++ [st]) p pid := by
  obtain ⟨x, hx, hf⟩ := h
  exact ⟨x, List.mem_append_left _ hx, hf⟩

theorem foundIn_concat {session : List LoopStep} {st : LoopStep} {p : BitVec 16} {pid : BitVec 32} :
    FoundIn (session ++ [st]) p pid ↔ FoundIn session p pid ∨ Finds st p pid := by
  simp only [FoundIn, List.mem_append, List.mem_singleton]
  constructor
  · rintro ⟨x, hx | rfl, hf⟩
    · exact .inl ⟨x, hx, hf⟩
    · exact .inr hf
  · rintro (⟨x, hx, hf⟩ | hf)
    · exact ⟨x, .inl hx, hf⟩
    · exact ⟨st, .inr rfl, hf⟩

/-- An answer of the cache is an entry of it. -/
theorem lookup_of_cachedPid {c : Capture} {os : Os} {p : BitVec 16} {pid : BitVec 32}
    (h : c.cachedPid os p = some pid) : ∃ e, c.pidCache.lookup p = some e ∧ e.pid = pid := by
  rw [Capture.cachedPid] at h
  cases he : c.pidCache.lookup p with
  | none => rw [he] at h; cases h
  | some e =>
    simp only [he] at h
    split at h
    · exact ⟨e, rfl, Option.some.inj h⟩
    · cases h

/-- After a lookup the cache has an entry that it had before, or the owner
that the TCP table named when the cache had no answer. -/
theorem lookup_findPidBySourcePort {c : Capture} {os : Os} {p q : BitVec 16} {e : PidCacheEntry}
    (h : (c.findPidBySourcePort os p).2.pidCache.lookup q = some e) :
    (q = p ∧ c.cachedPid os p = none ∧ scanTcpTable os p = some e.pid) ∨
      (c.pidCache.lookup q = some e ∧ (q = p → c.cachedPid os p = none → scanTcpTable os p = none)) := by
  rw [Capture.findPidBySourcePort] at h
  cases hc : c.cachedPid os p with
  | some pid =>
    rw [hc] at h
    exact .inr ⟨h, fun _ hn => (by cases hn)⟩
  | none =>
    rw [hc] at h
    cases hs : scanTcpTable os p with
    | none =>
      rw [hs] at h
      exact .inr ⟨h, fun _ _ => rfl⟩
    | some pid =>
      rw [hs] at h
      by_cases hq : q = p
      · subst hq
        rw [AList.lookup_insert, Option.some.injEq] at h
        exact .inl ⟨rfl, rfl, by rw [← h]⟩
      · rw [AList.lookup_insert_ne hq] at h
        exact .inr ⟨h, fun he => absurd he hq⟩

section

variable {cfg : Config} {s : System}

/-- A port that is tracked after an event was tracked before or judged so. -/
theorem tracked_of_step (h : Inv cfg s) {ev : Event} {p : BitVec 16}
    (hp : (step cfg ev s).1.table.isTracked p = true) :
    s.table.isTracked p = true ∨
      ∃ os pk, ev = .packet os pk ∧ pk.src = p ∧ (step cfg ev s).2.route = .judged .proxy := by
  cases ev with
  | other | recvFailed | setProxyConfig | setTargetProcess | setRules => exact .inl hp
  | packet os pk =>
    have h1 := step1_inv h pk
    obtain ⟨s', o, hst, hx⟩ := step_packet cfg os pk s
    rw [hst] at hp ⊢
    cases hx with
    | ignored | cachedDirect => exact .inl hp
    | passed | direct | block => exact .inl (by simpa using hp)
    | restored _ _ _ e he =>
      refine .inl ?_
      rw [ConnectionTable.isTracked, relayed_entry (step1_entry he) h1.onePerPort] at hp
      rw [ConnectionTable.isTracked]
      split at hp
      · rename_i hq; rw [hq, he]; rfl
      · simpa using hp
    | tracked _ _ _ e he =>
      refine .inl ?_
      rw [ConnectionTable.isTracked, forwarded_entry cfg h1.onePerPort (step1_entry he)] at hp
      rw [ConnectionTable.isTracked]
      split at hp
      · rename_i hq; rw [hq, he]; rfl
      · simpa using hp
    | proxy hu v c hv =>
      by_cases hq : p = pk.src
      · exact .inr ⟨os, pk, rfl, hq.symm, rfl⟩
      · refine .inl ?_
        rw [ConnectionTable.isTracked, startTracking_entry_of_ne cfg os v (judged_inv h hv).onePerPort
          (step1_entry hu.entry) hq] at hp
        simpa [ConnectionTable.isTracked] using hp

theorem judged_isPortDirect {os : Os} {pk : Packet} {v : Verdict} {c : Capture} {p : BitVec 16}
    (hv : (s.step1 pk).capture.checkProcessRule cfg os s.rules pk.src = (v, c)) :
    c.isPortDirect p = (s.step1 pk).capture.isPortDirect p := by
  have hs := Capture.checkProcessRule_same (s.step1 pk).capture cfg os s.rules pk.src
  rw [hv] at hs
  exact congrArg (·.test p) hs.2

/-- A port that is cached as direct after an event was so before or judged so. -/
theorem direct_of_step (h : Inv cfg s) {ev : Event} {p : BitVec 16}
    (hp : (step cfg ev s).1.capture.isPortDirect p = true) :
    s.capture.isPortDirect p = true ∨
      ∃ os pk, ev = .packet os pk ∧ pk.src = p ∧ (step cfg ev s).2.route = .judged .direct := by
  cases ev with
  | other | recvFailed | setProxyConfig | setTargetProcess | setRules => exact .inl hp
  | packet os pk =>
    have h1 : (s.step1 pk).capture.isPortDirect p = true → s.capture.isPortDirect p = true := fun hd => by
      rw [step1_isPortDirect pk s h.directDecided, Bool.and_eq_true] at hd
      exact hd.2
    obtain ⟨s', o, hst, hx⟩ := step_packet cfg os pk s
    rw [hst] at hp ⊢
    cases hx with
    | ignored | cachedDirect => exact .inl hp
    | passed => exact .inl (h1 hp)
    | restored _ _ _ e he =>
      rw [relayed_isPortDirect (step1_entry he), Bool.and_eq_true] at hp
      exact .inl (h1 hp.2)
    | tracked _ _ _ e he =>
      rw [forwarded_isPortDirect, Bool.and_eq_true] at hp
      exact .inl (h1 hp.2)
    | direct hu v c hv =>
      rw [Capture.isPortDirect_setPortDirect, Bool.or_eq_true, decide_eq_true_eq] at hp
      rcases hp with hq | hd
      · exact .inr ⟨os, pk, rfl, hq.symm, rfl⟩
      · exact .inl (h1 (judged_isPortDirect hv ▸ hd))
    | block hu v c hv => exact .inl (h1 (judged_isPortDirect hv ▸ hp))
    | proxy hu v c hv =>
      rw [startTracking_isPortDirect] at hp
      exact .inl (h1 (judged_isPortDirect hv ▸ hp))

theorem judged_pidCache {os : Os} {pk : Packet} {v : Verdict} {c : Capture}
    (hv : (s.step1 pk).capture.checkProcessRule cfg os s.rules pk.src = (v, c)) :
    c.pidCache = (s.capture.findPidBySourcePort os pk.src).2.pidCache := by
  have hp := Capture.checkProcessRule_pidCache (s.step1 pk).capture cfg os s.rules pk.src
  rw [hv] at hp
  exact hp.trans (Capture.findPidBySourcePort_congr os pk.src (step1_sources pk s)).2.pidCache

/-- A cached owner was found by this step, or was cached before it and the step
found none. -/
theorem pidCache_of_step {ev : Event} {p : BitVec 16} {e : PidCacheEntry}
    (h : (step cfg ev s).1.capture.pidCache.lookup p = some e) :
    Finds (stepOf (step cfg) ev s) p e.pid ∨
      (s.capture.pidCache.lookup p = some e ∧ ∀ pid, ¬ Finds (stepOf (step cfg) ev s) p pid) := by
  cases ev with
  | other | recvFailed | setProxyConfig | setTargetProcess | setRules =>
    refine .inr ⟨h, ?_⟩
    rintro pid ⟨os, pk, a, hin, -⟩
    cases hin
  | packet os pk =>
    -- A packet that was not judged leaves the cache alone.
    have kept (hk : (step cfg (.packet os pk) s).1.capture.pidCache = s.capture.pidCache)
        (hr : ∀ a, (step cfg (.packet os pk) s).2.route ≠ .judged a) :
        s.capture.pidCache.lookup p = some e ∧ ∀ pid, ¬ Finds (stepOf (step cfg) (.packet os pk) s) p pid := by
      refine ⟨hk ▸ h, ?_⟩
      rintro pid ⟨os', pk', a, -, -, ha, -⟩
      exact hr a ha
    -- One that was judged has its owner looked up.
    have judged {a : Action} (hk : (step cfg (.packet os pk) s).1.capture.pidCache =
        (s.capture.findPidBySourcePort os pk.src).2.pidCache)
        (hr : (step cfg (.packet os pk) s).2.route = .judged a) :
        Finds (stepOf (step cfg) (.packet os pk) s) p e.pid ∨
          (s.capture.pidCache.lookup p = some e ∧ ∀ pid, ¬ Finds (stepOf (step cfg) (.packet os pk) s) p pid) := by
      rw [hk] at h
      rcases lookup_findPidBySourcePort h with ⟨rfl, hc, hs⟩ | ⟨hl, hn⟩
      · exact .inl ⟨os, pk, a, rfl, rfl, hr, hc, hs⟩
      · refine .inr ⟨hl, ?_⟩
        rintro pid ⟨os', pk', a', hin, hsrc, -, hc, hs⟩
        cases hin
        subst hsrc
        rw [hn rfl hc] at hs
        cases hs
    have h1 : (s.step1 pk).capture.pidCache = s.capture.pidCache := (step1_sources pk s).pidCache
    obtain ⟨s', o, hst, hx⟩ := step_packet cfg os pk s
    rw [hst] at kept judged
    cases hx with
    | ignored | cachedDirect => exact .inr (kept rfl (by simp))
    | passed => exact .inr (kept h1 (by simp))
    | restored _ _ _ e he => exact .inr (kept ((relayed_pidCache (step1_entry he)).trans h1) (by simp))
    | tracked _ _ _ e he => exact .inr (kept ((forwarded_pidCache cfg).trans h1) (by simp))
    | direct _ v c hv | block _ v c hv | proxy _ v c hv =>
      have hc : c.pidCache = _ := judged_pidCache hv
      exact judged hc rfl

end

section

variable {cfg : Config} {s : Service × List LoopStep}

/-- What the loop records in an open session it judged there. -/
theorem loop_sessionInv (h : SessionInv cfg s) (ev : Event) : SessionInv cfg (serve cfg (.loop ev) s).1 := by
  obtain ⟨sv, session⟩ := s
  simp only [serve]
  split
  · refine ⟨step_inv cfg ev _ h.inv, fun ho p hp => ?_, fun ho p hp => ?_, fun ho p e pid he hf => ?_⟩
    · rcases tracked_of_step h.inv hp with ht | ⟨os, pk, rfl, hsrc, hr⟩
      · exact (h.tracked ho p ht).mono _
      · exact ⟨_, List.mem_append_right _ (List.mem_singleton_self _), os, pk, rfl, hsrc, hr⟩
    · rcases direct_of_step h.inv hp with hd | ⟨os, pk, rfl, hsrc, hr⟩
      · exact (h.direct ho p hd).mono _
      · exact ⟨_, List.mem_append_right _ (List.mem_singleton_self _), os, pk, rfl, hsrc, hr⟩
    · rcases pidCache_of_step he with hs | ⟨hl, hn⟩
      · exact foundIn_concat.mpr (.inr hs)
      · exact (h.owner ho p e pid hl ((foundIn_concat.mp hf).resolve_right (hn pid))).mono _
  · exact h

theorem openCapture_inv {sv : Service} (h : Inv cfg sv.system) (opened : Bool) :
    Inv cfg (sv.openCapture opened).system := by
  rw [Service.openCapture]
  split
  · exact h
  · split
    · exact h.narrow (fun _ => false) h.onePerPort (fun _ hp => hp) (fun p => Bitmap.test_zero p)
        (fun p => Bitmap.test_zero p) h.monitored fun _ hid => hid
    · exact h

/-- A session that starts with nothing tracked stays on its own. -/
theorem serve_sessionInv (h : SessionInv cfg s) (r : Request) (hb : OwnStep cfg (stepOf (serve cfg) r s)) :
    SessionInv cfg (serve cfg r s).1 := by
  obtain ⟨sv, session⟩ := s
  cases r with
  | loop ev => exact loop_sessionInv h ev
  | captureStop =>
    simp only [serve]
    split
    · exact ⟨h.inv, fun ho => (by cases ho), fun ho => (by cases ho), fun ho => (by cases ho)⟩
    · exact h
  | captureStart opened =>
    cases ho : sv.isOpen with
    | true => simpa only [serve, ho, if_true] using h
    | false =>
      have hb' : (sv.openCapture opened).isOpen = true → ∀ p, sv.system.table.isTracked p = false := fun hop =>
        hb.1 ⟨⟨opened, rfl⟩, ho, by simpa [stepOf, serve, ho] using hop⟩
      simp only [serve, ho, Bool.false_eq_true, if_false]
      refine ⟨openCapture_inv h.inv opened, fun hop p hp => ?_, fun hop p hp => ?_, ?_⟩
      · have ht := hb' hop p
        simp only [Service.openCapture, ho, Bool.false_eq_true, if_false] at hp hop
        split at hp <;> exact absurd hp (by simp [ht])
      · simp only [Service.openCapture, ho, Bool.false_eq_true, if_false] at hp hop
        split at hp
        · exact absurd hp (by simp [Capture.isPortDirect])
        · rename_i hf
          rw [if_neg hf, ho] at hop
          cases hop
      · rintro - p e pid - ⟨st, hst, -⟩
        cases hst

/-- Step 4 judges a packet by an owner found in the session, or by one cached
before it. -/
theorem foundIn_or_stale (h : SessionInv cfg s) (ho : s.1.isOpen = true) {os : Os} {p : BitVec 16} {pid : BitVec 32}
    (hc : s.1.system.capture.cachedPid os p = some pid)
    (hb : (s.1.system.capture.checkProcessRule cfg os s.1.system.rules p).1.action ≠ .block) :
    FoundIn s.2 p pid ∨ StaleOwner cfg s.2 s.1.system os p := by
  by_cases hf : ∃ pid', FoundIn s.2 p pid'
  · obtain ⟨pid', hf⟩ := hf
    obtain ⟨e, he, rfl⟩ := lookup_of_cachedPid hc
    exact .inl (h.owner ho p e pid' he hf)
  · exact .inr ⟨by rw [hc]; rfl, not_exists.mp hf, hb⟩

/-- The packets of such a session are treated by what it recorded. -/
theorem ownPacket_of_sessionInv (h : SessionInv cfg s) (ho : s.1.isOpen = true) (os : Os) (pk : Packet)
    (hst : pk.recvLen ≠ 0 → s.1.system.Untracked cfg pk → ¬ StaleOwner cfg s.2 s.1.system os pk.src) :
    OwnPacket cfg s.2 s.1.system os pk (step cfg (.packet os pk) s.1.system).2 := by
  have htr : ∀ {p e}, s.1.system.table.entry p = some e → JudgedIn s.2 p .proxy := fun he =>
    h.tracked ho _ (by rw [ConnectionTable.isTracked, he]; rfl)
  refine ⟨fun hr => ?_, fun hr => ?_, fun hr => ?_, fun a pid hr hb hc => ?_, fun hl hout hat hrel hfst => ?_⟩
  · obtain ⟨s', o, hst, hx⟩ := step_packet cfg os pk s.1.system
    rw [hst] at hr
    cases hx with
    | tracked _ _ _ e he => exact htr he
    | _ => simp at hr
  · obtain ⟨s', o, hst, hx⟩ := step_packet cfg os pk s.1.system
    rw [hst] at hr
    cases hx with
    | restored _ _ _ e he => exact htr he
    | _ => simp at hr
  · obtain ⟨s', o, hst, hx⟩ := step_packet cfg os pk s.1.system
    rw [hst] at hr
    cases hx with
    | cachedDirect hf => exact h.direct ho _ hf.2.1
    | _ => simp at hr
  · obtain ⟨hl, hu⟩ := untracked_of_judged hr
    rw [route_untracked os hu hl, Route.judged.injEq] at hr
    exact (foundIn_or_stale h ho hc (hr ▸ hb)).resolve_right (hst hl hu)
  · have hnone : ∀ a, ¬ JudgedIn s.2 pk.src a := by
      rintro a ⟨st, hmem, os', pk', hin, hsrc, -⟩
      exact hfst st hmem os' pk' hin hsrc
    have hslow : ¬ s.1.system.Fast pk := fun hf => hnone _ (h.direct ho _ hf.2.1)
    have hent : s.1.system.table.entry pk.src = none := by
      cases he : s.1.system.table.entry pk.src with
      | none => rfl
      | some e => exact absurd (htr he) (hnone _)
    exact route_untracked os ⟨hslow, hrel, hat, hent, hout⟩ hl

/-- Opening a session leaves nothing recorded exactly if nothing was tracked. -/
theorem opens_blank_iff {r : Request} (ho : Opens (stepOf (serve cfg) r s)) :
    Blank (serve cfg r s).1.1.system ↔ ∀ p, s.1.system.table.isTracked p = false := by
  obtain ⟨sv, session⟩ := s
  obtain ⟨⟨opened, hin⟩, hcl, hop⟩ := ho
  cases hin
  have hcl : sv.isOpen = false := hcl
  simp only [stepOf, serve, hcl, Bool.false_eq_true, if_false, Service.openCapture] at hop ⊢
  split at hop
  · rename_i hopened
    simp only [hopened, if_true, Blank]
    exact ⟨fun hb p => (hb p).1, fun ht p => ⟨ht p, Bitmap.test_zero p⟩⟩
  · rw [hcl] at hop; cases hop

/-- A step of a session that keeps to itself. -/
theorem ownSession_iff (h : SessionInv cfg s) (r : Request) :
    OwnSession cfg (stepOf (serve cfg) r s) ↔ OwnStep cfg (stepOf (serve cfg) r s) := by
  constructor
  · rintro ⟨hblank, hown⟩
    refine ⟨fun ho => (opens_blank_iff ho).mp (hblank ho), fun os pk hin hop hl hu hs => ?_⟩
    have hp := hown os pk hin hop
    have hin : r = .loop (.packet os pk) := hin
    subst hin
    obtain ⟨sv, session⟩ := s
    have hop : sv.isOpen = true := hop
    obtain ⟨pid, hc⟩ := Option.isSome_iff_exists.mp hs.cached
    refine hs.notFound pid (hp.owner _ pid ?_ hs.notBlocked hc)
    simpa [stepOf, serve, hop] using route_untracked os hu hl
  · rintro ⟨hopen, hstale⟩
    refine ⟨fun ho => (opens_blank_iff ho).mpr (hopen ho), fun os pk hin hop => ?_⟩
    have hst := hstale os pk hin hop
    have hin : r = .loop (.packet os pk) := hin
    subst hin
    obtain ⟨sv, session⟩ := s
    have hop : sv.isOpen = true := hop
    simpa [stepOf, serve, hop] using ownPacket_of_sessionInv h hop os pk hst

end

/-- In every run of the service, whatever is captured and however often the
capture is stopped and started, each session starts with nothing recorded and
treats its packets by what it recorded itself, exactly if no port was tracked
whenever a session was opened and no owner cached before it answered for a
port. -/
theorem restart_fresh_iff (cfg : Config) (path : WString) (host : Bytes) (port : BitVec 16) (rules : List Rule)
    (requests : List Request) :
    (∀ st ∈ trace (serve cfg) requests (⟨.init path host port rules, false⟩, []), OwnSession cfg st) ↔
      ∀ st ∈ trace (serve cfg) requests (⟨.init path host port rules, false⟩, []), OwnStep cfg st :=
  forall_trace_iff (P := SessionInv cfg) (fun r _ hs hb => serve_sessionInv hs r hb)
    (fun r _ hs => ownSession_iff hs r) requests
    ⟨inv_init cfg path host port rules, fun ho => (by cases ho), fun ho => (by cases ho), fun ho => (by cases ho)⟩

/-- The client on port 1000 has closed, so nothing is tracked, but its owner is
still cached in the next session: the service's own connection is redirected. -/
example :
    let s := run (serve Demo.cfg) [.captureStart true,
      .loop (.packet (Demo.owned 1000 8) { Demo.client 1000 0x04030201 443 with syn := true }),
      .loop (.packet (Demo.owned 1000 8) { Demo.client 1000 0x04030201 443 with rst := true }),
      .captureStop, .captureStart true] (⟨Demo.start, false⟩, [])
    let os := Demo.owned 1000 4
    s.1.system.table.isTracked 1000 = false ∧ s.1.system.capture.cachedPid os 1000 = some 8 ∧
      scanTcpTable os 1000 = some 4 ∧
      (step Demo.cfg (.packet os { Demo.client 1000 0x08080808 80 with syn := true }) s.1.system).2.route =
        .judged .proxy := by
  decide

/-- A connection that is open when the capture stops is still tracked in the
next session, and a packet of another connection from its port is redirected
without being judged. -/
theorem restart_keeps_connection :
    let requests := [.captureStart true,
      .loop (.packet (Demo.owned 1000 8) { Demo.client 1000 0x04030201 443 with syn := true }),
      .captureStop, .captureStart true]
    let s := run (serve Demo.cfg) requests (⟨Demo.start, false⟩, [])
    let st := stepOf (serve Demo.cfg)
      (.loop (.packet (Demo.owned 1000 8) { Demo.client 1000 0x08080808 80 with syn := true })) s
    s.1.isOpen = true ∧ s.2 = [] ∧ s.1.system.table.get 1000 = some (0x04030201, 443) ∧
      s.1.system.capture.isPortDecided 1000 = false ∧ st.out.route = .tracked ∧ ¬ OwnSession Demo.cfg st := by
  refine ⟨rfl, rfl, by decide, by decide, by decide, fun h => ?_⟩
  obtain ⟨st, hst, -⟩ := (h.2 _ _ rfl rfl).tracked (by decide)
  cases hst

end TR.Impl
