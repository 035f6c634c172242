import TcpRedirector.Impl.Auth.AgentPipe
import TcpRedirector.Proof.Auth.Provider
import TcpRedirector.Proof.Framework.Json

/-!
# Responses and requests

`Call` compares no ids: the message it reads is the response to the request it
has written because, on that pipe, as many messages were read as requests were
written before (`Exchange.Even`), and what was read are the agent's responses
in order (`WellRead`). A `ReadFile` that fails leaves its response behind, so
this is kept as long as no request is written to a pipe after that
(`call_matches`); otherwise `Call` returns the response to another request
(`call_returns_other`).
-/

namespace TR.Impl

/-- What a log says about the exchanges on the pipes. -/
structure Exchange where
  /-- The requests written to a pipe, and the messages read from it. -/
  written : Handle → Nat := fun _ => 0
  reads : Handle → Nat := fun _ => 0
  /-- A `ReadFile` has failed on the pipe. -/
  failed : Handle → Bool := fun _ => false
  /-- The request that the present `Call` of a thread has written: the pipe,
  its number there and its text. -/
  own : Nat → Option (Handle × Nat × Bytes) := fun _ => none
  /-- The last message read, from a pipe on which none had failed. -/
  got : Option (Handle × Nat × Bytes) := none

namespace Exchange

def wrote (ex : Exchange) (t : Nat) (pipe : Handle) (msg : Bytes) : Exchange :=
  { ex with
    written := Function.update ex.written pipe (ex.written pipe + 1)
    own := Function.update ex.own t (some (pipe, ex.written pipe, msg)) }

def readOk (ex : Exchange) (pipe : Handle) (msg : Bytes) : Exchange :=
  { ex with
    reads := Function.update ex.reads pipe (ex.reads pipe + 1)
    got := if ex.failed pipe then none else some (pipe, ex.reads pipe, msg) }

def readFailed (ex : Exchange) (pipe : Handle) : Exchange := { ex with failed := Function.update ex.failed pipe true }

/-- A `Call` begins. -/
def began (ex : Exchange) (t : Nat) : Exchange := { ex with own := Function.update ex.own t none }

def next (ex : Exchange) (t : Nat) : (c : ProviderCall) → c.Resp → Exchange
  | .fetchAddNextId, _ => ex.began t
  | .system (.writeFile (some pipe) msg), none => ex.wrote t pipe msg
  | .system (.readFile (some pipe)), .ok buf => ex.readOk pipe buf.1
  | .system (.readFile (some pipe)), .error _ => ex.readFailed pipe
  | _, _ => ex

/-- Every request is answered and read, unless a `ReadFile` has failed. -/
def Even (ex : Exchange) : Prop := ∀ pipe, ex.failed pipe = false → ex.reads pipe = ex.written pipe

end Exchange

def exchange (log : List (Nat × Answered ProviderCall ProviderCall.Resp)) : Exchange :=
  log.foldl (fun ex y => ex.next y.1 y.2.1 y.2.2) {}

/-- A request is written only to a pipe on which no `ReadFile` has failed. -/
def InTurn (ex : Exchange) : (c : ProviderCall) → c.Resp → Prop
  | .system (.writeFile (some pipe) _), none => ex.failed pipe = false
  | .system (.writeFile none _), none => False
  | _, _ => True

/-- The message read last is the one after the messages read before the
thread's request was written. -/
def Own (x : JsonText) (ex : Exchange) (t : Nat) (resp : Json) : Prop :=
  ∃ pipe k msg b, ex.own t = some (pipe, k, msg) ∧ ex.got = some (pipe, k, b) ∧ x.parse b = .ok resp

def exchangeView (x : JsonText) : PipeView Exchange where
  K _ := True
  J := Exchange.Even
  init := {}
  upd t ex c r := ex.next t c r
  may _ ex c r := InTurn ex c r
  check t ex c := ∀ resp, c = .returned resp → Own x ex t resp
  upd_quiet := by
    intro t ex c r hq
    unfold Exchange.next
    split
    · exact absurd hq id
    · exact absurd hq id
    · exact absurd hq id
    · exact absurd hq id
    · rfl
  check_of_not_returned h resp hc := absurd hc (h resp)

section

variable {x : JsonText} {t : Nat} {ex : Exchange}

theorem Exchange.Even.began (h : ex.Even) : (ex.began t).Even := h

/-- A request and its response. -/
theorem Exchange.Even.round {pipe : Handle} {msg b : Bytes} (h : ex.Even) : ((ex.wrote t pipe msg).readOk pipe b).Even := by
  intro pipe' hf
  have he := h pipe' hf
  show Function.update ex.reads pipe _ pipe' = Function.update ex.written pipe _ pipe'
  by_cases hp : pipe' = pipe
  · subst hp
    rw [Function.update_self, Function.update_self]
    show ex.reads pipe' + 1 = ex.written pipe' + 1
    rw [he]
  · rw [Function.update_of_ne hp, Function.update_of_ne hp]
    exact he

theorem Exchange.Even.lost {pipe : Handle} {msg : Bytes} (h : ex.Even) : ((ex.wrote t pipe msg).readFailed pipe).Even := by
  intro pipe' hf
  have hp : pipe' ≠ pipe := by
    rintro rfl
    simp [Exchange.readFailed] at hf
  have hf' : ex.failed pipe' = false := by
    have hupd : Function.update ex.failed pipe true pipe' = false := hf
    rwa [Function.update_of_ne hp] at hupd
  show ex.reads pipe' = Function.update ex.written pipe _ pipe'
  rw [Function.update_of_ne hp]
  exact h pipe' hf'

/-- The response that is read after the request was written is its own. -/
theorem Exchange.Even.own {pipe : Handle} {msg b : Bytes} {resp : Json} (h : ex.Even) (hf : ex.failed pipe = false)
    (hp : x.parse b = .ok resp) : Own x ((ex.wrote t pipe msg).readOk pipe b) t resp := by
  refine ⟨pipe, ex.written pipe, msg, b, Function.update_self .., ?_, hp⟩
  show (if ex.failed pipe then none else some (pipe, ex.reads pipe, b)) = _
  rw [hf, h pipe hf]
  rfl

theorem kept_exchange : (exchangeView x).Kept x where
  returned := by
    intro t n pipe ex nextId msg buf resp hJ e₀ e₁ hw hr hparse resp' hresp
    cases hresp
    cases pipe with
    | none => exact absurd hw id
    | some pipe => exact hJ.began.own hw hparse
  account := by
    intro t n p p' ex ex' nextId r hJ hend
    replace hJ : (ex.began t).Even := hJ.began
    cases hend with
    | dump => exact hJ
    | write hw =>
      cases hp : p.pipe with
      | none => exact hJ
      | some pipe => exact hJ
    | read hw he hr =>
      subst he
      generalize p.pipe = pipe at *
      cases pipe with
      | none => exact absurd hw id
      | some pipe => exact hJ.lost
    | parse hw he hr =>
      subst he
      generalize p.pipe = pipe at *
      cases pipe with
      | none => exact absurd hw id
      | some pipe => exact hJ.round
    | ok hw he hr he₂ hparse =>
      subst he he₂
      generalize p.pipe = pipe at *
      cases pipe with
      | none => exact absurd hw id
      | some pipe => exact hJ.round
  fields := fun _ _ => trivial
  hello := fun _ _ _ => ⟨fun _ => trivial, trivial⟩
  disconnected := fun _ => trivial

end

/-! ## The agent's side -/

/-- The log tells what is on the pipes: the requests, and of the responses those that were read. -/
structure WellRead (ex : Exchange) (w : AgentPipe) : Prop where
  written : ∀ pipe, (w.conn pipe).requests.length = ex.written pipe
  own : ∀ t pipe k msg, ex.own t = some (pipe, k, msg) → (w.conn pipe).requests[k]? = some msg
  answers : ∀ pipe, ex.failed pipe = false →
    ∃ done, done.length = ex.reads pipe ∧ (w.conn pipe).answers = done ++ (w.conn pipe).unread
  got : ∀ pipe k b, ex.got = some (pipe, k, b) → (w.conn pipe).answers[k]? = some b

section

variable {t : Nat} {ex : Exchange} {w : AgentPipe} {pipe : Handle}

theorem WellRead.began (h : WellRead ex w) : WellRead (ex.began t) w := by
  refine ⟨h.written, fun t' pipe k msg hown => ?_, h.answers, h.got⟩
  by_cases ht : t' = t
  · subst ht
    simp [Exchange.began] at hown
  · have hupd : Function.update ex.own t none t' = _ := hown
    rw [Function.update_of_ne ht] at hupd
    exact h.own t' pipe k msg hupd

/-- A change of one connection that only adds to its requests and its answers. -/
theorem WellRead.update (h : WellRead ex w) {conn : PipeConn} {ex' : Exchange}
    (hreq : (w.conn pipe).requests <+: conn.requests) (hans : (w.conn pipe).answers <+: conn.answers)
    (hwritten : ex'.written = Function.update ex.written pipe conn.requests.length)
    (hown : ∀ t pipe' k msg, ex'.own t = some (pipe', k, msg) →
      ex.own t = some (pipe', k, msg) ∨ pipe' = pipe ∧ conn.requests[k]? = some msg)
    (hfailed : ∀ pipe', ex'.failed pipe' = false → ex.failed pipe' = false)
    (hreads : ∀ pipe' ≠ pipe, ex'.reads pipe' = ex.reads pipe')
    (hdone : ex'.failed pipe = false → ∃ done, done.length = ex'.reads pipe ∧ conn.answers = done ++ conn.unread)
    (hgot : ∀ pipe' k b, ex'.got = some (pipe', k, b) →
      ex.got = some (pipe', k, b) ∨ pipe' = pipe ∧ conn.answers[k]? = some b) :
    WellRead ex' { w with conn := Function.update w.conn pipe conn } := by
  have hother : ∀ {pipe'}, pipe' ≠ pipe → Function.update w.conn pipe conn pipe' = w.conn pipe' :=
    fun hp => Function.update_of_ne hp ..
  refine ⟨fun pipe' => ?_, fun t pipe' k msg ho => ?_, fun pipe' hf => ?_, fun pipe' k b hg => ?_⟩
  · show (Function.update w.conn pipe conn pipe').requests.length = _
    rw [hwritten]
    by_cases hp : pipe' = pipe
    · subst hp
      rw [Function.update_self, Function.update_self]
    · rw [hother hp, Function.update_of_ne hp]
      exact h.written pipe'
  · show (Function.update w.conn pipe conn pipe').requests[k]? = some msg
    rcases hown t pipe' k msg ho with ho | ⟨rfl, ho⟩
    · have hk := h.own t pipe' k msg ho
      by_cases hp : pipe' = pipe
      · subst hp
        rw [Function.update_self]
        exact getElem?_of_prefix hreq hk
      · rwa [hother hp]
    · rwa [Function.update_self]
  · show ∃ done, _ ∧
      (Function.update w.conn pipe conn pipe').answers = done ++ (Function.update w.conn pipe conn pipe').unread
    by_cases hp : pipe' = pipe
    · subst hp
      rw [Function.update_self]
      exact hdone hf
    · rw [hother hp, hreads pipe' hp]
      exact h.answers pipe' (hfailed pipe' hf)
  · show (Function.update w.conn pipe conn pipe').answers[k]? = some b
    rcases hgot pipe' k b hg with hg | ⟨rfl, hg⟩
    · have hk := h.got pipe' k b hg
      by_cases hp : pipe' = pipe
      · subst hp
        rw [Function.update_self]
        exact getElem?_of_prefix hans hk
      · rwa [hother hp]
    · rwa [Function.update_self]

theorem WellRead.wrote (h : WellRead ex w) {msg : Bytes} :
    WellRead (ex.wrote t pipe msg)
      { w with conn := Function.update w.conn pipe { w.conn pipe with requests := (w.conn pipe).requests ++ [msg] } } := by
  have hlen : ((w.conn pipe).requests ++ [msg]).length = ex.written pipe + 1 := by simp [h.written pipe]
  refine h.update (List.prefix_append ..) List.prefix_rfl ?_ (fun t' pipe' k msg' ho => ?_) (fun _ hf => hf)
    (fun _ _ => rfl) (h.answers pipe) (fun _ _ _ hg => .inl hg)
  · show Function.update ex.written pipe (ex.written pipe + 1) = _
    rw [← hlen]
  · replace ho : Function.update ex.own t (some (pipe, ex.written pipe, msg)) t' = some (pipe', k, msg') := ho
    by_cases ht : t' = t
    · subst ht
      rw [Function.update_self] at ho
      cases ho
      refine .inr ⟨rfl, ?_⟩
      rw [← h.written pipe]
      exact List.getElem?_concat_length
    · rw [Function.update_of_ne ht] at ho
      exact .inl ho

theorem WellRead.readOk (h : WellRead ex w) {msg : Bytes} {rest : List Bytes} (hu : (w.conn pipe).unread = msg :: rest) :
    WellRead (ex.readOk pipe msg) { w with conn := Function.update w.conn pipe { w.conn pipe with unread := rest } } := by
  refine h.update List.prefix_rfl List.prefix_rfl ?_ (fun _ _ _ _ ho => .inl ho) (fun _ hf => hf)
    (fun _ hp => Function.update_of_ne hp ..) (fun hf => ?_) (fun pipe' k b hg => ?_)
  · show ex.written = _
    rw [h.written pipe, Function.update_eq_self]
  · obtain ⟨done, hdone, hans⟩ := h.answers pipe hf
    refine ⟨done ++ [msg], ?_, ?_⟩
    · show _ = Function.update ex.reads pipe _ pipe
      rw [Function.update_self, List.length_append, hdone]
      rfl
    · rw [hans, hu, List.append_assoc]
      rfl
  · replace hg : (if ex.failed pipe then none else some (pipe, ex.reads pipe, msg)) = some (pipe', k, b) := hg
    split at hg
    next => cases hg
    next hf =>
      cases hg
      obtain ⟨done, hdone, hans⟩ := h.answers pipe (by simpa using hf)
      refine .inr ⟨rfl, ?_⟩
      show (w.conn pipe).answers[ex.reads pipe]? = some msg
      rw [hans, hu, ← hdone]
      simp

theorem WellRead.readFailed (h : WellRead ex w) {unread : List Bytes} :
    WellRead (ex.readFailed pipe) { w with conn := Function.update w.conn pipe { w.conn pipe with unread } } := by
  refine h.update List.prefix_rfl List.prefix_rfl ?_ (fun _ _ _ _ ho => .inl ho) (fun pipe' hf => ?_)
    (fun _ _ => rfl) (fun hf => ?_) (fun _ _ _ hg => .inl hg)
  · show ex.written = _
    rw [h.written pipe, Function.update_eq_self]
  · by_cases hp : pipe' = pipe
    · subst hp
      simp [Exchange.readFailed] at hf
    · have hupd : Function.update ex.failed pipe true pipe' = false := hf
      rwa [Function.update_of_ne hp] at hupd
  · simp [Exchange.readFailed] at hf

theorem WellRead.answer (h : WellRead ex w) (m : Handle × Bytes) : WellRead ex (w.answer m) := by
  obtain ⟨pipe, resp⟩ := m
  have hsame : ex.written = Function.update ex.written pipe (w.conn pipe).requests.length := by
    rw [h.written pipe, Function.update_eq_self]
  show WellRead ex { w with conn := Function.update w.conn pipe ((w.conn pipe).answer resp) }
  unfold PipeConn.answer
  split
  next =>
    refine h.update List.prefix_rfl (List.prefix_append ..) hsame (fun _ _ _ _ ho => .inl ho) (fun _ hf => hf)
      (fun _ _ => rfl) (fun hf => ?_) (fun _ _ _ hg => .inl hg)
    obtain ⟨done, hdone, hans⟩ := h.answers pipe hf
    refine ⟨done, hdone, ?_⟩
    show (w.conn pipe).answers ++ [resp] = done ++ ((w.conn pipe).unread ++ [resp])
    rw [hans, List.append_assoc]
  next =>
    rw [Function.update_eq_self]
    exact h

/-- A call that is answered keeps the account. -/
theorem WellRead.call (h : WellRead ex w) {o : PipeOutcome} {c : ProviderCall} {p : Provider} {r : c.Resp}
    {g : Provider × AgentPipe} (ha : providerAnswer AgentPipe.system o c (p, w) = some (r, g)) :
    WellRead (ex.next t c r) g.2 := by
  cases c with
  | fetchAddNextId =>
    cases ha
    exact h.began
  | system c =>
    obtain ⟨⟨r, w'⟩, hs, hy⟩ := Option.map_eq_some_iff.mp ha
    cases hy
    cases c with
    | writeFile pipe msg =>
      match pipe, o with
      | none, o =>
        cases hs
        exact h
      | some pipe, .fails err =>
        cases hs
        show WellRead ex { w with conn := Function.update w.conn pipe (w.conn pipe) }
        rw [Function.update_eq_self]
        exact h
      | some pipe, .works =>
        cases hs
        exact h.wrote
    | readFile pipe =>
      match pipe, o with
      | none, o =>
        cases hs
        exact h
      | some pipe, .fails err =>
        cases hs
        exact h.readFailed
      | some pipe, .works =>
        obtain ⟨⟨r, conn⟩, hr, hy⟩ := Option.map_eq_some_iff.mp hs
        cases hy
        unfold PipeConn.read at hr
        dsimp only at hr
        split at hr
        next => cases hr
        next msg rest hu =>
          split at hr
          next =>
            cases hr
            exact h.readOk hu
          next =>
            cases hr
            exact h.readFailed
    | waitNamedPipe =>
      cases o with
      | works =>
        cases hs
        exact h
      | fails err =>
        cases hs
        exact h
    | createFile =>
      cases o with
      | works =>
        cases hs
        exact ⟨h.written, h.own, h.answers, h.got⟩
      | fails err =>
        cases hs
        exact h
    | _ =>
      cases hs
      exact h
  | _ =>
    cases ha
    exact h

end

/-! ## Runs -/

/-- In this step no request is written to a pipe on which a `ReadFile` has failed. -/
def WritesInTurn (st : StepOf (ProviderPool AgentPipe) (PoolInput ProviderOp PipeOutcome (Handle × Bytes)) Unit) : Prop :=
  ∀ t pipe msg, st.post.log = st.pre.log ++ [(t, ⟨.system (.writeFile (some pipe) msg), none⟩)] →
    ∀ t' err, (t', ⟨.system (.readFile (some pipe)), .error err⟩) ∉ st.pre.log

/-- If `Call` returns a value in this step, it is the agent's response to the
request that this `Call` has written. -/
def Matches (x : JsonText)
    (st : StepOf (ProviderPool AgentPipe) (PoolInput ProviderOp PipeOutcome (Handle × Bytes)) Unit) : Prop :=
  ∀ t resp, st.post.log = st.pre.log ++ [(t, ⟨.returned resp, ()⟩)] →
    ∃ pipe k msg b, (exchange st.pre.log).own t = some (pipe, k, msg) ∧
      (st.pre.shared.2.conn pipe).requests[k]? = some msg ∧ (st.pre.shared.2.conn pipe).answers[k]? = some b ∧
      x.parse b = .ok resp

section

variable {x : JsonText}

theorem exchange_concat (log : List (Nat × Answered ProviderCall ProviderCall.Resp)) (t : Nat) (c : ProviderCall)
    (r : c.Resp) :
    exchange (log ++ [(t, ⟨c, r⟩)]) = (exchange log).next t c r := List.foldl_append

/-- On a pipe that counts as failed, a `ReadFile` has failed. -/
theorem exists_of_failed {log : List (Nat × Answered ProviderCall ProviderCall.Resp)} {pipe : Handle}
    (h : (exchange log).failed pipe = true) : ∃ t err, (t, ⟨.system (.readFile (some pipe)), .error err⟩) ∈ log := by
  induction log using List.reverseRecOn with
  | nil => cases h
  | append_singleton log y ih =>
    obtain ⟨t, c, r⟩ := y
    have hold : (exchange log).failed pipe = true →
        ∃ t' err, (t', ⟨.system (.readFile (some pipe)), .error err⟩) ∈ log ++ [(t, ⟨c, r⟩)] := by
      intro hf
      obtain ⟨t', err, hm⟩ := ih hf
      exact ⟨t', err, List.mem_append_left _ hm⟩
    rw [exchange_concat] at h
    unfold Exchange.next at h
    split at h
    · exact hold h
    · exact hold h
    · exact hold h
    next pipe' err =>
      by_cases hp : pipe = pipe'
      · subst hp
        exact ⟨t, err, List.mem_append_right _ List.mem_cons_self⟩
      · have hupd : Function.update (exchange log).failed pipe' true pipe = true := h
        rw [Function.update_of_ne hp] at hupd
        exact hold hupd
    · exact hold h

theorem wellRead_step (i : PoolInput ProviderOp PipeOutcome (Handle × Bytes)) (s : ProviderPool AgentPipe)
    (h : WellRead (exchange s.log) s.shared.2) :
    WellRead (exchange (agentStep x i s).1.log) (agentStep x i s).1.shared.2 := by
  refine Pool.step_shared (P := fun (g : Provider × AgentPipe) log => WellRead (exchange log) g.2)
    (fun t o c r g ha => ?_) (fun e => h.answer e) h i
  rw [exchange_concat]
  exact h.call ha

theorem wellRead_run (x : JsonText) (schedule : List (PoolInput ProviderOp PipeOutcome (Handle × Bytes))) :
    let s := run (agentStep x) schedule (ProviderPool.start {})
    WellRead (exchange s.log) s.shared.2 := by
  have hstart : WellRead (exchange []) {} := ⟨fun _ => rfl, nofun, fun _ _ => ⟨[], rfl, rfl⟩, nofun⟩
  exact run_induct (P := fun (s : ProviderPool AgentPipe) => WellRead (exchange s.log) s.shared.2) wellRead_step
    schedule hstart

theorem WritesInTurn.considers {i : PoolInput ProviderOp PipeOutcome (Handle × Bytes)} {s : ProviderPool AgentPipe}
    (h : WritesInTurn (stepOf (agentStep x) i s)) : (exchangeView x).Considers (stepOf (agentStep x) i s) := by
  intro t n c r _ hlog
  show InTurn (exchange s.log) c r
  unfold InTurn
  split
  next pipe msg =>
    rw [Bool.eq_false_iff]
    intro hf
    obtain ⟨t', err, hm⟩ := exists_of_failed hf
    exact h t pipe msg hlog t' err hm
  next msg =>
    -- The system refuses a write without a pipe.
    obtain ⟨t', o, c, k, r, g, -, -, ha, hy⟩ := Pool.step_log hlog
    cases hy
    cases ha
  next => trivial

theorem call_matches (x : JsonText) (schedule : List (PoolInput ProviderOp PipeOutcome (Handle × Bytes)))
    (h : ∀ st ∈ trace (agentStep x) schedule (ProviderPool.start {}), WritesInTurn st) :
    ∀ st ∈ trace (agentStep x) schedule (ProviderPool.start {}), Matches x st := by
  intro st hst t resp hlog
  obtain ⟨is₁, i, is₂, rfl, rfl⟩ := mem_trace_iff.mp hst
  have hconsiders : ∀ st ∈ trace (providerStep x AgentPipe.system AgentPipe.answer) is₁ (ProviderPool.start {}),
      (exchangeView x).Considers st := by
    intro st hst
    obtain ⟨js₁, j, js₂, rfl, rfl⟩ := mem_trace_iff.mp hst
    exact (h _ (trace_prefix_subset (List.prefix_append ..) _ hst)).considers
  have hinv : PoolInv (exchangeView x).rules (exchangeView x).view _ :=
    kept_exchange.run trivial (fun _ _ => rfl) _ is₁ hconsiders
  have hread := wellRead_run x is₁
  obtain ⟨t', o, c, k, r, g, hi, ht, ha, hy⟩ := Pool.step_log hlog
  cases hy
  obtain ⟨pipe, k, msg, b, hown, hgot, hparse⟩ :=
    hinv.checked ((exchangeView x).follows (h _ hst).considers) hi ht ha resp rfl
  exact ⟨pipe, k, msg, b, hown, hread.own t pipe k msg hown, hread.got pipe k b hgot, hparse⟩

end

/-! ## Examples -/

/-- Whether this is a `ReadFile` that failed on the pipe. -/
def failsOn (pipe : Handle) : Nat × Answered ProviderCall ProviderCall.Resp → Bool
  | (_, ⟨.system (.readFile (some pipe')), .error _⟩) => decide (pipe' = pipe)
  | _ => false

/-- `WritesInTurn`, evaluated. -/
def writesInTurn (st : StepOf (ProviderPool AgentPipe) (PoolInput ProviderOp PipeOutcome (Handle × Bytes)) Unit) : Bool :=
  match st.post.log.getLast? with
  | some (_, ⟨.system (.writeFile (some pipe) _), none⟩) => !st.pre.log.any (failsOn pipe)
  | _ => true

theorem WritesInTurn.of_eval {st : StepOf (ProviderPool AgentPipe) (PoolInput ProviderOp PipeOutcome (Handle × Bytes)) Unit}
    (h : writesInTurn st = true) : WritesInTurn st := by
  intro t pipe msg hlog t' err hm
  simp only [writesInTurn, hlog, List.getLast?_append, List.getLast?_singleton, Option.some_or, Bool.not_eq_true'] at h
  have hany : st.pre.log.any (failsOn pipe) = true := List.any_eq_true.mpr ⟨_, hm, decide_eq_true rfl⟩
  rw [hany] at h
  cases h

namespace Demo

def response (id : BitVec 64) (result : Json) : Json :=
  ((Json.null.set "jsonrpc" (.string (ascii "2.0"))).set "id" (.unsigned id)).set "result" result

def created (contextId : BitVec 64) (token : Bytes) : Json :=
  ((Json.null.set "context_id" (.unsigned contextId)).set "token" (.string token)).set "continue" (.boolean true)

def greeting : Json := response 1 (Json.null.set "version" (.integer 1))
def second : Json := response 3 (created 2 (ascii "YII="))
def third : Json := response 4 (created 3 (ascii "YIM="))

/-- The answer to the first `create_context`, of 65541 bytes. -/
def large : Bytes := (response 2 (created 1 (List.replicate 65464 65))).compact

def texts : JsonText := .reading [greeting, second, third]

/-- `CreateContext` connects, and has the response to `hello`. -/
def greets : List (PoolInput ProviderOp PipeOutcome (Handle × Bytes)) :=
  .start 0 (.createContext (ascii "HTTP/one")) :: (List.replicate 11 (.step 0 .works) ++
    .env (0, greeting.compact) :: List.replicate 3 (.step 0 .works))

/-- `CreateContext` connects and writes its request; the agent answers. -/
def firstRequest : List (PoolInput ProviderOp PipeOutcome (Handle × Bytes)) :=
  .start 0 (.createContext (ascii "HTTP/one")) :: (List.replicate 11 (.step 0 .works) ++
    .env (0, greeting.compact) :: (List.replicate 12 (.step 0 .works) ++ [.env (0, large), .step 0 .works]))

/-- Its `ReadFile` is done, and two more `CreateContext` follow. -/
def laterRequests : List (PoolInput ProviderOp PipeOutcome (Handle × Bytes)) :=
  .step 0 .works :: .start 1 (.createContext (ascii "HTTP/two")) :: (List.replicate 6 (.step 1 .works) ++
    .env (0, second.compact) :: (List.replicate 3 (.step 1 .works) ++ .start 2 (.createContext (ascii "HTTP/three")) ::
      (List.replicate 6 (.step 2 .works) ++ .env (0, third.compact) :: List.replicate 2 (.step 2 .works))))

/-- All of it, until the third `CreateContext` has its response. -/
def mixed : List (PoolInput ProviderOp PipeOutcome (Handle × Bytes)) :=
  firstRequest ++ .step 0 .works :: (laterRequests ++ [.step 2 .works])

/-- What `ReadFile` leaves of the large response. -/
def rest : Bytes := ascii "AAA\"\x7d\x7d"

theorem compact_created (token : Bytes) : (response 2 (created 1 token)).compact =
    ascii "\x7b\"id\":2,\"jsonrpc\":\"2.0\",\"result\":\x7b\"context_id\":1,\"continue\":true,\"token\":\"" ++
      (((token ++ ascii "\"") ++ ascii "\x7d") ++ ascii "\x7d") := by
  rfl

theorem drop_large : large.drop 65535 = rest := by
  have hlen : (ascii "\x7b\"id\":2,\"jsonrpc\":\"2.0\",\"result\":\x7b\"context_id\":1,\"continue\":true,\"token\":\"").length = 74 := by
    decide +kernel
  rw [large, compact_created, List.drop_append, List.drop_eq_nil_of_le (by rw [hlen]; decide), hlen]
  simp only [List.drop_append, List.drop_replicate, List.length_replicate, List.length_append]
  rfl

theorem large_too_long : ¬large.length ≤ 65535 := by
  intro h
  have hnil := List.drop_eq_nil_of_le h
  rw [drop_large] at hnil
  revert hnil
  decide +kernel

/-- What a thread does after its `ReadFile`. -/
def resumeRead (r : Except (BitVec 32) { b : Bytes // b.length ≤ 65535 }) : ProviderProg Unit → ProviderProg Unit
  | .call (.other (.system (.readFile _))) k => k r
  | p => p

/-- The state after the `ReadFile` of thread 0 has found a message that is too long. -/
def afterMore (s : ProviderPool AgentPipe) (rest : Bytes) : ProviderPool AgentPipe :=
  { s with
    shared := (s.shared.1, { s.shared.2 with
      conn := Function.update s.shared.2.conn 0 { s.shared.2.conn 0 with unread := [rest] } })
    threads := Function.update s.threads 0 (resumeRead (.error ERROR_MORE_DATA) (s.threads 0))
    log := s.log ++ [(0, ⟨.system (.readFile (some 0)), .error ERROR_MORE_DATA⟩)] }

theorem agentStep_more {x : JsonText} {s : ProviderPool AgentPipe} {msg : Bytes}
    (ht : s.threads 0 = .call (.other (.system (.readFile (some 0)))) fun r => resumeRead r (s.threads 0))
    (hu : (s.shared.2.conn 0).unread = [msg]) (hl : ¬msg.length ≤ 65535) :
    (agentStep x (.step 0 .works) s).1 = afterMore s (msg.drop 65535) := by
  have hr : (s.shared.2.conn 0).read .works =
      some (.error ERROR_MORE_DATA, { s.shared.2.conn 0 with unread := [msg.drop 65535] }) := by
    simp only [PipeConn.read, hu, dif_neg hl]
  have ha : providerAnswer AgentPipe.system .works (.system (.readFile (some 0))) s.shared =
      some (.error ERROR_MORE_DATA, (afterMore s (msg.drop 65535)).shared) := by
    show Option.map _ (Option.map _ ((s.shared.2.conn 0).read .works)) = _
    rw [hr]
    rfl
  show (s.step (ProviderOp.run x) (providerAnswer AgentPipe.system)
    (fun e g => (g.1, AgentPipe.answer e g.2)) (.step 0 .works)).1 = _
  rw [Pool.step_other ht ha]
  rfl

/-- A `Call` that returns what is not the response to its request. -/
theorem not_matches {x : JsonText} {s : ProviderPool AgentPipe} {t n : Nat} {o : PipeOutcome} {resp : Json}
    {k : Unit → ProviderProg Unit} {pipe : Handle} {b : Bytes} (ht : s.threads t = .call (.other (.returned resp)) k)
    (hown : ((exchange s.log).own t).map (fun own => (own.1, own.2.1)) = some (pipe, n))
    (hb : (s.shared.2.conn pipe).answers[n]? = some b) (hparse : x.parse b ≠ .ok resp) :
    let st := stepOf (agentStep x) (.step t o) s
    st.post.log = st.pre.log ++ [(t, ⟨.returned resp, ()⟩)] ∧ (st.pre.shared.2.conn pipe).answers[n]? = some b ∧
      ¬Matches x st := by
  have ha : providerAnswer AgentPipe.system o (.returned resp) s.shared = some ((), s.shared) := rfl
  have hlog : (stepOf (agentStep x) (.step t o) s).post.log = s.log ++ [(t, ⟨.returned resp, ()⟩)] :=
    congrArg Pool.log (Pool.step_other ht ha)
  refine ⟨hlog, hb, fun hm => ?_⟩
  obtain ⟨pipe', n', msg, b', hown', -, hb', hparse'⟩ := hm t resp hlog
  have hown'' : (exchange s.log).own t = some (pipe', n', msg) := hown'
  rw [hown''] at hown
  cases hown
  have hsame : some b = some b' := hb.symm.trans hb'
  cases hsame
  exact hparse hparse'

/-- The state before the third `CreateContext` has its response. The kernel
evaluates the run around the large message, which it cannot. -/
def atReturn : ProviderPool AgentPipe :=
  run (agentStep texts) laterRequests (afterMore (run (agentStep texts) firstRequest (ProviderPool.start {})) rest)

theorem run_atReturn :
    run (agentStep texts) (firstRequest ++ .step 0 .works :: laterRequests) (ProviderPool.start {}) = atReturn := by
  rw [run_append, run, agentStep_more (by rfl) (by rfl) large_too_long, drop_large, atReturn]

set_option maxRecDepth 4096 in
theorem atReturn_thread : atReturn.threads 2 = .call (.other (.returned second)) fun _ => .call .unlock fun _ =>
    .ret () := by
  rfl

theorem atReturn_own : ((exchange atReturn.log).own 2).map (fun own => (own.1, own.2.1)) = some (0, 3) := by
  decide +kernel

theorem atReturn_answer : (atReturn.shared.2.conn 0).answers[3]? = some third.compact := by
  decide +kernel

theorem third_not_second : texts.parse third.compact ≠ .ok second := by
  intro h
  have hid : (texts.parse third.compact).toOption.map (fun resp => (createResult texts resp).contextId) = some 3 := by
    decide +kernel
  rw [h] at hid
  revert hid
  decide +kernel

end Demo

theorem call_matches_greeting :
    (∀ st ∈ trace (agentStep Demo.texts) Demo.greets (ProviderPool.start {}), Matches Demo.texts st) ∧
      ((run (agentStep Demo.texts) Demo.greets (ProviderPool.start {})).log.getLast?.any fun y =>
        match y with
        | (0, ⟨.returned resp, _⟩) => decide (resp.compact = Demo.greeting.compact)
        | _ => false) = true := by
  have h : (trace (agentStep Demo.texts) Demo.greets (ProviderPool.start {})).all writesInTurn = true := by decide +kernel
  refine ⟨?_, by decide +kernel⟩
  exact call_matches Demo.texts Demo.greets fun st hst => .of_eval (List.all_eq_true.mp h st hst)

/-- The third `Call` returns the response to the second request. -/
theorem call_returns_other :
    ∃ st ∈ trace (agentStep Demo.texts) Demo.mixed (ProviderPool.start {}),
      st.post.log = st.pre.log ++ [(2, ⟨.returned Demo.second, ()⟩)] ∧
      (st.pre.shared.2.conn 0).answers[3]? = some Demo.third.compact ∧ ¬Matches Demo.texts st := by
  have hmem : stepOf (agentStep Demo.texts) (.step 2 .works) Demo.atReturn ∈
      trace (agentStep Demo.texts) Demo.mixed (ProviderPool.start {}) := by
    refine mem_trace_iff.mpr ⟨Demo.firstRequest ++ .step 0 .works :: Demo.laterRequests, .step 2 .works, [], ?_, ?_⟩
    · simp [Demo.mixed]
    · rw [Demo.run_atReturn]
  exact ⟨_, hmem, Demo.not_matches Demo.atReturn_thread Demo.atReturn_own Demo.atReturn_answer Demo.third_not_second⟩

end TR.Impl
