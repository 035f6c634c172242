import TcpRedirector.Impl.Service.PipeServer
import TcpRedirector.Proof.Framework.Run
import TcpRedirector.Proof.Service.Load

/-!
# Requests and replies

While every message is shorter than the buffer of `PipeThread`, each is answered
once and in order, and nothing ends the session (`PipeInv`); a client that
reads gets all replies (`settles_of_work`). A longer one is not answered as it
should be: `ReadFile` fills the buffer or fails (`requests_answered_iff`).
-/

namespace TR.Impl.Service

section

variable {σ : Type}

/-- The messages that the client has written. -/
def writes (is : List (PipeInput σ)) : List Bytes :=
  is.filterMap fun i =>
    match i with
    | .write message => some message
    | _ => none

/-- The requests that were answered, with their replies. -/
def replies (tr : List (StepOf (PipeSession σ) (PipeInput σ) (Option (Bytes × Bytes)))) : List (Bytes × Bytes) :=
  tr.filterMap (·.out)

/-- The requests that have no reply yet. -/
def unanswered (s : PipeSession σ) : List Bytes :=
  match s.thread with
  | .handling request => request :: s.requests
  | _ => s.requests

variable (x : Platform) (callback : RequestCallback σ)

/-- The method and the parameters of a request that is well-formed. -/
def requestOf (message : Bytes) : Option (Bytes × Bytes) :=
  match x.parse message with
  | .error _ => none
  | .ok j => (do
      let method ← j.value Json.getString "method" []
      let params ← j.value Json.getString "params" []
      pure (method, params) : Except JsonFault (Bytes × Bytes)).toOption

/-- The reply to a message that is handled in this state of the service. -/
def replyTo (message : Bytes) (service : σ) : Bytes :=
  if IPC_READ_BUFFER - 1 < message.length then messageTooLargeText
  else
    match requestOf x message with
    | none => parseErrorText
    -- A handler that throws has no response.
    | some (method, params) => (callback method params service).1.getD parseErrorText

/-- The client reads what there is, and the thread takes its step, `n` times. -/
def rounds : Nat → PipeSession σ → List (PipeInput σ)
  | 0, _ => []
  | n + 1, s =>
    let round := [.read s.responses.length, .thread]
    round ++ rounds n (run (pipeStep x callback) round s)

/-- The session of a client that has just connected. -/
def PipeSession.connected (service : σ) : PipeSession σ where
  service := service

/-- Every message of the run is answered. -/
structure EveryAnswered (service : σ) (is : List (PipeInput σ)) : Prop where
  stays : (run (pipeStep x callback) is (.connected service)).thread ≠ .disconnected
  /-- Exactly one reply for each message, in order. -/
  inOrder : (replies (trace (pipeStep x callback) is (.connected service))).map (·.1) ++
    unanswered (run (pipeStep x callback) is (.connected service)) = writes is
  replied : ∀ st ∈ trace (pipeStep x callback) is (.connected service), ∀ request reply,
    st.out = some (request, reply) → reply = replyTo x callback request st.pre.service
  /-- What has no reply yet gets one if the client reads. -/
  settles : ∃ n, let s := run (pipeStep x callback) is (.connected service)
    unanswered (run (pipeStep x callback) (rounds x callback n s) s) = []

end

/-! ## The thread -/

section

variable {σ : Type} (x : Platform) (callback : RequestCallback σ) {s s' : PipeSession σ} {out : Option (Bytes × Bytes)}

theorem respond_eq (request : Bytes) (service : σ) :
    PipeSession.respond x callback request service =
      match requestOf x request with
      | none => (none, service)
      | some (method, params) => callback method params service := by
  unfold PipeSession.respond requestOf
  cases x.parse request with
  | error => rfl
  | ok j =>
    dsimp only
    split
    next h => rw [h]; rfl
    next h => rw [h]; rfl

/-- A message that the buffer takes and does not fill. -/
def Fits (message : Bytes) : Prop := message ≠ [] ∧ message.length < IPC_READ_BUFFER - 1

theorem replyTo_of_fits {message : Bytes} (h : Fits message) (service : σ) :
    replyTo x callback message service = (PipeSession.respond x callback message service).1.getD parseErrorText := by
  rw [replyTo, if_neg (by have := h.2; omega), respond_eq]
  cases requestOf x message with
  | none => rfl
  | some request => rfl

/-- The session goes on, and all it has to answer fits. -/
structure PipeInv (s : PipeSession σ) : Prop where
  connected : s.thread ≠ .disconnected
  fits : ∀ message ∈ unanswered s, Fits message

/-- What the thread still has to do. -/
def work (s : PipeSession σ) : Nat :=
  3 * s.requests.length +
    match s.thread with
    | .handling _ => 2
    | .flushing => 1
    | _ => 0

theorem unanswered_of_work (h : work s = 0) : unanswered s = [] := by
  unfold work at h
  unfold unanswered
  have hrequests : s.requests = [] := List.length_eq_zero_iff.mp (by omega)
  cases hthread : s.thread with
  | handling => rw [hthread] at h; dsimp only at h; omega
  | _ => exact hrequests

/-- What a step of the thread makes of a session, and what it answers. -/
inductive ThreadStep (s : PipeSession σ) : PipeSession σ → Option (Bytes × Bytes) → Prop where
  | waits (h : s.thread = .reading ∧ s.requests = [] ∨ s.thread = .flushing ∧ s.responses ≠ [] ∨ s.thread = .disconnected) :
    ThreadStep s s none
  | disconnects (request : Bytes) (requests : List Bytes) (hthread : s.thread = .reading)
    (hrequests : s.requests = request :: requests) (h : IPC_READ_BUFFER - 1 < request.length ∨ request = []) :
    ThreadStep s s.disconnect none
  | tooLarge (request : Bytes) (requests : List Bytes) (hthread : s.thread = .reading)
    (hrequests : s.requests = request :: requests) (h : request.length = IPC_READ_BUFFER - 1) :
    ThreadStep s { s with requests := requests, responses := s.responses ++ messageTooLargeText }
      (some (request, messageTooLargeText))
  | takes (request : Bytes) (requests : List Bytes) (hthread : s.thread = .reading)
    (hrequests : s.requests = request :: requests) (h : request.length < IPC_READ_BUFFER - 1) :
    ThreadStep s { s with requests := requests, thread := .handling request } none
  | responds (request response : Bytes) (service : σ) (hthread : s.thread = .handling request)
    (h : PipeSession.respond x callback request s.service = (some response, service)) :
    ThreadStep s { s with service := service, responses := s.responses ++ response, thread := .flushing }
      (some (request, response))
  | fails (request : Bytes) (service : σ) (hthread : s.thread = .handling request)
    (h : PipeSession.respond x callback request s.service = (none, service)) :
    ThreadStep s { s with service := service, responses := s.responses ++ parseErrorText, thread := .reading }
      (some (request, parseErrorText))
  | flushed (hthread : s.thread = .flushing) (h : s.responses = []) : ThreadStep s { s with thread := .reading } none

theorem threadStep_step (s : PipeSession σ) : ThreadStep x callback s (s.step x callback).1 (s.step x callback).2 := by
  unfold PipeSession.step
  split
  next hthread =>
    split
    next hrequests => exact .waits (.inl ⟨hthread, hrequests⟩)
    next request requests hrequests =>
      split
      next h => exact .disconnects request requests hthread hrequests (h.imp_right List.length_eq_zero_iff.mp)
      next hlong =>
        split
        next => exact .tooLarge request requests hthread hrequests (by omega)
        next => exact .takes request requests hthread hrequests (by omega)
  next request hthread =>
    split
    next response service h => exact .responds request response service hthread h
    next service h => exact .fails request service hthread h
  next hthread =>
    split
    next h => exact .flushed hthread h
    next h => exact .waits (.inr (.inl ⟨hthread, h⟩))
  next hthread => exact .waits (.inr (.inr hthread))

/-- A step of the thread answers nothing, or what comes next. -/
theorem PipeInv.step (h : PipeInv s) (hstep : ThreadStep x callback s s' out) :
    s'.thread ≠ .disconnected ∧
    (out = none ∧ unanswered s' = unanswered s ∨
      ∃ request, out = some (request, replyTo x callback request s.service) ∧ unanswered s = request :: unanswered s') := by
  cases hstep with
  | waits => exact ⟨h.connected, .inl ⟨rfl, rfl⟩⟩
  | disconnects request requests hthread hrequests hlength =>
    have hfits : Fits request := h.fits request (by simp [unanswered, hthread, hrequests])
    exact absurd hlength (not_or.mpr ⟨by have := hfits.2; omega, hfits.1⟩)
  | tooLarge request requests hthread hrequests hlength =>
    have hfits : Fits request := h.fits request (by simp [unanswered, hthread, hrequests])
    exact absurd hlength (Nat.ne_of_lt hfits.2)
  | takes request requests hthread hrequests => exact ⟨nofun, .inl ⟨rfl, by simp [unanswered, hthread, hrequests]⟩⟩
  | responds request response service hthread hrespond =>
    have hreply := replyTo_of_fits x callback (h.fits request (by simp [unanswered, hthread])) s.service
    rw [hrespond] at hreply
    exact ⟨nofun, .inr ⟨request, by rw [hreply]; rfl, by simp [unanswered, hthread]⟩⟩
  | fails request service hthread hrespond =>
    have hreply := replyTo_of_fits x callback (h.fits request (by simp [unanswered, hthread])) s.service
    rw [hrespond] at hreply
    exact ⟨nofun, .inr ⟨request, by rw [hreply]; rfl, by simp [unanswered, hthread]⟩⟩
  | flushed hthread => exact ⟨nofun, .inl ⟨rfl, by simp [unanswered, hthread]⟩⟩

/-- If the client has read all there is, the thread gets on. -/
theorem PipeInv.work_step (h : PipeInv s) (hresponses : s.responses = []) (hstep : ThreadStep x callback s s' out) :
    work s' ≤ work s - 1 := by
  cases hstep with
  | waits hwaits =>
    rcases hwaits with ⟨hthread, hrequests⟩ | ⟨-, hne⟩ | hthread
    · simp [work, hthread, hrequests]
    · exact absurd hresponses hne
    · exact absurd hthread h.connected
  | disconnects => exact Nat.zero_le _
  | tooLarge request requests hthread hrequests =>
    simp only [work, hthread, hrequests, List.length_cons]
    omega
  | takes request requests hthread hrequests =>
    simp only [work, hthread, hrequests, List.length_cons]
    omega
  | responds request response service hthread => simp [work, hthread]
  | fails request service hthread => simp [work, hthread]
  | flushed hthread => simp [work, hthread]

end

/-! ## The session -/

section

variable {σ : Type} (x : Platform) (callback : RequestCallback σ) {s : PipeSession σ}

theorem unanswered_write (s : PipeSession σ) (message : Bytes) :
    unanswered { s with requests := s.requests ++ [message] } = unanswered s ++ [message] := by
  cases h : s.thread <;> simp [unanswered, h]

/-- What one step of the session answers and takes up; it goes on. -/
theorem PipeInv.next (h : PipeInv s) (i : PipeInput σ) (hfits : ∀ message ∈ writes [i], Fits message) :
    PipeInv (pipeStep x callback i s).1 ∧
    (replies [stepOf (pipeStep x callback) i s]).map (·.1) ++ unanswered (pipeStep x callback i s).1 =
      unanswered s ++ writes [i] ∧
    ∀ request reply, (pipeStep x callback i s).2 = some (request, reply) →
      reply = replyTo x callback request s.service := by
  cases i with
  | write message =>
    have hstep : pipeStep x callback (.write message) s = ({ s with requests := s.requests ++ [message] }, none) := by
      simp only [pipeStep, if_neg h.connected]
    simp only [stepOf, hstep]
    refine ⟨⟨h.connected, ?_⟩, by rw [unanswered_write]; rfl, nofun⟩
    rw [unanswered_write]
    exact fun m hm => (List.mem_append.mp hm).elim (h.fits m) (hfits m)
  | read count => exact ⟨⟨h.connected, h.fits⟩, (List.append_nil _).symm, nofun⟩
  | service service => exact ⟨⟨h.connected, h.fits⟩, (List.append_nil _).symm, nofun⟩
  | thread =>
    obtain ⟨hconnected, ⟨hnone, hsame⟩ | ⟨request, hsome, hnext⟩⟩ := h.step x callback (threadStep_step x callback s)
    · refine ⟨⟨hconnected, ?_⟩, ?_, ?_⟩
      · exact fun m hm => h.fits m (hsame ▸ hm)
      · simp [replies, stepOf, pipeStep, hnone, hsame, writes]
      · simp only [pipeStep, hnone]
        exact nofun
    · refine ⟨⟨hconnected, fun m hm => h.fits m (hnext ▸ List.mem_cons_of_mem _ hm)⟩, ?_, ?_⟩
      · simp [replies, stepOf, pipeStep, hsome, hnext, writes]
      · intro r reply hr
        simp only [pipeStep, hsome, Option.some.injEq, Prod.mk.injEq] at hr
        rw [← hr.1, ← hr.2]

theorem writes_cons (i : PipeInput σ) (is : List (PipeInput σ)) : writes (i :: is) = writes [i] ++ writes is := by
  rw [writes, writes, writes, ← List.filterMap_append]
  rfl

/-- What a run answers and takes up. -/
theorem PipeInv.after (is : List (PipeInput σ)) (h : PipeInv s) (hfits : ∀ message ∈ writes is, Fits message) :
    PipeInv (run (pipeStep x callback) is s) ∧
    (replies (trace (pipeStep x callback) is s)).map (·.1) ++ unanswered (run (pipeStep x callback) is s) =
      unanswered s ++ writes is ∧
    ∀ st ∈ trace (pipeStep x callback) is s, ∀ request reply, st.out = some (request, reply) →
      reply = replyTo x callback request st.pre.service := by
  induction is generalizing s with
  | nil => exact ⟨h, (List.append_nil _).symm, nofun⟩
  | cons i is ih =>
    rw [writes_cons] at hfits ⊢
    obtain ⟨hinv, horder, hreply⟩ :=
      h.next x callback i fun m hm => hfits m (List.mem_append_left _ hm)
    obtain ⟨hinv', horder', hreplies⟩ := ih hinv fun m hm => hfits m (List.mem_append_right _ hm)
    refine ⟨hinv', ?_, ?_⟩
    · have htrace : replies (trace (pipeStep x callback) (i :: is) s) =
          replies [stepOf (pipeStep x callback) i s] ++
            replies (trace (pipeStep x callback) is (pipeStep x callback i s).1) := by
        rw [replies, replies, replies, ← List.filterMap_append]
        rfl
      rw [htrace, List.map_append, List.append_assoc]
      show _ ++ (_ ++ unanswered (run (pipeStep x callback) is (pipeStep x callback i s).1)) = _
      rw [horder', ← List.append_assoc, horder, List.append_assoc]
    · intro st hst
      rcases List.mem_cons.mp hst with rfl | hst
      · exact hreply
      · exact hreplies st hst

/-- A client that reads gets all replies. -/
theorem PipeInv.settles (n : Nat) (h : PipeInv s) (hn : work s ≤ n) :
    unanswered (run (pipeStep x callback) (rounds x callback n s) s) = [] := by
  induction n generalizing s with
  | zero =>
    show unanswered s = []
    exact unanswered_of_work (Nat.le_zero.mp hn)
  | succ n ih =>
    rw [rounds, run_append]
    have hread : PipeInv { s with responses := s.responses.drop s.responses.length } := ⟨h.connected, h.fits⟩
    refine ih ?_ ?_
    · exact (hread.next x callback .thread nofun).1
    · have hwork := hread.work_step x callback List.drop_length (threadStep_step x callback _)
      have hsame : work { s with responses := s.responses.drop s.responses.length } = work s := rfl
      show work (PipeSession.step x callback { s with responses := s.responses.drop s.responses.length }).1 ≤ n
      omega

theorem PipeInv.connected_new (service : σ) : PipeInv (PipeSession.connected service) := ⟨nofun, nofun⟩

/-- While all messages fit, every one is answered. -/
theorem everyAnswered_of_fits (service : σ) {is : List (PipeInput σ)} (hfits : ∀ message ∈ writes is, Fits message) :
    EveryAnswered x callback service is := by
  obtain ⟨hinv, horder, hreplies⟩ := (PipeInv.connected_new service).after x callback is hfits
  exact ⟨hinv.connected, horder, hreplies, _, hinv.settles x callback _ Nat.le.refl⟩

end

/-! ## Longer messages -/

section

variable {σ : Type} (x : Platform) (callback : RequestCallback σ) {s s' : PipeSession σ} {out : Option (Bytes × Bytes)}

/-- A request is handled only if it does not fill the buffer. -/
def Handles (s : PipeSession σ) : Prop := ∀ request, s.thread = .handling request → request.length < IPC_READ_BUFFER - 1

theorem Handles.step (h : Handles s) (hstep : ThreadStep x callback s s' out) :
    Handles s' ∧ ∀ request reply, out = some (request, reply) → request.length < IPC_READ_BUFFER - 1 ∨
      request.length = IPC_READ_BUFFER - 1 ∧ reply = messageTooLargeText := by
  cases hstep with
  | waits => exact ⟨h, nofun⟩
  | disconnects => exact ⟨nofun, nofun⟩
  | tooLarge message requests hthread hrequests hfull =>
    refine ⟨fun r hr => absurd hr (by simp [hthread]), fun request reply hr => ?_⟩
    obtain ⟨rfl, rfl⟩ := Prod.mk.inj (Option.some.inj hr)
    exact .inr ⟨hfull, rfl⟩
  | takes message requests hthread hrequests hfits =>
    refine ⟨fun r hr => ?_, nofun⟩
    cases hr
    exact hfits
  | responds message response service hthread =>
    refine ⟨nofun, fun request reply hr => ?_⟩
    obtain ⟨rfl, -⟩ := Prod.mk.inj (Option.some.inj hr)
    exact .inl (h message hthread)
  | fails message service hthread =>
    refine ⟨nofun, fun request reply hr => ?_⟩
    obtain ⟨rfl, -⟩ := Prod.mk.inj (Option.some.inj hr)
    exact .inl (h message hthread)
  | flushed => exact ⟨nofun, nofun⟩

/-- A message that fills the buffer gets the same reply as a longer one should. -/
theorem Handles.next (h : Handles s) (i : PipeInput σ) :
    Handles (pipeStep x callback i s).1 ∧
    ∀ request reply, (pipeStep x callback i s).2 = some (request, reply) → request.length < IPC_READ_BUFFER - 1 ∨
      request.length = IPC_READ_BUFFER - 1 ∧ reply = messageTooLargeText := by
  cases i with
  | write message =>
    refine ⟨?_, nofun⟩
    show Handles (if s.thread = .disconnected then s else { s with requests := s.requests ++ [message] })
    split
    next => exact h
    next => exact h
  | read count => exact ⟨h, nofun⟩
  | service service => exact ⟨h, nofun⟩
  | thread => exact h.step x callback (threadStep_step x callback s)

theorem Handles.replied {service : σ} {is : List (PipeInput σ)}
    {st : StepOf (PipeSession σ) (PipeInput σ) (Option (Bytes × Bytes))}
    (hst : st ∈ trace (pipeStep x callback) is (.connected service)) {request reply : Bytes}
    (hout : st.out = some (request, reply)) :
    request.length < IPC_READ_BUFFER - 1 ∨ request.length = IPC_READ_BUFFER - 1 ∧ reply = messageTooLargeText := by
  have hconnected : Handles (PipeSession.connected service) := nofun
  obtain ⟨hpre, heq⟩ :=
    trace_induct (P := Handles) (fun i s hs => (Handles.next x callback hs i).1) hconnected hst
  rw [heq] at hout
  exact (hpre.next x callback _).2 _ _ hout

theorem writes_map_write (messages : List Bytes) : writes (messages.map (.write (σ := σ))) = messages := by
  rw [writes, List.filterMap_map]
  exact List.filterMap_some

theorem writes_append (is is' : List (PipeInput σ)) : writes (is ++ is') = writes is ++ writes is' := List.filterMap_append

theorem writes_rounds (n : Nat) (s : PipeSession σ) : writes (rounds x callback n s) = [] := by
  induction n generalizing s with
  | zero => rfl
  | succ n ih => rw [rounds, writes_append, ih]; rfl

end

/-! ## Exactly -/

/-- A handler whose responses are empty. -/
def quiet : RequestCallback Unit := fun _ _ service => (some [], service)

theorem replyTo_quiet_ne (x : Platform) {message : Bytes} (h : message.length = IPC_READ_BUFFER - 1) :
    messageTooLargeText ≠ replyTo x quiet message () := by
  rw [replyTo, if_neg (by omega)]
  split
  · decide
  · show messageTooLargeText ≠ []
    decide

/-- Every message of a client gets its reply, whatever handles it and however
the client writes and reads, exactly if each is shorter than what `ReadFile`
may take. -/
theorem requests_answered_iff (x : Platform) {messages : List Bytes} (hmessages : ∀ message ∈ messages, message ≠ []) :
    (∀ (σ : Type) (callback : RequestCallback σ) (service : σ) (is : List (PipeInput σ)), writes is <+: messages →
      EveryAnswered x callback service is) ↔
    ∀ message ∈ messages, message.length < IPC_READ_BUFFER - 1 := by
  constructor
  · intro h message hmessage
    obtain ⟨before, after, rfl⟩ := List.append_of_mem hmessage
    -- The client writes up to this message, and then reads.
    let is : List (PipeInput Unit) := (before ++ [message]).map .write
    have hwrites : writes is = before ++ [message] := writes_map_write _
    have hpre : before ++ [message] <+: before ++ message :: after := ⟨after, by rw [List.append_assoc]; rfl⟩
    obtain ⟨n, hsettled⟩ := (h Unit quiet () is (hwrites ▸ hpre)).settles
    dsimp only at hsettled
    let rs := rounds x quiet n (run (pipeStep x quiet) is (.connected ()))
    have hall : writes (is ++ rs) = before ++ [message] := by rw [writes_append, writes_rounds, List.append_nil, hwrites]
    have hrun := h Unit quiet () (is ++ rs) (hall ▸ hpre)
    have horder := hrun.inOrder
    rw [run_append, hsettled, List.append_nil, hall] at horder
    have hmem : message ∈ (replies (trace (pipeStep x quiet) (is ++ rs) (.connected ()))).map (·.1) := by
      rw [horder]
      exact List.mem_append_right _ List.mem_cons_self
    obtain ⟨⟨request, reply⟩, hreply, rfl⟩ := List.mem_map.mp hmem
    obtain ⟨st, hst, hout⟩ := List.mem_filterMap.mp hreply
    rcases Handles.replied x quiet hst hout with hfits | ⟨hfull, htext⟩
    · exact hfits
    · exact absurd (htext ▸ hrun.replied st hst _ _ hout) (replyTo_quiet_ne x hfull)
  · intro hfits σ callback service is hwrites
    refine everyAnswered_of_fits x callback service fun message hm => ?_
    have hmem := hwrites.subset hm
    exact ⟨hmessages message hmem, hfits message hmem⟩

def Demo.usualRequests : List Bytes := [ascii "\x7b\"method\":\"get_stats\"\x7d", ascii "get_stats"]

theorem requests_answered_usual :
    (∀ message ∈ Demo.usualRequests, message.length < IPC_READ_BUFFER - 1) ∧
    ∀ (σ : Type) (callback : RequestCallback σ) (service : σ) (is : List (PipeInput σ)),
      writes is <+: Demo.usualRequests → EveryAnswered (Demo.platform [] []) callback service is := by
  have hfits : ∀ message ∈ Demo.usualRequests, message.length < IPC_READ_BUFFER - 1 := by decide
  exact ⟨hfits, (requests_answered_iff (Demo.platform [] []) (by decide)).mpr hfits⟩

/-- A message that the buffer does not take ends the session. -/
theorem not_everyAnswered_of_long (x : Platform) {message : Bytes} (hlong : IPC_READ_BUFFER - 1 < message.length) :
    ¬EveryAnswered x quiet () [.write message, .thread] := by
  intro h
  refine h.stays ?_
  simp [run, pipeStep, PipeSession.connected, PipeSession.step, hlong, PipeSession.disconnect]

theorem long_request_disconnects :
    ¬EveryAnswered (Demo.platform [] []) quiet () [.write (List.replicate 65536 32), .thread] := by
  refine not_everyAnswered_of_long _ ?_
  rw [List.length_replicate]
  decide

end TR.Impl.Service
