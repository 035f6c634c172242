import TcpRedirector.Impl.Gui.IpcClient
import TcpRedirector.Proof.Framework.Run
import TcpRedirector.Proof.Gui.Queries
import TcpRedirector.Proof.Service.PipeServer

/-!
# Responses and calls

The service answers the requests of a connection in order (`IpcInv.order`), and
`Call` takes what it reads for the response to its own. While nothing is left
of earlier calls when a request is written, this is true: what the call has
read are the first parts of that response (`IpcInv.own`).
-/

namespace TR.Impl.Gui

open Service (Platform RequestCallback PipeSession PipeThread)

section

variable {σ : Type}

abbrev IpcTrace (σ : Type) := List (StepOf (IpcConnection σ) (IpcInput σ) IpcOutput)

def IpcOutput.request? : IpcOutput → Option Bytes
  | .wrote request => some request
  | _ => none

def IpcOutput.answer? : IpcOutput → Option (Bytes × Bytes)
  | .answered request response => some (request, response)
  | _ => none

/-- The requests that the calls have written. -/
def written (tr : IpcTrace σ) : List Bytes := tr.filterMap (·.out.request?)

/-- The requests that the service has answered, with its responses. -/
def answered (tr : IpcTrace σ) : List (Bytes × Bytes) := tr.filterMap (·.out.answer?)

/-- The value `v` is that of the response to the last of the requests. -/
def Own (g : Runtime) (requests : List Bytes) (answers : List (Bytes × Bytes)) (v : Json) : Prop :=
  ∃ request response, requests.getLast? = some request ∧ answers[requests.length - 1]? = some (request, response) ∧
    g.parse response = some v

/-- Every value that a call returns is that of the response to its request,
which is the last one written before. -/
def Matched (g : Runtime) (tr : IpcTrace σ) : Prop :=
  ∀ pre st post v, tr = pre ++ st :: post → st.out = .returned (some v) → Own g (written pre) (answered pre) v

/-- The requests that have no response yet. -/
def pending (s : PipeSession σ) : List Bytes :=
  match s.thread with
  | .handling request => request :: s.requests
  | _ => s.requests

/-- Each part that a full buffer takes is in UTF-8: no character lies across two. -/
def Unsplit (response : Bytes) : Prop := ∀ k, Utf8 ((response.drop (bufLength * k)).take bufLength)

/-- A request is written when all earlier ones are answered and the responses
are read; a response splits no character. -/
def InTurn (st : StepOf (IpcConnection σ) (IpcInput σ) IpcOutput) : Prop :=
  match st.out with
  | .wrote _ => pending st.pre.session = [] ∧ st.pre.session.responses = []
  | .answered _ response => Unsplit response
  | _ => True

end

/-- What is used of .NET. -/
structure Runtime.ReadsText (g : Runtime) : Prop where
  decode_utf8 : ∀ cs, g.decode (encodeUtf8 cs) = encodeUtf16 cs
  /-- The text of an object ends where its brace is closed. -/
  parse_part : ∀ part text, part <+: text → part ≠ text → text.getLast? = some 125 → (g.parse text).isSome = true →
    g.parse part = none

/-- The text of an object. -/
def ObjectText (g : Runtime) (response : Bytes) : Prop := response.getLast? = some 125 ∧ (g.parse response).isSome = true

/-! ## What a call has read -/

section

variable {g : Runtime} {response : Bytes} {k : Nat}

theorem Runtime.ReadsText.decode_append (hg : g.ReadsText) {a b : Bytes} (ha : Utf8 a) (hb : Utf8 b) :
    g.decode (a ++ b) = g.decode a ++ g.decode b := by
  obtain ⟨cs, rfl⟩ := ha
  obtain ⟨ds, rfl⟩ := hb
  rw [← encodeUtf8, ← encodeUtf8, hg.decode_utf8, hg.decode_utf8, encodeUtf8, encodeUtf8, ← List.flatMap_append, ← encodeUtf8,
    hg.decode_utf8, encodeUtf16, List.flatMap_append]
  rfl

theorem Runtime.ReadsText.wideToUtf8_decode (hg : g.ReadsText) {b : Bytes} (hb : Utf8 b) : wideToUtf8 (g.decode b) = b := by
  obtain ⟨cs, rfl⟩ := hb
  rw [← encodeUtf8, hg.decode_utf8, wideToUtf8, decodeUtf16_encodeUtf16]

theorem take_succ_parts (b : Bytes) (k : Nat) :
    b.take (bufLength * (k + 1)) = b.take (bufLength * k) ++ (b.drop (bufLength * k)).take bufLength := by
  rw [Nat.mul_succ, List.take_add]

theorem Unsplit.utf8_take (h : Unsplit response) : Utf8 (response.take (bufLength * k)) := by
  induction k with
  | zero => exact ⟨[], rfl⟩
  | succ k ih =>
    rw [take_succ_parts]
    obtain ⟨cs, hcs⟩ := ih
    obtain ⟨ds, hds⟩ := h k
    exact ⟨cs ++ ds, by rw [hcs, hds, List.flatMap_append]⟩

theorem unsplit_of_le (hle : response.length ≤ bufLength) (h : Utf8 response) : Unsplit response := by
  intro k
  cases k with
  | zero => rwa [Nat.mul_zero, List.drop_zero, List.take_of_length_le hle]
  | succ k =>
    have hdrop : response.drop (bufLength * (k + 1)) = [] := by
      refine List.drop_of_length_le ?_
      rw [Nat.mul_succ]
      omega
    rw [hdrop]
    exact ⟨[], rfl⟩

/-- One more part. -/
theorem decode_part (hg : g.ReadsText) (h : Unsplit response) :
    g.decode (response.take (bufLength * k)) ++ g.decode ((response.drop (bufLength * k)).take bufLength) =
      g.decode (response.take (bufLength * (k + 1))) := by
  rw [take_succ_parts, hg.decode_append h.utf8_take (h k)]

theorem decode_nil (hg : g.ReadsText) : g.decode [] = [] := hg.decode_utf8 []

theorem callResult_textOrNull (g : Runtime) (text : WString) :
    callResult g (textOrNull text) = callResult g (some text) := by
  by_cases hempty : text.isEmpty = true <;> simp [textOrNull, callResult, hempty]

/-- What a call makes of the first parts is nothing, or the response's value. -/
theorem callResult_part (hg : g.ReadsText) (h : Unsplit response)
    (hfine : response.length < bufLength ∨ ObjectText g response)
    {v : Json} (hv : callResult g (textOrNull (g.decode (response.take (bufLength * k)))) = some v) :
    g.parse response = some v := by
  have hparse : g.parse (response.take (bufLength * k)) = some v := by
    by_cases hempty : (g.decode (response.take (bufLength * k))).isEmpty = true
    · simp [textOrNull, hempty, callResult] at hv
    · simpa [textOrNull, hempty, callResult, hg.wideToUtf8_decode h.utf8_take] using hv
  by_cases hall : response.take (bufLength * k) = response
  · rwa [hall] at hparse
  · have hk : k ≠ 0 := by
      rintro rfl
      have hnil : g.decode (response.take (bufLength * 0)) = [] := by rw [Nat.mul_zero, List.take_zero, decode_nil hg]
      rw [hnil] at hv
      cases hv
    have hlong : ¬response.length < bufLength := by
      intro hlt
      refine hall (List.take_of_length_le ?_)
      have : bufLength * 1 ≤ bufLength * k := Nat.mul_le_mul_left _ (by omega)
      omega
    obtain ⟨hlast, hsome⟩ := hfine.resolve_left hlong
    rw [hg.parse_part _ _ (List.take_prefix _ _) hall hlast hsome] at hparse
    cases hparse

end

/-! ## The thread of the service -/

/-- The responses of the callback are texts of objects. -/
def AnswersObjects {σ : Type} (g : Runtime) (callback : RequestCallback σ) : Prop :=
  ∀ method params s response s', callback method params s = (some response, s') → ObjectText g response

section

variable {σ : Type} {x : Platform} {g : Runtime} {callback : RequestCallback σ} {s s' : PipeSession σ}
  {out : Option (Bytes × Bytes)}

theorem respond_some (hcb : AnswersObjects g callback) {request response : Bytes} {service service' : σ}
    (h : PipeSession.respond x callback request service = (some response, service')) : ObjectText g response := by
  unfold PipeSession.respond at h
  split at h
  next => cases h
  next =>
    split at h
    next => exact hcb _ _ _ _ _ h
    next => cases h

/-- What the loop's step does: it disconnects, it writes the response to the
request that comes next, or it changes neither. -/
theorem step_cases (hcb : AnswersObjects g callback) (hstep : Service.ThreadStep x callback s s' out) :
    s' = s.disconnect ∧ out = none ∨
    (∃ request response, out = some (request, response) ∧ pending s = request :: pending s' ∧
      s'.responses = s.responses ++ response ∧ s.thread ≠ .disconnected ∧
      (response.length < bufLength ∨ ObjectText g response)) ∨
    out = none ∧ pending s' = pending s ∧ s'.responses = s.responses ∧
      (s'.thread = .disconnected ↔ s.thread = .disconnected) := by
  cases hstep with
  | waits => exact .inr (.inr ⟨rfl, rfl, rfl, .rfl⟩)
  | disconnects => exact .inl ⟨rfl, rfl⟩
  | tooLarge request requests hthread hrequests =>
    refine .inr (.inl ⟨request, _, rfl, ?_, rfl, by rw [hthread]; nofun, .inl (by decide)⟩)
    simp [pending, hthread, hrequests]
  | takes request requests hthread hrequests =>
    refine .inr (.inr ⟨rfl, ?_, rfl, by rw [hthread]; simp⟩)
    simp [pending, hthread, hrequests]
  | responds request response service hthread hrespond =>
    refine .inr (.inl ⟨request, response, rfl, ?_, rfl, by rw [hthread]; nofun, .inr (respond_some hcb hrespond)⟩)
    simp [pending, hthread]
  | fails request service hthread =>
    refine .inr (.inl ⟨request, _, rfl, ?_, rfl, by rw [hthread]; nofun, .inl (by decide)⟩)
    simp [pending, hthread]
  | flushed hthread =>
    refine .inr (.inr ⟨rfl, ?_, rfl, by rw [hthread]; simp⟩)
    simp [pending, hthread]

end

/-! ## The invariant -/

section

variable {σ : Type}

theorem written_concat (tr : IpcTrace σ) (st : StepOf (IpcConnection σ) (IpcInput σ) IpcOutput) :
    written (tr ++ [st]) = written tr ++ st.out.request?.toList := by
  rw [written, List.filterMap_append]
  cases h : st.out.request? <;> simp [written, h]

theorem answered_concat (tr : IpcTrace σ) (st : StepOf (IpcConnection σ) (IpcInput σ) IpcOutput) :
    answered (tr ++ [st]) = answered tr ++ st.out.answer?.toList := by
  rw [answered, List.filterMap_append]
  cases h : st.out.answer? <;> simp [answered, h]

/-- The response to the call's request is not written yet, or never will be. -/
structure Waiting (s : PipeSession σ) (requests : List Bytes) (answers : List (Bytes × Bytes)) (sb : WString) : Prop where
  count : answers.length + 1 = requests.length
  sb : sb = []
  responses : s.responses = []

/-- The call has read the first `k` parts of the response to its request. -/
structure Reading (g : Runtime) (s : PipeSession σ) (requests : List Bytes) (answers : List (Bytes × Bytes)) (sb : WString)
    (request response : Bytes) (k : Nat) : Prop where
  count : answers.length = requests.length
  newest : requests.getLast? = some request
  answer : answers.getLast? = some (request, response)
  unsplit : Unsplit response
  fine : response.length < bufLength ∨ ObjectText g response
  sb : sb = g.decode (response.take (bufLength * k))
  responses : s.responses = response.drop (bufLength * k) ∨ s.thread = .disconnected ∧ s.responses = []

structure IpcInv (g : Runtime) (s : IpcConnection σ) (requests : List Bytes) (answers : List (Bytes × Bytes)) : Prop where
  order : s.session.thread ≠ .disconnected → requests = answers.map (·.1) ++ pending s.session
  own : ∀ sb, s.caller = .reading sb → Waiting s.session requests answers sb ∨
    ∃ request response k, Reading g s.session requests answers sb request response k

variable {x : Platform} {g : Runtime} {callback : RequestCallback σ} {s : IpcConnection σ} {requests : List Bytes}
  {answers : List (Bytes × Bytes)}

theorem pending_concat (s : PipeSession σ) (req : Bytes) :
    pending { s with requests := s.requests ++ [req] } = pending s ++ [req] := by
  cases h : s.thread <;> simp [pending, h]

theorem IpcInv.connected (service : σ) : IpcInv g (.connected service) [] [] := ⟨fun _ => rfl, nofun⟩

theorem IpcInv.wrote (h : IpcInv g s requests answers) {req : Bytes} (hthread : s.session.thread ≠ .disconnected)
    (hpending : pending s.session = []) (hresponses : s.session.responses = []) :
    IpcInv g { session := { s.session with requests := s.session.requests ++ [req] }, caller := .reading [] }
      (requests ++ [req]) answers := by
  have horder := h.order hthread
  rw [hpending, List.append_nil] at horder
  refine ⟨fun _ => ?_, fun sb hsb => .inl ?_⟩
  · show requests ++ [req] = answers.map (·.1) ++ pending { s.session with requests := s.session.requests ++ [req] }
    rw [pending_concat, hpending, horder]
    rfl
  · cases hsb
    exact ⟨by rw [List.length_append, horder, List.length_map]; rfl, rfl, hresponses⟩

theorem Reading.own {s : PipeSession σ} {sb : WString} {request response : Bytes} {k : Nat}
    (h : Reading g s requests answers sb request response k) {v : Json} (hv : g.parse response = some v) :
    Own g requests answers v := by
  refine ⟨request, response, h.newest, ?_, hv⟩
  rw [← h.count, ← List.getLast?_eq_getElem?, h.answer]

/-- What the call returns when it reads no more. -/
theorem IpcInv.returned (hg : g.ReadsText) (h : IpcInv g s requests answers) {sb : WString} (hsb : s.caller = .reading sb)
    {v : Json} (hv : callResult g (textOrNull sb) = some v) : Own g requests answers v := by
  rcases h.own sb hsb with hwait | ⟨request, response, k, hread⟩
  · rw [hwait.sb] at hv
    cases hv
  · rw [hread.sb] at hv
    exact hread.own (callResult_part hg hread.unsplit hread.fine hv)

theorem IpcInv.idle (h : IpcInv g s requests answers) {responses : Bytes} :
    IpcInv g { session := { s.session with responses := responses }, caller := .idle } requests answers :=
  ⟨h.order, nofun⟩

/-- A read that is not left waiting. -/
theorem IpcInv.read (hg : g.ReadsText) (h : IpcInv g s requests answers) {sb : WString} (hsb : s.caller = .reading sb) :
    (∀ sb', afterRead g sb (s.session.responses.take bufLength) = .goesOn sb' →
      IpcInv g { session := { s.session with responses := s.session.responses.drop bufLength }, caller := .reading sb' }
        requests answers) ∧
    ∀ response v, afterRead g sb (s.session.responses.take bufLength) = .returns response →
      callResult g response = some v → Own g requests answers v := by
  by_cases hempty : s.session.responses = []
  · have hafter : afterRead g sb (s.session.responses.take bufLength) = .returns (textOrNull sb) := by
      rw [hempty]
      rfl
    rw [hafter]
    refine ⟨nofun, fun response v hresponse hv => ?_⟩
    cases hresponse
    exact h.returned hg hsb hv
  · rcases h.own sb hsb with hwait | ⟨request, response, k, hread⟩
    · exact absurd hwait.responses hempty
    · have hrest : s.session.responses = response.drop (bufLength * k) := hread.responses.resolve_right fun hd => hempty hd.2
      have hnonempty : ¬(s.session.responses.take bufLength).length = 0 := by
        rw [List.length_take]
        have hpos := List.length_pos_of_ne_nil hempty
        have hbuf : bufLength = 4096 := rfl
        omega
      have hsb' : sb ++ g.decode (s.session.responses.take bufLength) = g.decode (response.take (bufLength * (k + 1))) := by
        rw [hread.sb, hrest, decode_part hg hread.unsplit]
      simp only [afterRead, if_neg hnonempty, hsb']
      split
      next =>
        refine ⟨nofun, fun r v hr hv => ?_⟩
        cases hr
        rw [← callResult_textOrNull] at hv
        exact hread.own (callResult_part hg hread.unsplit hread.fine hv)
      next =>
        refine ⟨fun sb' hgoes => ?_, nofun⟩
        cases hgoes
        refine ⟨h.order, fun sb' hsb' => .inr ⟨request, response, k + 1, ?_⟩⟩
        cases hsb'
        refine ⟨hread.count, hread.newest, hread.answer, hread.unsplit, hread.fine, rfl, .inl ?_⟩
        show s.session.responses.drop bufLength = _
        rw [hrest, List.drop_drop, Nat.mul_succ]

theorem IpcInv.disconnect (h : IpcInv g s requests answers) :
    IpcInv g { s with session := s.session.disconnect } requests answers := by
  refine ⟨fun hne => absurd rfl hne, fun sb hsb => ?_⟩
  rcases h.own sb hsb with hwait | ⟨request, response, k, hread⟩
  · exact .inl ⟨hwait.count, hwait.sb, rfl⟩
  · exact .inr ⟨request, response, k, hread.count, hread.newest, hread.answer, hread.unsplit, hread.fine, hread.sb,
      .inr ⟨rfl, rfl⟩⟩

/-- The session changes neither the requests without a response nor what is there to read. -/
theorem IpcInv.keep (h : IpcInv g s requests answers) {session : PipeSession σ}
    (hpending : pending session = pending s.session)
    (hresponses : session.responses = s.session.responses)
    (hthread : session.thread = .disconnected ↔ s.session.thread = .disconnected) :
    IpcInv g { s with session := session } requests answers := by
  refine ⟨fun hne => ?_, fun sb hsb => ?_⟩
  · show requests = answers.map (·.1) ++ pending session
    rw [hpending]
    exact h.order (mt hthread.mpr hne)
  · rcases h.own sb hsb with hwait | ⟨request, response, k, hread⟩
    · exact .inl ⟨hwait.count, hwait.sb, hresponses.trans hwait.responses⟩
    · refine .inr ⟨request, response, k, hread.count, hread.newest, hread.answer, hread.unsplit, hread.fine, hread.sb, ?_⟩
      show session.responses = _ ∨ session.thread = _ ∧ session.responses = _
      rw [hresponses, hthread]
      exact hread.responses

/-- The service writes the response to the next request: it is the call's, if a call waits for one. -/
theorem IpcInv.answer (hg : g.ReadsText) (h : IpcInv g s requests answers) {session : PipeSession σ}
    {request response : Bytes}
    (hpending : pending s.session = request :: pending session)
    (hresponses : session.responses = s.session.responses ++ response)
    (hthread : s.session.thread ≠ .disconnected) (hfine : response.length < bufLength ∨ ObjectText g response)
    (hunsplit : Unsplit response) :
    IpcInv g { s with session := session } requests (answers ++ [(request, response)]) := by
  have horder : requests = answers.map (·.1) ++ request :: pending session := by rw [← hpending, h.order hthread]
  have hlength : requests.length = answers.length + (pending session).length + 1 := by
    rw [horder, List.length_append, List.length_map, List.length_cons]
    omega
  refine ⟨fun _ => ?_, fun sb hsb => ?_⟩
  · show requests = (answers ++ [(request, response)]).map (·.1) ++ pending session
    rw [horder, List.map_append, List.append_assoc]
    rfl
  · rcases h.own sb hsb with hwait | ⟨request', response', k, hread⟩
    · have hnil : pending session = [] := by
        have hcount := hwait.count
        exact List.length_eq_zero_iff.mp (by omega)
      refine .inr ⟨request, response, 0, ?_, ?_, ?_, hunsplit, hfine, ?_, .inl ?_⟩
      · rw [List.length_append, ← hwait.count]
        rfl
      · rw [horder, hnil, List.getLast?_append]
        rfl
      · rw [List.getLast?_append]
        rfl
      · rw [hwait.sb, Nat.mul_zero, List.take_zero, decode_nil hg]
      · show session.responses = _
        rw [hresponses, hwait.responses]
        rfl
    · have hcount := hread.count
      omega

/-- What is to be shown of a step's result. -/
structure Kept (g : Runtime) (requests : List Bytes) (answers : List (Bytes × Bytes)) (r : IpcConnection σ × IpcOutput) :
    Prop where
  inv : IpcInv g r.1 (requests ++ r.2.request?.toList) (answers ++ r.2.answer?.toList)
  returned : ∀ v, r.2 = .returned (some v) → Own g requests answers v

theorem IpcInv.kept_nothing (h : IpcInv g s requests answers) : Kept g requests answers (s, .nothing) :=
  ⟨by simpa [IpcOutput.request?, IpcOutput.answer?] using h, nofun⟩

theorem IpcInv.kept_returned (h : IpcInv g s requests answers) {result : Option Json}
    (hresult : ∀ v, result = some v → Own g requests answers v) : Kept g requests answers (s, .returned result) :=
  ⟨by simpa [IpcOutput.request?, IpcOutput.answer?] using h, fun v hv => hresult v (by cases hv; rfl)⟩

/-- One step in turn. -/
theorem kept_step (hg : g.ReadsText) (hcb : AnswersObjects g callback) (i : IpcInput σ) (h : IpcInv g s requests answers)
    (hturn : InTurn (stepOf (ipcStep x g callback) i s)) : Kept g requests answers (ipcStep x g callback i s) := by
  cases i with
  | call id method params =>
    simp only [InTurn, stepOf, ipcStep] at hturn
    simp only [ipcStep]
    split
    next => exact h.kept_nothing
    next hidle =>
      rw [hidle] at hturn
      by_cases hthread : s.session.thread = .disconnected
      · rw [if_pos hthread]
        exact h.kept_returned fun _ hv => by cases hv
      · simp only [if_neg hthread] at hturn ⊢
        refine ⟨?_, fun _ hv => by cases hv⟩
        show IpcInv g _ (requests ++ [_]) (answers ++ [])
        rw [List.append_nil]
        exact h.wrote hthread hturn.1 hturn.2
  | read =>
    simp only [ipcStep]
    split
    next => exact h.kept_nothing
    next sb hsb =>
      obtain ⟨hgoes, hreturns⟩ := h.read hg hsb
      split
      next => exact h.kept_nothing
      next =>
        split
        next sb' hafter => exact (hgoes sb' hafter).kept_nothing
        next response hafter => exact h.idle.kept_returned fun v hv => hreturns response v hafter hv
  | cancel =>
    simp only [ipcStep]
    split
    next => exact h.kept_nothing
    next sb hsb =>
      have hidle : IpcInv g { s with caller := .idle } requests answers := h.idle
      exact hidle.kept_returned fun v hv => h.returned hg hsb hv
  | server =>
    obtain ⟨session, out, hstep⟩ : ∃ session out, s.session.step x callback = (session, out) := ⟨_, _, rfl⟩
    have hcases := step_cases hcb (Service.threadStep_step x callback s.session)
    simp only [hstep] at hcases
    simp only [InTurn, stepOf, ipcStep, hstep] at hturn
    simp only [ipcStep, hstep]
    rcases hcases with ⟨hsession, hout⟩ | ⟨request, response, hout, hpending, hresponses, hthread, hfine⟩ |
      ⟨hout, hpending, hresponses, hthread⟩
    · rw [hsession, hout]
      exact h.disconnect.kept_nothing
    · rw [hout] at hturn ⊢
      refine ⟨?_, fun _ hv => by cases hv⟩
      show IpcInv g _ (requests ++ []) (answers ++ [_])
      rw [List.append_nil]
      exact h.answer hg hpending hresponses hthread hfine hturn
    · rw [hout]
      exact (h.keep hpending hresponses hthread).kept_nothing
  | stop =>
    simp only [ipcStep, PipeSession.stop]
    split
    next => exact h.kept_nothing
    next => exact h.disconnect.kept_nothing
  | service service =>
    have hkeep : IpcInv g { s with session := { s.session with service := service } } requests answers := h.keep rfl rfl .rfl
    exact hkeep.kept_nothing

/-- In a run whose steps are all in turn, every call that returns a value
returns that of the response to its own request. -/
theorem response_matches (x : Platform) (g : Runtime) (hg : g.ReadsText) (callback : RequestCallback σ)
    (hcb : AnswersObjects g callback) (service : σ) (inputs : List (IpcInput σ))
    (h : ∀ st ∈ trace (ipcStep x g callback) inputs (.connected service), InTurn st) :
    Matched g (trace (ipcStep x g callback) inputs (.connected service)) := by
  have hstep (i : IpcInput σ) (s : IpcConnection σ) (tr : IpcTrace σ)
      (ih : (∀ st ∈ tr, InTurn st) → IpcInv g s (written tr) (answered tr) ∧ Matched g tr)
      (hturn : ∀ st ∈ tr ++ [stepOf (ipcStep x g callback) i s], InTurn st) :
      IpcInv g (ipcStep x g callback i s).1 (written (tr ++ [stepOf (ipcStep x g callback) i s]))
        (answered (tr ++ [stepOf (ipcStep x g callback) i s])) ∧
      Matched g (tr ++ [stepOf (ipcStep x g callback) i s]) := by
    obtain ⟨hinv, hmatched⟩ := ih fun st hst => hturn st (List.mem_append_left _ hst)
    have hkept := kept_step hg hcb i hinv (hturn _ (List.mem_append_right _ List.mem_cons_self))
    refine ⟨?_, fun pre st post v htr hv => ?_⟩
    · rw [written_concat, answered_concat]
      exact hkept.inv
    · rcases concat_eq_append_cons htr with ⟨-, rfl, rfl⟩ | ⟨post', -, htr'⟩
      · exact hkept.returned v hv
      · exact hmatched pre st post' v htr' hv
  exact (history_induct hstep inputs (fun _ => ⟨.connected service,
    fun pre st post v htr => by cases pre <;> cases htr⟩) h).2

end

/-! ## The callback of the service -/

/-- The callback of `SetupIpcHandlers`, for the queries. -/
def queryCallback (x : Platform) : RequestCallback Service.ServiceMain := fun method _ s =>
  match Service.onRequest x s method with
  | .ok (response, s) => (response, s)
  | .error _ => (none, s)

theorem handleQuery_object {x : Platform} {s s' : Service.ServiceMain} {method : Bytes} {j : Json}
    (h : Service.handleQuery x s method = some (j, s')) : ∃ l, j = .object l := by
  unfold Service.handleQuery at h
  repeat' split at h
  all_goals
    cases h
    try exact ⟨_, rfl⟩

/-- It answers objects if `dump` does. -/
theorem queryCallback_answersObjects {x : Platform} {g : Runtime} (hping : ObjectText g Service.pingText)
    (hversion : ObjectText g Service.versionText) (hdump : ∀ l b, x.dump (.object l) = .ok b → ObjectText g b) :
    AnswersObjects g (queryCallback x) := by
  have hmap {j : Json} {response : Bytes} {s₁ s' : Service.ServiceMain} (hobject : ∃ l, j = .object l)
      (h : ((x.dump j).map fun b => (some b, s₁)) = .ok (some response, s')) : ObjectText g response := by
    obtain ⟨l, rfl⟩ := hobject
    cases hb : x.dump (.object l) with
    | ok b =>
      rw [hb] at h
      cases h
      exact hdump l _ hb
    | error e =>
      rw [hb] at h
      cases h
  intro method params s response s' h
  have honRequest : Service.onRequest x s method = .ok (some response, s') := by
    unfold queryCallback at h
    split at h
    next hok =>
      cases h
      exact hok
    next => cases h
  unfold Service.onRequest at honRequest
  split at honRequest
  · cases honRequest
    exact hping
  · split at honRequest
    · cases honRequest
      exact hversion
    · split at honRequest
      · exact hmap ⟨_, rfl⟩ honRequest
      · split at honRequest
        next => cases honRequest
        next result s₁ hquery => exact hmap (handleQuery_object hquery) honRequest

namespace Demo

/-- .NET: the texts of the two replies. -/
def ipcRuntime : Runtime where
  parse b := literals.lookup b
  serialize := Json.compact
  decode := utf8ToWide fun b => b.map fun _ => 0xFFFD
  toLowerInvariant s := s.map fun u => if 65 ≤ u.toNat ∧ u.toNat ≤ 90 then u + 32 else u

/-- The requests of two calls. -/
def pingRequest : Json := envelope ipcRuntime (literal "6d1e") "ping" (.object [])

def versionRequest : Json := envelope ipcRuntime (literal "b7a3") "get_version" (.object [])

/-- The service, which is asked these two. -/
def ipcPlatform : Platform where
  parse b := (([pingRequest, versionRequest].find? fun j => j.compact == b).map Except.ok).getD
    (.error (ascii "[json.exception.parse_error.101] parse error"))
  dump _ := .error (ascii "[json.exception.type_error.316] invalid UTF-8 byte")
  toInt bits := bits.setWidth 32
  toUInt64 bits := bits
  read _ := .error (ascii "[json.exception.parse_error.101] parse error")
  dump4 j := .ok (j.indented 0)
  toUInt16 bits := bits.setWidth 16
  illFormed b := b.map fun _ => 0xFFFD
  protect _ b := some (1 :: b)
  unprotect b := b.tail?
  sort l := l.mergeSort fun r s => r.priority.toInt ≤ s.priority.toInt

def ipcTrace (inputs : List (IpcInput Service.ServiceMain)) : IpcTrace Service.ServiceMain :=
  trace (ipcStep ipcPlatform ipcRuntime (queryCallback ipcPlatform)) inputs (.connected (querying .empty))

def callPing : IpcInput Service.ServiceMain := .call (literal "6d1e") "ping" (.object [])

def callVersion : IpcInput Service.ServiceMain := .call (literal "b7a3") "get_version" (.object [])

/-- Two calls, each with its response in time. -/
def inTime : List (IpcInput Service.ServiceMain) :=
  [callPing, .server, .server, .read, .server, callVersion, .server, .server, .read]

/-- The response to the first call comes after it was given up. -/
def tooLate : List (IpcInput Service.ServiceMain) := [callPing, .cancel, callVersion, .server, .server, .read]

theorem ipcRuntime_readsText : ipcRuntime.ReadsText where
  decode_utf8 cs := by simp only [ipcRuntime, utf8ToWide, decodeUtf8_encodeUtf8]
  parse_part part text hpart hne _ htext := by
    have hkeys {b : Bytes} (h : (ipcRuntime.parse b).isSome = true) : b ∈ literals.map (·.1) := by
      obtain ⟨v, hv⟩ := Option.isSome_iff_exists.mp h
      obtain ⟨l₁, l₂, hl, -⟩ := List.lookup_eq_some_iff.mp hv
      rw [hl]
      simp
    have hliterals : ∀ p ∈ literals.map (·.1), ∀ t ∈ literals.map (·.1), p.isPrefixOf t = true → p = t := by
      decide +kernel
    rw [← Option.not_isSome_iff_eq_none]
    exact fun h => hne (hliterals _ (hkeys h) _ (hkeys htext) (List.isPrefixOf_iff_prefix.mpr hpart))

theorem queryCallback_ipcPlatform : AnswersObjects ipcRuntime (queryCallback ipcPlatform) :=
  queryCallback_answersObjects ⟨by decide, by decide⟩ ⟨by decide, by decide⟩ nofun

/-- What is checked of each step. -/
def onTime (st : StepOf (IpcConnection Service.ServiceMain) (IpcInput Service.ServiceMain) IpcOutput) : Bool :=
  match st.out with
  | .wrote _ => (pending st.pre.session).isEmpty && st.pre.session.responses.isEmpty
  | .answered _ response => response == Service.pingText || response == Service.versionText
  | _ => true

theorem inTurn_of_onTime {st : StepOf (IpcConnection Service.ServiceMain) (IpcInput Service.ServiceMain) IpcOutput}
    (h : onTime st = true) : InTurn st := by
  have hping : Unsplit Service.pingText := unsplit_of_le (by decide) (utf8_ascii (by decide))
  have hversion : Unsplit Service.versionText := unsplit_of_le (by decide) (utf8_ascii (by decide))
  unfold onTime at h
  unfold InTurn
  split
  next hout => simpa [hout] using h
  next hout =>
    rw [hout] at h
    rcases Bool.or_eq_true _ _ ▸ h with h | h
    · exact eq_of_beq h ▸ hping
    · exact eq_of_beq h ▸ hversion
  next => trivial

end Demo

/-- Two calls in time. -/
theorem response_matches_inTime : Matched Demo.ipcRuntime (Demo.ipcTrace Demo.inTime) ∧
    (Demo.ipcTrace Demo.inTime)[3]?.map (·.out) = some (.returned (some pingJson)) ∧
    (Demo.ipcTrace Demo.inTime)[8]?.map (·.out) = some (.returned (some versionJson)) := by
  have hturn : (Demo.ipcTrace Demo.inTime).all Demo.onTime = true := by decide +kernel
  refine ⟨response_matches Demo.ipcPlatform Demo.ipcRuntime Demo.ipcRuntime_readsText _ Demo.queryCallback_ipcPlatform
    (Demo.querying .empty) Demo.inTime fun st hst => Demo.inTurn_of_onTime (List.all_eq_true.mp hturn st hst), ?_, ?_⟩
  · rfl
  · rfl

/-- A call returns the value of the response to the call before it, and its own request is not answered yet. -/
theorem call_returns_earlier :
    ∃ pre st, Demo.ipcTrace Demo.tooLate = pre ++ [st] ∧ st.out = .returned (some pingJson) ∧
      written pre = [Demo.pingRequest.compact, Demo.versionRequest.compact] ∧
      answered pre = [(Demo.pingRequest.compact, Service.pingText)] ∧
      ¬Matched Demo.ipcRuntime (Demo.ipcTrace Demo.tooLate) := by
  have hsplit : Demo.ipcTrace Demo.tooLate = _ := trace_concat [Demo.callPing, .cancel, Demo.callVersion, .server,
    .server] .read _
  have hreturned : (stepOf (ipcStep Demo.ipcPlatform Demo.ipcRuntime (queryCallback Demo.ipcPlatform)) .read
      (run (ipcStep Demo.ipcPlatform Demo.ipcRuntime (queryCallback Demo.ipcPlatform))
        [Demo.callPing, .cancel, Demo.callVersion, .server, .server] (.connected (Demo.querying .empty)))).out =
      .returned (some pingJson) := rfl
  have hwritten : written (Demo.ipcTrace [Demo.callPing, .cancel, Demo.callVersion, .server, .server]) =
      [Demo.pingRequest.compact, Demo.versionRequest.compact] := by decide +kernel
  have hanswered : answered (Demo.ipcTrace [Demo.callPing, .cancel, Demo.callVersion, .server, .server]) =
      [(Demo.pingRequest.compact, Service.pingText)] := by decide +kernel
  refine ⟨_, _, hsplit, hreturned, hwritten, hanswered, fun hmatched => ?_⟩
  obtain ⟨request, response, -, hanswer, -⟩ := hmatched _ _ [] _ hsplit hreturned
  rw [← Demo.ipcTrace, hwritten, hanswered] at hanswer
  cases hanswer

end TR.Impl.Gui
