import TcpRedirector.Impl.Auth.AuthAgent
import TcpRedirector.Impl.Auth.KerberosAgentProvider
import TcpRedirector.Proof.Framework.Json
import TcpRedirector.Proof.Framework.Prog

/-!
# The agent's responses

A request is answered, by one response with its id, if and only if nothing is
thrown before the `try` of `HandleRequest` and nothing undefined happens in it
(`agent_answers_iff`). The first fails for every id but null: the default of
`value("id", nullptr)` makes it convert the id to null. So no request of the
service is answered (`agent_drops_hello`).
-/

namespace TR.Impl

open Json (ThrowsUtf8 lookup)

/-! ## What is thrown, and what is undefined -/

/-- The request has these parameters, and if they are an object, it satisfies `P`. -/
def HasParams (l : List (Bytes × Json)) (P : List (Bytes × Json) → Prop) : Prop :=
  ∃ params, lookup (ascii "params") l = some params ∧ ∀ m, params = .object m → P m

def HasKey (key : String) (l : List (Bytes × Json)) : Prop := ∃ v, lookup (ascii key) l = some v

def IsNumber : Json → Prop
  | .unsigned _ | .integer _ | .float _ => True
  | _ => False

/-- The keys that the method looks up are there. -/
def ParamsPresent (method : Bytes) (l : List (Bytes × Json)) : Prop :=
  if method = ascii "hello" then HasParams l fun _ => True
  else if method = ascii "ping" then True
  else if method = ascii "create_context" then HasParams l (HasKey "spn")
  else if method = ascii "continue_context" then
    HasParams l fun m => ∃ id, lookup (ascii "context_id") m = some id ∧ (IsNumber id → HasKey "challenge" m)
  else if method = ascii "close_context" then HasParams l (HasKey "context_id")
  else True

section

variable {x : JsonText} {l : List (Bytes × Json)} {α : Type}

/-- A const `operator[]`, and what is done with the entry. -/
theorem constIndex_bind_undefined {j : Json} {key : String} {f : Json → Except JsonFault α} :
    (j.constIndex key >>= f) = .error .undefined ↔
      ∃ m, j = .object m ∧ ∀ v, lookup (ascii key) m = some v → f v = .error .undefined := by
  cases j with
  | object m =>
    dsimp only [Json.constIndex]
    cases h : lookup (ascii key) m with
    | none => exact iff_of_true rfl ⟨m, rfl, fun v hv => by rw [h] at hv; cases hv⟩
    | some v =>
      constructor
      · intro hf
        refine ⟨m, rfl, fun v' hv => ?_⟩
        cases h.symm.trans hv
        exact hf
      · rintro ⟨m', hm, hf⟩
        cases hm
        exact hf v h
  | _ => exact iff_of_false nofun (by rintro ⟨m, ⟨⟩, -⟩)

theorem params_undefined_iff {f : Json → Except JsonFault α} {P : List (Bytes × Json) → Prop}
    (hf : ∀ j, f j = .error .undefined ↔ ∃ m, j = .object m ∧ ¬P m) :
    ((Json.object l).constIndex "params" >>= f) = .error .undefined ↔ ¬HasParams l P := by
  rw [constIndex_bind_undefined]
  unfold HasParams
  push Not
  constructor
  · rintro ⟨m, hm, h⟩ params hp
    cases hm
    exact (hf params).mp (h params hp)
  · intro h
    exact ⟨l, rfl, fun params hp => (hf params).mpr (h params hp)⟩

/-- A conversion only throws. -/
theorem key_undefined_iff {j : Json} {key : String} {get : Json → Except JsonFault α}
    (hget : ∀ v, get v ≠ .error .undefined) :
    (j.constIndex key >>= get) = .error .undefined ↔ ∃ m, j = .object m ∧ ¬HasKey key m := by
  rw [constIndex_bind_undefined]
  refine exists_congr fun m => and_congr_right fun _ => ?_
  constructor
  · rintro h ⟨v, hv⟩
    exact hget v (h v hv)
  · intro h v hv
    exact absurd ⟨v, hv⟩ h

theorem getString_ne_undefined (j : Json) : j.getString ≠ .error .undefined := by
  cases j <;> nofun

theorem getUInt64_ne_undefined (j : Json) : j.getUInt64 x.toUInt64 ≠ .error .undefined := by
  cases j <;> nofun

theorem getInt_ne_undefined (j : Json) : j.getInt x.toInt ≠ .error .undefined := by
  cases j <;> nofun

theorem value_ne_undefined {get : Json → Except JsonFault α} (hget : ∀ v, get v ≠ .error .undefined) (j : Json)
    (key : String) (d : α) : j.value get key d ≠ .error .undefined := by
  cases j with
  | object m =>
    dsimp only [Json.value]
    split
    · exact hget _
    · nofun
  | _ => nofun

/-- The two parameters of `continue_context`. -/
theorem continue_undefined_iff (j : Json) :
    (do
      let contextId ← (← j.constIndex "context_id").getUInt64 x.toUInt64
      let challenge ← (← j.constIndex "challenge").getString
      pure (contextId, challenge)) = .error .undefined ↔
      ∃ m, j = .object m ∧ ¬∃ id, lookup (ascii "context_id") m = some id ∧ (IsNumber id → HasKey "challenge" m) := by
  rw [constIndex_bind_undefined]
  refine exists_congr fun m => and_congr_right fun hj => ?_
  subst hj
  push Not
  refine forall_congr' fun id => imp_congr_right fun _ => ?_
  have hchallenge : ∀ n : BitVec 64, ((Json.object m).constIndex "challenge" >>= fun c => do
      let challenge ← c.getString
      pure (n, challenge)) = .error .undefined ↔ ¬HasKey "challenge" m := by
    intro n
    rw [key_undefined_iff fun v => by cases v <;> nofun]
    exact ⟨fun ⟨m', hm, h⟩ => by cases hm; exact h, fun h => ⟨m, rfl, h⟩⟩
  cases id with
  | unsigned n | integer n => exact (hchallenge n).trans ⟨fun h => ⟨trivial, h⟩, fun h => h.2⟩
  | float bits => exact (hchallenge _).trans ⟨fun h => ⟨trivial, h⟩, fun h => h.2⟩
  | _ => exact iff_of_false nofun fun h => h.1

end

/-! ## Programs that write nothing -/

/-- Refuses a message to the client. -/
def noWrite (_ : Unit) : (c : AgentCall) → c.Resp → Option Unit
  | .writeFile _, _ => none
  | _, _ => some ()

/-- Whatever the answers, the program writes nothing and returns a value that satisfies `Q`. -/
def Yields {α : Type} (Q : α → Prop) (p : AgentProg α) : Prop := WP noWrite (fun _ r => ∃ a, r = some a ∧ Q a) p ()

section

variable {α β : Type} {P : β → Prop} {Q Q' : α → Prop}

theorem yields_pure {a : α} (h : Q a) : Yields Q (pure a) := ⟨a, rfl, h⟩

theorem Yields.mono {p : AgentProg α} (h : Yields Q p) (hQ : ∀ a, Q a → Q' a) : Yields Q' p :=
  WP.mono h fun _ _ ⟨a, hr, ha⟩ => ⟨a, hr, hQ a ha⟩

theorem Yields.bind {p : AgentProg β} {f : β → AgentProg α} (hp : Yields P p) (hf : ∀ b, P b → Yields Q (f b)) :
    Yields Q (p >>= f) := by
  refine WP_bind.mpr (WP.mono hp ?_)
  rintro ⟨⟩ _ ⟨b, rfl, hb⟩
  exact hf b hb

theorem yields_call {c : AgentCall} {k : c.Resp → AgentProg α} (hc : ∀ msg, c ≠ .writeFile msg) (h : ∀ r, Yields Q (k r)) :
    Yields Q (.call c k) := by
  intro r
  refine ⟨(), ?_, h r⟩
  cases c with
  | writeFile msg => exact absurd rfl (hc msg)
  | _ => rfl

end

/-! ## The replies are UTF-8 -/

def Reply.Utf8 : Reply → Prop
  | .result j => j.Utf8
  | .error _ message => TR.Utf8 message

namespace SspiEngine

theorem digit_lt (i : Byte) : (digit i).toNat < 128 := by
  have h : ∀ i : Fin 256, (digit (BitVec.ofFin i)).toNat < 128 := by decide +kernel
  exact h i.toFin

theorem utf8_base64Encode (data : Bytes) : TR.Utf8 (base64Encode data) := by
  refine utf8_of_lt fun b hb => ?_
  fun_induction base64Encode data with
  | case1 a b c data ih =>
    simp only [List.mem_cons] at hb
    rcases hb with rfl | rfl | rfl | rfl | hb
    · exact digit_lt _
    · exact digit_lt _
    · exact digit_lt _
    · exact digit_lt _
    · exact ih hb
  | case2 a b =>
    simp only [List.mem_cons, List.not_mem_nil, or_false] at hb
    rcases hb with rfl | rfl | rfl | rfl
    · exact digit_lt _
    · exact digit_lt _
    · exact digit_lt _
    · decide
  | case3 a =>
    simp only [List.mem_cons, List.not_mem_nil, or_false] at hb
    rcases hb with rfl | rfl | rfl | rfl
    · exact digit_lt _
    · exact digit_lt _
    · decide
    · decide
  | case4 => cases hb

theorem utf8_sspiErrorText (sc : Status) : TR.Utf8 (sspiErrorText sc) := by
  have hlit : ∀ s, TR.Utf8 (utf8 s) := fun s => ⟨s.toList, rfl⟩
  have hhex : TR.Utf8 (ascii "0x" ++ hex8 sc) := by
    refine (utf8_ascii (by decide)).append (utf8_of_lt fun b hb => ?_)
    obtain ⟨i, -, rfl⟩ := List.mem_map.mp hb
    have h : ∀ n : Fin 16, (hexDigit n).toNat < 128 := by decide +kernel
    exact h (sc.extractLsb' (4 * i) 4).toFin
  unfold sspiErrorText
  split_ifs
  all_goals first | exact hlit _ | exact hhex

theorem yields_complete (sc : Status) (context : CtxtHandle) : Yields (fun _ => True) (complete sc context) := by
  unfold complete
  split
  · exact yields_call nofun fun _ => yields_pure trivial
  · exact yields_pure trivial

/-- A step succeeds with a token, or there is a message. -/
theorem yields_createContext (spn : Bytes) :
    Yields (fun r => match r with | .ok y => TR.Utf8 y.1.token | .error what => TR.Utf8 what) (createContext spn) := by
  refine yields_call nofun fun (r : Except Status CredHandle) => ?_
  cases r with
  | error sc => exact yields_pure ((utf8_ascii (by decide)).append (utf8_sspiErrorText sc))
  | ok credentials =>
    refine yields_call nofun fun (sc, context, token) => ?_
    refine (yields_complete sc context).bind fun _ _ => ?_
    split
    · exact yields_pure (utf8_base64Encode token)
    · refine yields_call nofun fun _ => ?_
      exact yields_pure ((utf8_ascii (by decide)).append (utf8_sspiErrorText sc))

theorem yields_continueContext (context : CtxtHandle) (challenge : Bytes) :
    Yields (fun r => match r with | .ok y => TR.Utf8 y.token | .error what => TR.Utf8 what)
      (continueContext context challenge) := by
  refine yields_call nofun fun (sc, token) => ?_
  refine (yields_complete sc context).bind fun _ _ => ?_
  split
  · exact yields_pure (utf8_base64Encode token)
  · exact yields_pure ((utf8_ascii (by decide)).append (utf8_sspiErrorText sc))

end SspiEngine

theorem yields_createContextReply (spn : Bytes) : Yields Reply.Utf8 (createContextReply spn) := by
  refine (SspiEngine.yields_createContext spn).bind fun r hr => ?_
  match r, hr with
  | .error what, hr => exact yields_pure hr
  | .ok (step, credentials, context), hr =>
    refine yields_call nofun fun (contextId : BitVec 64) => yields_pure ?_
    exact ((Json.Utf8.null.set (by decide) .unsigned).set (by decide) (.string hr)).set (by decide) .boolean

theorem yields_continueContextReply (contextId : BitVec 64) (challenge : Bytes) :
    Yields Reply.Utf8 (continueContextReply contextId challenge) := by
  refine yields_call nofun fun (r : Option CtxtHandle) => ?_
  cases r with
  | none =>
    exact yields_pure (((utf8_ascii (by decide)).append (utf8_decimal _)).append (utf8_ascii (by decide)))
  | some context =>
    refine (SspiEngine.yields_continueContext context challenge).bind fun r hr => ?_
    match r, hr with
    | .error what, hr => exact yields_call nofun fun _ => yields_pure hr
    | .ok step, hr =>
      have hreply : Reply.Utf8 (.result
          ((Json.null.set "token" (.string step.token)).set "continue" (.boolean step.needsContinue))) :=
        (Json.Utf8.null.set (by decide) (.string hr)).set (by decide) .boolean
      dsimp only
      split
      · exact yields_pure hreply
      · exact yields_call nofun fun _ => yields_pure hreply

/-! ## HandleRequest -/

/-- What comes out of the `try`: nothing undefined if the parameters are there,
and no text that is not UTF-8. -/
def TryEnds (present : Prop) : Except JsonFault Reply → Prop
  | .ok reply => present ∧ reply.Utf8
  | .error (.exception what) => present ∧ TR.Utf8 what
  | .error .undefined => ¬present

section

variable {x : JsonText} {l : List (Bytes × Json)}

theorem yields_withParams {α : Type} {params : Except JsonFault α} {run : α → AgentProg Reply} {present : Prop}
    (hu : params = .error .undefined ↔ ¬present) (ht : ThrowsUtf8 params) (hrun : ∀ a, Yields Reply.Utf8 (run a)) :
    Yields (TryEnds present) (withParams params run) := by
  have hpresent : params ≠ .error .undefined → present := fun h => not_not.mp fun hn => h (hu.mpr hn)
  match params, hu, ht, hpresent with
  | .ok a, hu, ht, hpresent => exact (hrun a).bind fun reply hr => yields_pure ⟨hpresent nofun, hr⟩
  | .error (.exception what), hu, ht, hpresent => exact yields_pure ⟨hpresent nofun, ht what rfl⟩
  | .error .undefined, hu, ht, hpresent => exact yields_pure (hu.mp rfl)

theorem yields_dispatch {method : Bytes} (hm : TR.Utf8 method) :
    Yields (TryEnds (ParamsPresent method l)) (dispatch x method (.object l)) := by
  unfold dispatch ParamsPresent
  split_ifs
  · refine yields_withParams (params_undefined_iff fun j => ?_) ?_ fun _ => yields_pure ?_
    · refine iff_of_false (value_ne_undefined getInt_ne_undefined j _ _) ?_
      rintro ⟨m, -, h⟩
      exact h trivial
    · exact (Json.throwsUtf8_constIndex _ _).bind fun params => Json.throwsUtf8_value (Json.throwsUtf8_getInt _) params _ _
    · exact (Json.Utf8.null.set (by decide) .integer).set (by decide) (.string (utf8_ascii (by decide)))
  · exact yields_pure ⟨trivial, Json.Utf8.null.set (by decide) .boolean⟩
  · refine yields_withParams (params_undefined_iff fun j => key_undefined_iff getString_ne_undefined) ?_
      yields_createContextReply
    refine (Json.throwsUtf8_constIndex _ _).bind fun params => ?_
    exact (Json.throwsUtf8_constIndex _ _).bind Json.throwsUtf8_getString
  · refine yields_withParams (params_undefined_iff continue_undefined_iff) ?_
      fun y => yields_continueContextReply y.1 y.2
    refine (Json.throwsUtf8_constIndex _ _).bind fun params => ?_
    refine (Json.throwsUtf8_constIndex _ _).bind fun j => ?_
    refine (Json.throwsUtf8_getUInt64 _ j).bind fun contextId => ?_
    refine (Json.throwsUtf8_constIndex _ _).bind fun j => ?_
    exact (Json.throwsUtf8_getString j).bind fun challenge => Json.throwsUtf8_ok _
  · refine yields_withParams (params_undefined_iff fun j => key_undefined_iff getUInt64_ne_undefined) ?_
      fun contextId => yields_call nofun fun _ => yields_pure ?_
    · refine (Json.throwsUtf8_constIndex _ _).bind fun params => ?_
      exact (Json.throwsUtf8_constIndex _ _).bind (Json.throwsUtf8_getUInt64 _)
    · exact Json.Utf8.null.set (by decide) .boolean
  · exact yields_pure ⟨trivial, (utf8_ascii (by decide)).append hm⟩

/-- The method of the request, as `HandleRequest` reads it. -/
def methodOf (l : List (Bytes × Json)) : Bytes :=
  match lookup (ascii "method") l with
  | some (.string s) => s
  | _ => []

/-- The requests that are answered. -/
structure Answerable (l : List (Bytes × Json)) : Prop where
  id : ∀ v, lookup (ascii "id") l = some v → v = .null
  method : ∀ v, lookup (ascii "method") l = some v → ∃ s, v = .string s
  params : ParamsPresent (methodOf l) l

/-- The response has this id, and either a result or an error. -/
def IsResponse (id resp : Json) : Prop :=
  ∃ l, resp = .object l ∧ lookup (ascii "id") l = some id ∧ Xor (HasKey "result" l) (HasKey "error" l)

/-- The id of a request, null if there is none. -/
def requestId (l : List (Bytes × Json)) : Json := (lookup (ascii "id") l).getD .null

theorem isResponse_put (reply : Reply) :
    IsResponse .null (reply.put ((Json.null.set "jsonrpc" (.string (ascii "2.0"))).set "id" .null)) := by
  have hbase : (Json.null.set "jsonrpc" (.string (ascii "2.0"))).set "id" .null =
      .object [(ascii "id", .null), (ascii "jsonrpc", .string (ascii "2.0"))] := by rfl
  have hset : ∀ key key' v, ascii "id" ≠ ascii key → ascii key' ≠ ascii key → ascii "id" ≠ ascii key' →
      ascii "jsonrpc" ≠ ascii key' →
      let l := Json.insert (ascii key) v [(ascii "id", .null), (ascii "jsonrpc", .string (ascii "2.0"))]
      lookup (ascii "id") l = some .null ∧ HasKey key l ∧ ¬HasKey key' l := by
    intro key key' v hid hkey hid' hrpc
    refine ⟨?_, ⟨v, Json.lookup_insert_self _ _ _⟩, ?_⟩
    · rw [Json.lookup_insert_of_ne hid]
      rfl
    · rintro ⟨v', hv⟩
      rw [Json.lookup_insert_of_ne hkey] at hv
      simp [lookup, hid', hrpc] at hv
  rw [hbase]
  cases reply with
  | result j =>
    obtain ⟨hid, hyes, hno⟩ := hset "result" "error" j (by decide) (by decide) (by decide) (by decide)
    exact ⟨_, rfl, hid, .inl ⟨hyes, hno⟩⟩
  | error code message =>
    obtain ⟨hid, hyes, hno⟩ := hset "error" "result" _ (by decide) (by decide) (by decide) (by decide)
    exact ⟨_, rfl, hid, .inr ⟨hyes, hno⟩⟩

theorem utf8_put {reply : Reply} (h : reply.Utf8) :
    (reply.put ((Json.null.set "jsonrpc" (.string (ascii "2.0"))).set "id" .null)).Utf8 := by
  have hbase : ((Json.null.set "jsonrpc" (.string (ascii "2.0"))).set "id" .null).Utf8 :=
    (Json.Utf8.null.set (by decide) (.string (utf8_ascii (by decide)))).set (by decide) .null
  cases reply with
  | result j => exact hbase.set (by decide) h
  | error code message =>
    exact hbase.set (by decide) ((Json.Utf8.null.set (by decide) .integer).set (by decide) (.string h))

/-- What `HandleRequest` returns. -/
def Handled (l : List (Bytes × Json)) : Except JsonFault Json → Prop
  | .ok resp => Answerable l ∧ IsResponse (requestId l) resp ∧ resp.Utf8
  | .error _ => ¬Answerable l

theorem yields_handleRequest (hl : (Json.object l).Utf8) : Yields (Handled l) (handleRequest x (.object l)) := by
  unfold handleRequest
  split
  next fault hid =>
    refine yields_pure fun (ha : Answerable l) => ?_
    dsimp only [Json.value] at hid
    split at hid
    next v hv =>
      cases ha.id v hv
      cases hid
    next => cases hid
  next hid =>
    have hidnull : ∀ v, lookup (ascii "id") l = some v → v = .null := by
      intro v hv
      dsimp only [Json.value] at hid
      rw [hv] at hid
      cases v with
      | null => rfl
      | _ => cases hid
    have hrequestId : requestId l = .null := by
      unfold requestId
      cases h : lookup (ascii "id") l with
      | none => rfl
      | some v => exact hidnull v h
    split
    next fault hmethod =>
      refine yields_pure fun (ha : Answerable l) => ?_
      dsimp only [Json.value] at hmethod
      split at hmethod
      next v hv =>
        obtain ⟨s, rfl⟩ := ha.method v hv
        cases hmethod
      next => cases hmethod
    next method hmethod =>
      have hm : method = methodOf l ∧ (∀ v, lookup (ascii "method") l = some v → ∃ s, v = .string s) ∧ TR.Utf8 method := by
        dsimp only [Json.value] at hmethod
        unfold methodOf
        split at hmethod
        next v hv =>
          cases v with
          | string s =>
            cases hmethod
            refine ⟨by rw [hv], fun v' hv' => ⟨method, ?_⟩, ?_⟩
            · cases hv.symm.trans hv'
              rfl
            · cases hl with
              | object _ hvs =>
                cases hvs _ (Json.mem_of_lookup hv) with
                | string h => exact h
          | _ => cases hmethod
        next hnone =>
          cases hmethod
          refine ⟨by rw [hnone], fun v hv => ?_, ⟨[], rfl⟩⟩
          cases hnone.symm.trans hv
      obtain ⟨rfl, htext, hutf8⟩ := hm
      refine (yields_dispatch hutf8).bind fun r hr => ?_
      match r, hr with
      | .ok reply, hr => exact yields_pure ⟨⟨hidnull, htext, hr.1⟩, hrequestId ▸ isResponse_put reply, utf8_put hr.2⟩
      | .error (.exception what), hr =>
        have hreply : Reply.Utf8 (.error (-32603) (ascii "Internal error: " ++ what)) := (utf8_ascii (by decide)).append hr.2
        exact yields_pure ⟨⟨hidnull, htext, hr.1⟩, hrequestId ▸ isResponse_put _, utf8_put hreply⟩
      | .error .undefined, hr => exact yields_pure fun (ha : Answerable l) => hr ha.params

/-! ## HandleClient -/

/-- The pipe delivers the message and takes what is written. -/
structure PipeWorks {σ : Type} (buf : { b : Bytes // b.length ≤ 65535 }) (answer : (c : AgentCall) → σ → c.Resp × σ) :
    Prop where
  reads : ∀ w, (answer .readFile w).1 = .ok buf
  writes : ∀ msg w, (answer (.writeFile msg) w).1 = none

/-- The messages to the client. -/
def written (tr : List (Answered AgentCall AgentCall.Resp)) : List Bytes :=
  tr.filterMap fun e =>
    match e.1 with
    | .writeFile msg => some msg
    | _ => none

/-- One response to the request is written, and the next message is read. -/
def Served {σ : Type} (x : JsonText) (l : List (Bytes × Json)) (ran : Ran AgentCall AgentCall.Resp σ Round) : Prop :=
  ran.result = some .serving ∧
    ∃ resp msg, written ran.trace = [msg] ∧ x.dump resp = .ok msg ∧ IsResponse (requestId l) resp

theorem written_of_observe {tr : List (Answered AgentCall AgentCall.Resp)} (h : observe noWrite tr () = some ()) :
    written tr = [] := by
  induction tr with
  | nil => rfl
  | cons e tr ih =>
    obtain ⟨c, r⟩ := e
    cases c with
    | writeFile msg => cases h
    | _ => exact ih h

theorem written_append (tr tr' : List (Answered AgentCall AgentCall.Resp)) :
    written (tr ++ tr') = written tr ++ written tr' :=
  List.filterMap_append

/-- A round begins with the message, and goes on with the request in it. -/
theorem clientRound_exec {σ : Type} {answer : (c : AgentCall) → σ → c.Resp × σ} {buf : { b : Bytes // b.length ≤ 65535 }}
    {req : Json} (hp : PipeWorks buf answer) (hb : x.parse buf.1 = .ok req) (w : σ) :
    ∃ w', let r := (handleRequest x req >>= respond x).exec answer w'
      (clientRound x).exec answer w = ⟨⟨.readFile, .ok buf⟩ :: r.trace, r.result, r.state⟩ := by
  obtain ⟨w', hread⟩ : ∃ w', answer .readFile w = (.ok buf, w') := ⟨_, Prod.ext (hp.reads w) rfl⟩
  refine ⟨w', (exec_call hread).trans ?_⟩
  dsimp only [Prog.bind]
  rw [hb]

/-- A request is answered if and only if it is answerable. -/
theorem agent_answers_iff {σ : Type} (x : JsonText) (hx : x.Lawful) (answer : (c : AgentCall) → σ → c.Resp × σ) (w : σ)
    (buf : { b : Bytes // b.length ≤ 65535 }) (hp : PipeWorks buf answer) (l : List (Bytes × Json))
    (hb : x.parse buf.1 = .ok (.object l)) : Served x l ((clientRound x).exec answer w) ↔ Answerable l := by
  obtain ⟨w', hexec⟩ := clientRound_exec hp hb w
  obtain ⟨⟨⟩, hobs, r, hres, hr⟩ := WP.sound (yields_handleRequest (hx.parse_utf8 _ _ hb)) answer w'
  have hnone := written_of_observe hobs
  rw [hexec, exec_bind hres]
  cases r with
  | error fault =>
    refine iff_of_false ?_ hr
    rintro ⟨hserving, -⟩
    cases fault <;> cases hserving
  | ok resp =>
    obtain ⟨hans, hresp, hutf8⟩ := hr
    refine iff_of_true ?_ hans
    obtain ⟨msg, hmsg⟩ := hx.dump_utf8 resp hutf8
    generalize (Prog.exec answer (handleRequest x (.object l)) w') = ran at hnone
    have hwrite : (respond x (.ok resp)).exec answer ran.state =
        ⟨[⟨.writeFile msg, none⟩], some .serving, (answer (.writeFile msg) ran.state).2⟩ := by
      have hw : answer (.writeFile msg) ran.state = (none, (answer (.writeFile msg) ran.state).2) :=
        Prod.ext (hp.writes msg _) rfl
      dsimp only [respond]
      rw [hmsg]
      exact exec_call hw
    rw [hwrite]
    refine ⟨rfl, resp, msg, ?_, hmsg, hresp⟩
    show written (_ :: (ran.trace ++ [⟨.writeFile msg, none⟩])) = _
    rw [← List.cons_append, written_append]
    show written ran.trace ++ [msg] = [msg]
    rw [hnone]
    rfl

end

/-! ## Examples -/

namespace Demo

/-- An agent without SSPI, whose pipe delivers this message. -/
def delivers (buf : { b : Bytes // b.length ≤ 65535 }) : (c : AgentCall) → Unit → c.Resp × Unit
  | .readFile, _ => (.ok buf, ())
  | .writeFile _, _ => (none, ())
  | .acquireCredentialsHandle, _ => (.error SEC_E_NO_CREDENTIALS, ())
  | .initializeSecurityContext _ _, _ => ((SEC_E_INVALID_HANDLE, 0, []), ())
  | .continueSecurityContext _ _, _ => ((SEC_E_INVALID_HANDLE, []), ())
  | .completeAuthToken _, _ => ((), ())
  | .freeCredentialsHandle _, _ => ((), ())
  | .create _ _ _, _ => ((1 : BitVec 64), ())
  | .get _, _ => (none, ())
  | .close _, _ => ((), ())

theorem delivers_works (buf : { b : Bytes // b.length ≤ 65535 }) : PipeWorks buf (delivers buf) where
  reads := fun _ => rfl
  writes := fun _ _ => rfl

/-- A `hello` without an id. -/
def anonymous : List (Bytes × Json) :=
  [(ascii "jsonrpc", .string (ascii "2.0")), (ascii "method", .string (ascii "hello")),
    (ascii "params", Json.null.set "version" (.integer 1))]

/-- The first request of the service. -/
def service : List (Bytes × Json) :=
  [(ascii "id", .unsigned 1), (ascii "jsonrpc", .string (ascii "2.0")), (ascii "method", .string (ascii "hello")),
    (ascii "params", Json.null.set "version" (.integer 1))]

theorem service_eq : request "hello" 1 (some (Json.null.set "version" (.integer 1))) = .object service := by rfl

def anonymousText : { b : Bytes // b.length ≤ 65535 } := ⟨(Json.object anonymous).compact, by decide +kernel⟩

def serviceText : { b : Bytes // b.length ≤ 65535 } := ⟨(Json.object service).compact, by decide +kernel⟩

def helloTexts : JsonText := .reading [.object anonymous, .object service]

theorem helloTexts_lawful : helloTexts.Lawful := by
  have hone : (Json.null.set "version" (.integer 1)).Utf8 := Json.Utf8.null.set (by decide) .integer
  have hset : ∀ j : Json, j.Utf8 →
      (((j.set "jsonrpc" (.string (ascii "2.0"))).set "method" (.string (ascii "hello"))).set "params"
        (Json.null.set "version" (.integer 1))).Utf8 := fun j hj =>
    ((hj.set (by decide) (.string (utf8_ascii (by decide)))).set (by decide) (.string (utf8_ascii (by decide)))).set
      (by decide) hone
  refine JsonText.reading_lawful fun j hj => ?_
  rcases List.mem_pair.mp hj with rfl | rfl
  · exact hset .null .null
  · exact hset (Json.null.set "id" (.unsigned 1)) (Json.Utf8.null.set (by decide) .unsigned)

end Demo

theorem agent_answers_anonymous :
    Answerable Demo.anonymous ∧
      Served Demo.helloTexts Demo.anonymous ((clientRound Demo.helloTexts).exec (Demo.delivers Demo.anonymousText) ()) := by
  have hparse : Demo.helloTexts.parse Demo.anonymousText.1 = .ok (.object Demo.anonymous) := by
    simp [Demo.helloTexts, JsonText.reading, Demo.anonymousText]
  have hanswerable : Answerable Demo.anonymous := by
    refine ⟨fun v hv => ?_, fun v hv => ?_, ?_⟩
    · cases hv
    · cases hv
      exact ⟨_, rfl⟩
    · exact ⟨_, rfl, fun _ _ => trivial⟩
  refine ⟨hanswerable, ?_⟩
  exact (agent_answers_iff _ Demo.helloTexts_lawful _ () _ (Demo.delivers_works _) _ hparse).mpr hanswerable

/-- The first request of the service ends its session without a response. -/
theorem agent_drops_hello :
    let ran := (clientRound Demo.helloTexts).exec (Demo.delivers Demo.serviceText) ()
    Demo.helloTexts.parse Demo.serviceText.1 = .ok (request "hello" 1 (some (Json.null.set "version" (.integer 1)))) ∧
      ran.result = some .disconnected ∧ written ran.trace = [] ∧ ¬Served Demo.helloTexts Demo.service ran := by
  have hresult : ((clientRound Demo.helloTexts).exec (Demo.delivers Demo.serviceText) ()).result = some .disconnected := by
    decide +kernel
  refine ⟨?_, hresult, by decide +kernel, ?_⟩
  · have hne : (Json.object Demo.anonymous).compact ≠ (Json.object Demo.service).compact := by decide +kernel
    rw [Demo.service_eq]
    simp [Demo.helloTexts, JsonText.reading, Demo.serviceText, hne]
  · rintro ⟨hserving, -⟩
    rw [hresult] at hserving
    cases hserving

end TR.Impl
