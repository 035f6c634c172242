import Mathlib.Algebra.Group.Nat.Defs
import Mathlib.Data.List.Flatten
import Mathlib.Data.List.Nodup
import Mathlib.Data.List.Perm.Subperm
import Mathlib.Data.List.Range
import TcpRedirector.Impl.Auth.ContextStore
import TcpRedirector.Proof.Framework.Json
import TcpRedirector.Proof.Framework.Prog
import TcpRedirector.Proof.Framework.Run

/-!
# SSPI handles

A handle is with the thread that obtained it (`Held`), in the store, or
released, and in one of these places only (`HandleInv`). `Get` gives the thread
a pointer to an entry that stays in the store, and so the entry has to stay
until the thread has used it: this is kept as long as no `CleanupExpired`
comes in between when the entry has expired (`handles_disciplined`); otherwise
a released context is passed to SSPI (`released_context_passed`).
-/

namespace TR.Impl

/-! ## What the thread does with handles -/

/-- The handles that are with the thread. -/
inductive Held where
  | nothing
  | credentials (credentials : CredHandle)
  /-- The credentials, after `InitializeSecurityContextW` has failed. -/
  | rejected (credentials : CredHandle)
  | pair (credentials : CredHandle) (context : CtxtHandle)
  /-- A pointer to the entry of this context. -/
  | pointer (context : CtxtHandle)

/-- Follows the thread; a call for which it does not have the handles is refused. -/
def heldBy : Held → (c : AgentCall) → c.Resp → Option Held
  | .nothing, .acquireCredentialsHandle, .ok credentials => some (.credentials credentials)
  | .nothing, .acquireCredentialsHandle, .error _ => some .nothing
  | .credentials h, .initializeSecurityContext credentials _, (sc, context, _) =>
    if credentials = h then some (if SspiEngine.succeeded sc then .pair h context else .rejected h) else none
  | .rejected h, .freeCredentialsHandle credentials, _ => if credentials = h then some .nothing else none
  | .pair h k, .create credentials context _, _ => if credentials = h ∧ context = k then some .nothing else none
  | .nothing, .get _, some context => some (.pointer context)
  | .nothing, .get _, none => some .nothing
  | .pointer k, .continueSecurityContext context _, _ => if context = k then some .nothing else none
  | .nothing, .close _, _ => some .nothing
  | .nothing, .completeAuthToken _, _ => some .nothing
  | .pair h k, .completeAuthToken _, _ => some (.pair h k)
  | .rejected h, .completeAuthToken _, _ => some (.rejected h)
  | _, _, _ => none

/-- The thread does only what it has the handles for, and keeps none in the end. -/
def Orderly {α : Type} (p : AgentProg α) (s : Held) : Prop := WP heldBy (fun s _ => s = .nothing) p s

section

variable {α β : Type} {s s' : Held}

theorem orderly_pure (a : α) : Orderly (pure a) .nothing := rfl

theorem Orderly.bind {p : AgentProg β} {f : β → AgentProg α} (hp : Orderly p s) (hf : ∀ b, Orderly (f b) .nothing) :
    Orderly (p >>= f) s := by
  refine WP_bind.mpr (WP.mono hp ?_)
  rintro _ r rfl
  cases r with
  | none => rfl
  | some b => exact hf b

theorem orderly_complete {f : Unit → AgentProg α} {sc : Status} {context : CtxtHandle} {Q : Held → Option α → Prop}
    (hs : heldBy s (.completeAuthToken context) () = some s) (hf : WP heldBy Q (f ()) s) :
    WP heldBy Q (SspiEngine.complete sc context >>= f) s := by
  unfold SspiEngine.complete
  split
  · exact fun _ => ⟨s, hs, hf⟩
  · exact hf

/-- What `SspiEngine::CreateContext` leaves with the thread. -/
def Created (s : Held) : Option (Except Bytes (SspiEngine.StepResult × CredHandle × CtxtHandle)) → Prop
  | some (.ok (_, credentials, context)) => s = .pair credentials context
  | some (.error _) => s = .nothing
  | none => False

theorem orderly_createContext (spn : Bytes) : WP heldBy Created (SspiEngine.createContext spn) .nothing := by
  intro (r : Except Status CredHandle)
  cases r with
  | error sc => exact ⟨_, rfl, rfl⟩
  | ok credentials =>
    refine ⟨_, rfl, fun (sc, context, token) => ⟨_, if_pos rfl, ?_⟩⟩
    cases hsc : SspiEngine.succeeded sc with
    | true =>
      refine orderly_complete rfl ?_
      rw [if_pos hsc]
      rfl
    | false =>
      refine orderly_complete rfl ?_
      rw [if_neg (by rw [hsc]; decide)]
      exact fun _ => ⟨_, if_pos rfl, rfl⟩

theorem orderly_createContextReply (spn : Bytes) : Orderly (createContextReply spn) .nothing := by
  refine WP_bind.mpr (WP.mono (orderly_createContext spn) ?_)
  rintro s r hr
  match r, hr with
  | some (.error what), hr => exact hr
  | some (.ok (step, credentials, context)), hr =>
    subst hr
    exact fun _ => ⟨_, if_pos ⟨rfl, rfl⟩, rfl⟩

theorem orderly_close (id : BitVec 64) {f : Unit → AgentProg α} (hf : Orderly (f ()) .nothing) :
    Orderly (AgentProg.close id >>= f) .nothing := fun _ => ⟨_, rfl, hf⟩

theorem orderly_continueContextReply (contextId : BitVec 64) (challenge : Bytes) :
    Orderly (continueContextReply contextId challenge) .nothing := by
  intro (r : Option CtxtHandle)
  cases r with
  | none => exact ⟨_, rfl, rfl⟩
  | some context =>
    refine ⟨_, rfl, ?_⟩
    refine Orderly.bind (p := SspiEngine.continueContext context challenge) ?_ fun r => ?_
    · refine fun (sc, token) => ⟨_, if_pos rfl, orderly_complete rfl ?_⟩
      split
      · exact orderly_pure _
      · exact orderly_pure _
    · cases r with
      | error what => exact orderly_close contextId (orderly_pure _)
      | ok step =>
        dsimp only
        split
        · exact orderly_pure _
        · exact orderly_close contextId (orderly_pure _)

theorem orderly_withParams {params : Except JsonFault α} {run : α → AgentProg Reply} (h : ∀ a, Orderly (run a) .nothing) :
    Orderly (withParams params run) .nothing := by
  cases params with
  | error fault => exact orderly_pure _
  | ok a => exact (h a).bind fun reply => orderly_pure _

theorem orderly_dispatch (x : JsonText) (method : Bytes) (req : Json) : Orderly (dispatch x method req) .nothing := by
  unfold dispatch
  split_ifs
  · exact orderly_withParams fun _ => orderly_pure _
  · exact orderly_pure _
  · exact orderly_withParams orderly_createContextReply
  · exact orderly_withParams fun y => orderly_continueContextReply y.1 y.2
  · exact orderly_withParams fun contextId => orderly_close contextId (orderly_pure _)
  · exact orderly_pure _

theorem orderly_handleRequest (x : JsonText) (req : Json) : Orderly (handleRequest x req) .nothing := by
  unfold handleRequest
  split
  · exact orderly_pure _
  · split
    · exact orderly_pure _
    · refine (orderly_dispatch x _ req).bind fun r => ?_
      match r with
      | .ok reply => exact orderly_pure _
      | .error (.exception what) => exact orderly_pure _
      | .error .undefined => exact orderly_pure _

end

/-! ## Where the handles are -/

def SspiHandle.number : SspiHandle → Nat
  | .credentials h => h
  | .context h => h

def Held.handles : Held → List SspiHandle
  | .nothing | .pointer _ => []
  | .credentials h | .rejected h => [.credentials h]
  | .pair h k => [.context k, .credentials h]

def ContextEntry.handles (e : ContextEntry) : List SspiHandle := [.context e.context, .credentials e.credentials]

def ContextStore.handles (store : ContextStore) : List SspiHandle := store.contexts.flatMap (·.2.handles)

def releases (log : List SspiEvent) : List SspiHandle :=
  log.filterMap fun e =>
    match e with
    | .released h => some h
    | _ => none

def storedIds (log : List SspiEvent) : List (BitVec 64) :=
  log.filterMap fun e =>
    match e with
    | .stored id _ _ => some id
    | _ => none

/-- The handles are different, and all of them were given before the number `n`. -/
def Placed (l : List SspiHandle) (n : Nat) : Prop := l.Nodup ∧ ∀ h ∈ l, h.number < n

section

variable {l l' : List SspiHandle} {n : Nat}

/-- Handles change places, or are lost. -/
theorem Placed.subperm (h : Placed l n) (hs : l'.Subperm l) : Placed l' n := by
  refine ⟨?_, fun x hx => h.2 x (hs.subset hx)⟩
  obtain ⟨m, hp, hm⟩ := hs
  exact hp.nodup_iff.mp (h.1.sublist hm)

theorem Placed.succ (h : Placed l n) : Placed l (n + 1) := ⟨h.1, fun x hx => Nat.lt_succ_of_lt (h.2 x hx)⟩

/-- A new handle. -/
theorem Placed.new (h : Placed l n) {x : SspiHandle} (hx : x.number = n) : Placed (x :: l) (n + 1) := by
  refine ⟨List.nodup_cons.mpr ⟨fun hm => ?_, h.1⟩, fun y hy => ?_⟩
  · have hlt := h.2 x hm
    omega
  · rcases List.mem_cons.mp hy with rfl | hy
    · omega
    · exact Nat.lt_succ_of_lt (h.2 y hy)

end

section

variable {log events : List SspiEvent} {store : ContextStore} {e : ContextEntry}

theorem releases_append (log events : List SspiEvent) : releases (log ++ events) = releases log ++ releases events :=
  List.filterMap_append

theorem mem_releases {h : SspiHandle} : h ∈ releases log ↔ .released h ∈ log := by
  refine List.mem_filterMap.trans ⟨?_, fun hm => ⟨_, hm, rfl⟩⟩
  rintro ⟨ev, hm, hev⟩
  cases ev with
  | released h' =>
    cases hev
    exact hm
  | passed h' => cases hev
  | stored id c k => cases hev

theorem releases_destroyContext (h : e.inUse = true) : releases e.destroyContext = e.handles := by
  unfold ContextEntry.destroyContext
  rw [if_pos h]
  rfl

/-- A handle is passed only while it is not released. -/
def Live (log : List SspiEvent) : Prop := ∀ pre post h, log = pre ++ .passed h :: post → .released h ∉ pre

theorem Live.concat (h : Live log) {ev : SspiEvent} (hev : ∀ x, ev = .passed x → .released x ∉ log) :
    Live (log ++ [ev]) := by
  intro pre post x heq
  rcases concat_eq_append_cons heq with ⟨-, rfl, hx⟩ | ⟨post', -, hlog⟩
  · exact hev x hx.symm
  · exact h pre post' x hlog

theorem Live.append (h : Live log) (he : ∀ x, .passed x ∉ events) : Live (log ++ events) := by
  induction events generalizing log with
  | nil => rwa [List.append_nil]
  | cons ev events ih =>
    rw [List.append_cons]
    refine ih (h.concat fun x hx => ?_) fun x hx => he x (List.mem_cons_of_mem _ hx)
    subst hx
    exact absurd List.mem_cons_self (he x)

theorem not_passed_destroyContext (x : SspiHandle) : .passed x ∉ e.destroyContext := by
  unfold ContextEntry.destroyContext
  split
  · simp
  · exact List.not_mem_nil

/-- What is erased, and what stays. -/
theorem handles_erase (id : BitVec 64) : (store.erase id).handles.Sublist store.handles :=
  List.filter_sublist.flatMap _

theorem handles_find {id : BitVec 64} (h : store.find id = some e) :
    ((store.erase id).handles ++ e.handles).Subperm store.handles := by
  obtain ⟨y, hy, rfl⟩ := Option.map_eq_some_iff.mp h
  obtain ⟨hid, pre, post, hl, -⟩ := List.find?_eq_some_iff_append.mp hy
  have hkept : (store.erase id).contexts.Sublist (pre ++ post) := by
    show (store.contexts.filter (·.1 ≠ id)).Sublist _
    rw [hl, List.filter_append, List.filter_cons_of_neg (by simpa using hid)]
    exact List.filter_sublist.append List.filter_sublist
  have hsub : ((store.erase id).handles ++ y.2.handles).Sublist ((pre ++ post).flatMap (·.2.handles) ++ y.2.handles) :=
    (hkept.flatMap _).append_right _
  refine hsub.subperm.trans (List.Perm.subperm ?_)
  show List.Perm _ (store.contexts.flatMap _)
  rw [hl]
  refine List.perm_append_comm.trans ?_
  have hmid := List.Perm.flatMap_right (fun y : BitVec 64 × ContextEntry => y.2.handles)
    (List.perm_middle : List.Perm (pre ++ y :: post) (y :: (pre ++ post)))
  rw [List.flatMap_cons] at hmid
  exact hmid.symm

theorem mem_of_find {id : BitVec 64} (h : store.find id = some e) : ∃ y ∈ store.contexts, y.2 = e := by
  obtain ⟨y, hy, rfl⟩ := Option.map_eq_some_iff.mp h
  exact ⟨y, List.mem_of_find?_eq_some hy, rfl⟩

theorem mem_of_erase {id : BitVec 64} {y : BitVec 64 × ContextEntry} (h : y ∈ (store.erase id).contexts) :
    y ∈ store.contexts := (List.mem_filter.mp h).1

/-- What has expired is released, the rest stays. -/
theorem handles_cleanup (now : Nat) (h : ∀ y ∈ store.contexts, y.2.inUse = true) :
    ((store.cleanupExpired now).1.handles ++ releases (store.cleanupExpired now).2).Perm store.handles := by
  have hrel : ∀ l : List (BitVec 64 × ContextEntry), (∀ y ∈ l, y.2.inUse = true) →
      releases (l.flatMap (·.2.destroyContext)) = l.flatMap (·.2.handles) := by
    intro l hl
    induction l with
    | nil => rfl
    | cons y l ih =>
      rw [List.flatMap_cons, List.flatMap_cons, releases_append, releases_destroyContext (hl y List.mem_cons_self),
        ih fun y hy => hl y (List.mem_cons_of_mem _ hy)]
  show List.Perm ((store.contexts.filter _).flatMap _ ++ releases ((store.contexts.filter _).flatMap _)) _
  rw [hrel _ fun y hy => h y (List.mem_filter.mp hy).1, ← List.flatMap_append]
  refine List.Perm.flatMap_right _ ?_
  refine List.perm_append_comm.trans ?_
  have hp := List.filter_append_perm (fun y : BitVec 64 × ContextEntry => y.2.isExpired now) store.contexts
  exact hp

end

/-! ## Steps -/

/-- A handle is with the thread, in the store, or released, and no released one was passed on. -/
structure HandleInv (a : Agent) (s : Held) : Prop where
  placed : Placed (s.handles ++ (a.store.handles ++ releases a.log)) a.nextHandle
  inUse : ∀ y ∈ a.store.contexts, y.2.inUse = true
  pointer : ∀ k, s = .pointer k → ∃ y ∈ a.store.contexts, y.2.context = k
  live : Live a.log

section

variable {a : Agent} {s : Held}

/-- An entry is destroyed. -/
theorem HandleInv.destroy (h : HandleInv a .nothing) {id : BitVec 64} {e : ContextEntry} (he : a.store.find id = some e) :
    HandleInv { a with store := a.store.erase id, log := a.log ++ e.destroyContext } .nothing := by
  obtain ⟨y, hy, rfl⟩ := mem_of_find he
  refine ⟨?_, fun y hy => h.inUse y (mem_of_erase hy), nofun, h.live.append not_passed_destroyContext⟩
  refine h.placed.subperm ?_
  show ((a.store.erase id).handles ++ releases (a.log ++ y.2.destroyContext)).Subperm (a.store.handles ++ releases a.log)
  rw [releases_append, releases_destroyContext (h.inUse y hy)]
  have hcomm : ((a.store.erase id).handles ++ (releases a.log ++ y.2.handles)).Perm
      (((a.store.erase id).handles ++ y.2.handles) ++ releases a.log) := by
    rw [List.append_assoc]
    exact List.perm_append_comm.append_left _
  exact hcomm.subperm.trans ((handles_find he).append (List.Subperm.refl _))

/-- What is not released is passed on. -/
theorem HandleInv.pass (h : HandleInv a s) {x : SspiHandle} (hx : x ∈ s.handles ++ a.store.handles) :
    Live (a.log ++ [.passed x]) := by
  refine h.live.concat ?_
  rintro _ ⟨⟩ hrel
  have hnodup := h.placed.1
  rw [← List.append_assoc] at hnodup
  exact (List.nodup_append.mp hnodup).2.2 x hx x (mem_releases.mpr hrel) rfl

/-- A context of the credentials that were passed. -/
theorem HandleInv.initialize {h : CredHandle} (hi : HandleInv a (.credentials h)) (sc : Status) :
    HandleInv { a with nextHandle := a.nextHandle + 1, log := a.log ++ [.passed (.credentials h)] }
      (if SspiEngine.succeeded sc then .pair h a.nextHandle else .rejected h) := by
  have hlive := hi.pass (List.mem_append_left _ (List.mem_singleton_self (SspiHandle.credentials h)))
  have hrel : releases (a.log ++ [.passed (.credentials h)]) = releases a.log := by
    rw [releases_append]
    exact List.append_nil _
  split
  · refine ⟨?_, hi.inUse, nofun, hlive⟩
    show Placed (.context a.nextHandle :: ([.credentials h] ++ (a.store.handles ++ releases (a.log ++ _)))) _
    rw [hrel]
    exact hi.placed.new rfl
  · refine ⟨?_, hi.inUse, nofun, hlive⟩
    show Placed ([.credentials h] ++ (a.store.handles ++ releases (a.log ++ _))) _
    rw [hrel]
    exact hi.placed.succ

theorem HandleInv.free {h : CredHandle} (hi : HandleInv a (.rejected h)) :
    HandleInv { a with log := a.log ++ [.released (.credentials h)] } .nothing := by
  refine ⟨hi.placed.subperm (List.Perm.subperm ?_), hi.inUse, nofun, hi.live.append (by simp)⟩
  show (a.store.handles ++ releases (a.log ++ [.released (.credentials h)])).Perm
    ([.credentials h] ++ (a.store.handles ++ releases a.log))
  rw [releases_append, ← List.append_assoc]
  exact List.perm_append_comm

/-- The pair goes into the store. -/
theorem HandleInv.create {h : CredHandle} {k : CtxtHandle} (hi : HandleInv a (.pair h k)) (spn : Bytes) :
    HandleInv { a with
      store := (a.store.create h k spn a.now).2
      log := a.log ++ [.stored (a.store.create h k spn a.now).1 h k] } .nothing := by
  refine ⟨hi.placed.subperm (List.Sublist.subperm ?_), fun y hy => ?_, nofun, hi.live.append (by simp)⟩
  · show (Held.handles (.pair h k) ++ (a.store.erase a.store.nextId).handles ++ releases (a.log ++ _)).Sublist
      (Held.handles (.pair h k) ++ (a.store.handles ++ releases a.log))
    rw [releases_append, List.append_assoc]
    refine List.Sublist.append_left ?_ _
    show ((a.store.erase a.store.nextId).handles ++ (releases a.log ++ [])).Sublist _
    rw [List.append_nil]
    exact (handles_erase _).append_right _
  · rcases List.mem_cons.mp hy with rfl | hy
    · rfl
    · exact hi.inUse y (mem_of_erase hy)

theorem HandleInv.get (h : HandleInv a .nothing) (id : BitVec 64) :
    HandleInv { a with store := (a.store.get id a.now).2.1, log := a.log ++ (a.store.get id a.now).2.2 }
      (((a.store.get id a.now).1.map (·.context)).elim .nothing .pointer) := by
  have hsame : HandleInv { a with log := a.log ++ [] } .nothing := by
    rw [List.append_nil]
    exact h
  unfold ContextStore.get
  split
  next => exact hsame
  next e he =>
    split
    next => exact h.destroy he
    next =>
      refine ⟨hsame.placed, hsame.inUse, fun k hk => ?_, hsame.live⟩
      cases hk
      obtain ⟨y, hy, rfl⟩ := mem_of_find he
      exact ⟨y, hy, rfl⟩

theorem HandleInv.close (h : HandleInv a .nothing) (id : BitVec 64) :
    HandleInv { a with store := (a.store.close id).1, log := a.log ++ (a.store.close id).2 } .nothing := by
  unfold ContextStore.close
  split
  next =>
    show HandleInv { a with log := a.log ++ [] } .nothing
    rw [List.append_nil]
    exact h
  next e he => exact h.destroy he

/-- The entry of the pointer is in the store, and so the context is not released. -/
theorem HandleInv.continue {k : CtxtHandle} (h : HandleInv a (.pointer k)) :
    HandleInv { a with log := a.log ++ [.passed (.context k)] } .nothing := by
  obtain ⟨y, hy, rfl⟩ := h.pointer k rfl
  have hmem : SspiHandle.context y.2.context ∈ a.store.handles := List.mem_flatMap.mpr ⟨y, hy, List.mem_cons_self⟩
  refine ⟨?_, h.inUse, nofun, h.pass (List.mem_append_right _ hmem)⟩
  show Placed (a.store.handles ++ releases (a.log ++ [.passed _])) _
  rw [releases_append]
  show Placed (a.store.handles ++ (releases a.log ++ [])) _
  rw [List.append_nil]
  exact h.placed

/-- A call that the thread has the handles for. -/
theorem HandleInv.answer (h : HandleInv a s) {o : SspiOutcome} {c : AgentCall} {s' : Held}
    (hs : heldBy s c (a.answer o c).1 = some s') : HandleInv (a.answer o c).2 s' := by
  generalize hr : a.answer o c = y at hs
  obtain ⟨r, a'⟩ := y
  dsimp only at hs
  unfold heldBy at hs
  split at hs
  next credentials =>
    dsimp only [Agent.answer] at hr
    split at hr
    · cases hr
      cases hs
      exact ⟨h.placed.new rfl, h.inUse, nofun, h.live⟩
    · cases hr
  next sc =>
    dsimp only [Agent.answer] at hr
    split at hr
    · cases hr
    · cases hr
      cases hs
      exact h
  next h' credentials target sc context token =>
    cases hr
    split at hs
    next heq =>
      cases hs
      subst heq
      exact h.initialize _
    next => cases hs
  next h' credentials _ =>
    cases hr
    split at hs
    next heq =>
      cases hs
      subst heq
      exact h.free
    next => cases hs
  next h' k credentials context spn _ =>
    cases hr
    split at hs
    next heq =>
      cases hs
      obtain ⟨rfl, rfl⟩ := heq
      exact h.create spn
    next => cases hs
  next id context =>
    cases hs
    have hget := h.get id
    obtain ⟨hctx, rfl⟩ := Prod.mk.inj hr
    rw [show (a.store.get id a.now).1.map (·.context) = some context from hctx] at hget
    exact hget
  next id =>
    cases hs
    have hget := h.get id
    obtain ⟨hctx, rfl⟩ := Prod.mk.inj hr
    rw [show (a.store.get id a.now).1.map (·.context) = none from hctx] at hget
    exact hget
  next k context token _ =>
    cases hr
    split at hs
    next heq =>
      cases hs
      subst heq
      exact h.continue
    next => cases hs
  next id _ =>
    cases hr
    cases hs
    exact h.close id
  next =>
    cases hr
    cases hs
    exact h
  next =>
    cases hr
    cases hs
    exact h
  next =>
    cases hr
    cases hs
    exact h
  next => cases hs

theorem HandleInv.cleanup (h : HandleInv a s)
    (hp : ∀ k, s = .pointer k → ∀ y ∈ a.store.contexts, y.2.context = k → y.2.isExpired a.now = false) :
    HandleInv { a with store := (a.store.cleanupExpired a.now).1, log := a.log ++ (a.store.cleanupExpired a.now).2 } s := by
  refine ⟨?_, fun y hy => h.inUse y (List.mem_filter.mp hy).1, fun k hk => ?_, h.live.append fun x hx => ?_⟩
  · refine h.placed.subperm (List.Subperm.append (List.Subperm.refl _) (List.Perm.subperm ?_))
    show ((a.store.cleanupExpired a.now).1.handles ++ releases (a.log ++ (a.store.cleanupExpired a.now).2)).Perm _
    rw [releases_append]
    refine (List.perm_append_comm.append_left _).trans ?_
    rw [← List.append_assoc]
    exact (handles_cleanup a.now h.inUse).append_right _
  · obtain ⟨y, hy, hyk⟩ := h.pointer k hk
    have hno := hp k hk y hy hyk
    exact ⟨y, List.mem_filter.mpr ⟨hy, by simp [hno]⟩, hyk⟩
  · obtain ⟨y, -, hy⟩ := List.mem_flatMap.mp hx
    exact not_passed_destroyContext x hy

end

/-! ## Ids -/

/-- The ids were given from 1 on, one after the other, up to `n`. -/
def Numbered (a : Agent) (n : Nat) : Prop :=
  storedIds a.log = (List.range n).map (fun i => BitVec.ofNat 64 (i + 1)) ∧ a.store.nextId = BitVec.ofNat 64 (n + 1)

section

variable {a : Agent} {n : Nat}

theorem storedIds_append (log events : List SspiEvent) : storedIds (log ++ events) = storedIds log ++ storedIds events :=
  List.filterMap_append

theorem storedIds_destroyContext (e : ContextEntry) : storedIds e.destroyContext = [] := by
  unfold ContextEntry.destroyContext
  split <;> rfl

theorem Numbered.length (h : Numbered a n) : (storedIds a.log).length = n := by
  rw [h.1, List.length_map, List.length_range]

theorem Numbered.nodup (h : Numbered a n) (hn : n ≤ 2 ^ 64) : (storedIds a.log).Nodup := by
  rw [h.1]
  refine List.Nodup.map_on (fun i hi j hj hij => ?_) List.nodup_range
  have hi' := List.mem_range.mp hi
  have hj' := List.mem_range.mp hj
  have hmod := congrArg BitVec.toNat hij
  rw [BitVec.toNat_ofNat, BitVec.toNat_ofNat] at hmod
  omega

/-- The store changes, but gives no id. -/
theorem Numbered.keep (h : Numbered a n) {a' : Agent} {events : List SspiEvent} (hlog : a'.log = a.log ++ events)
    (he : storedIds events = []) (hid : a'.store.nextId = a.store.nextId) : Numbered a' n := by
  refine ⟨?_, hid.trans h.2⟩
  rw [hlog, storedIds_append, he, List.append_nil]
  exact h.1

theorem Numbered.create (h : Numbered a n) (credentials : CredHandle) (context : CtxtHandle) (spn : Bytes) :
    Numbered { a with
      store := (a.store.create credentials context spn a.now).2
      log := a.log ++ [.stored (a.store.create credentials context spn a.now).1 credentials context] } (n + 1) := by
  constructor
  · show storedIds (a.log ++ [.stored a.store.nextId credentials context]) = _
    rw [storedIds_append, h.1, List.range_succ, List.map_append, h.2]
    rfl
  · show a.store.nextId + 1 = _
    rw [h.2]
    exact (BitVec.ofNat_add _ _).symm

theorem nextId_get (store : ContextStore) (id : BitVec 64) (now : Nat) :
    (store.get id now).2.1.nextId = store.nextId ∧ storedIds (store.get id now).2.2 = [] := by
  unfold ContextStore.get
  split
  · exact ⟨rfl, rfl⟩
  · split
    · exact ⟨rfl, storedIds_destroyContext _⟩
    · exact ⟨rfl, rfl⟩

theorem nextId_close (store : ContextStore) (id : BitVec 64) :
    (store.close id).1.nextId = store.nextId ∧ storedIds (store.close id).2 = [] := by
  unfold ContextStore.close
  split
  · exact ⟨rfl, rfl⟩
  · exact ⟨rfl, storedIds_destroyContext _⟩

theorem storedIds_cleanup (store : ContextStore) (now : Nat) : storedIds (store.cleanupExpired now).2 = [] := by
  show storedIds ((store.contexts.filter _).flatMap _) = []
  induction store.contexts.filter (·.2.isExpired now) with
  | nil => rfl
  | cons y l ih =>
    rw [List.flatMap_cons, storedIds_append, storedIds_destroyContext]
    exact ih

/-- Only `Create` gives an id. -/
theorem Numbered.answer (h : Numbered a n) (o : SspiOutcome) (c : AgentCall) :
    Numbered (a.answer o c).2 n ∨
      (∃ credentials context spn, c = .create credentials context spn) ∧ Numbered (a.answer o c).2 (n + 1) := by
  cases c with
  | create credentials context spn => exact .inr ⟨⟨_, _, _, rfl⟩, h.create credentials context spn⟩
  | get id => exact .inl (h.keep rfl (nextId_get _ id _).2 (nextId_get _ id _).1)
  | close id => exact .inl (h.keep rfl (nextId_close _ id).2 (nextId_close _ id).1)
  | acquireCredentialsHandle =>
    left
    dsimp only [Agent.answer]
    split
    · exact h
    · exact h
  | initializeSecurityContext credentials target => exact .inl (h.keep rfl rfl rfl)
  | continueSecurityContext context token => exact .inl (h.keep rfl rfl rfl)
  | freeCredentialsHandle credentials => exact .inl (h.keep rfl rfl rfl)
  | completeAuthToken context => exact .inl h
  | readFile => exact .inl h
  | writeFile msg => exact .inl h

end

/-! ## Runs -/

/-- The cleanup does not come between `Get` and the use of an entry that has
expired in the meantime, and there are ids left. -/
structure StoreInTurn (st : StepOf Agent AgentInput Unit) : Prop where
  cleanup : st.input = .cleanup → ∀ context token k, st.pre.thread = .call (.continueSecurityContext context token) k →
    ∀ y ∈ st.pre.store.contexts, y.2.context = context → y.2.isExpired st.pre.now = false
  create : ∀ o credentials context spn k, st.input = .step o → st.pre.thread = .call (.create credentials context spn) k →
    (storedIds st.pre.log).length < 2 ^ 64

/-- Each handle is released at most once and is not passed to SSPI after that,
and no id is given twice. -/
structure Disciplined (log : List SspiEvent) : Prop where
  once : ∀ h, log.count (.released h) ≤ 1
  live : ∀ pre post h, log = pre ++ .passed h :: post → .released h ∉ pre
  ids : (storedIds log).Nodup

structure AgentInv (a : Agent) : Prop where
  handles : ∃ s, Orderly a.thread s ∧ HandleInv a s
  ids : ∃ n, Numbered a n ∧ n ≤ 2 ^ 64

section

variable {x : JsonText}

theorem count_releases (log : List SspiEvent) (h : SspiHandle) : log.count (.released h) = (releases log).count h := by
  induction log with
  | nil => rfl
  | cons ev log ih =>
    cases ev with
    | released h' =>
      show _ = (h' :: releases log).count h
      by_cases hh : h' = h
      · subst hh
        rw [List.count_cons_self, List.count_cons_self, ih]
      · rw [List.count_cons_of_ne (by simpa using hh), List.count_cons_of_ne hh, ih]
    | passed h' => exact (List.count_cons_of_ne (by simp)).trans ih
    | stored id c k => exact (List.count_cons_of_ne (by simp)).trans ih

theorem AgentInv.disciplined {a : Agent} (h : AgentInv a) : Disciplined a.log := by
  obtain ⟨s, -, hh⟩ := h.handles
  obtain ⟨n, hn, hle⟩ := h.ids
  refine ⟨fun x => ?_, hh.live, hn.nodup hle⟩
  have hnodup := (List.nodup_append.mp (List.nodup_append.mp hh.placed.1).2.1).2.1
  rw [count_releases]
  exact List.nodup_iff_count_le_one.mp hnodup x

theorem heldBy_pointer {k : CtxtHandle} {c : AgentCall} {r : c.Resp} {s' : Held} (h : heldBy (.pointer k) c r = some s') :
    ∃ token, c = .continueSecurityContext k token := by
  cases c with
  | continueSecurityContext context token =>
    have hk : (if context = k then some Held.nothing else none) = some s' := h
    split at hk
    next heq =>
      subst heq
      exact ⟨token, rfl⟩
    next => cases hk
  | _ => cases h

/-- A thread with a pointer is about to use it. -/
theorem thread_of_pointer {p : AgentProg Unit} {k : CtxtHandle} (h : Orderly p (.pointer k)) :
    ∃ token f, p = .call (.continueSecurityContext k token) f := by
  cases p with
  | ret _ => cases h
  | throw => cases h
  | call c f =>
    -- Whatever the answer: this is one.
    obtain ⟨s', hs, -⟩ := h (Agent.answer ⟨SEC_E_OK, []⟩ c {}).1
    obtain ⟨token, rfl⟩ := heldBy_pointer hs
    exact ⟨token, f, rfl⟩

theorem agentInv_step (i : AgentInput) (a : Agent) (h : AgentInv a) (hst : StoreInTurn (stepOf (Agent.step x) i a)) :
    AgentInv (Agent.step x i a).1 := by
  obtain ⟨s, hs, hh⟩ := h.handles
  obtain ⟨n, hn, hle⟩ := h.ids
  cases i with
  | request req =>
    have hnew : Orderly (do let _ ← handleRequest x req : AgentProg Unit) .nothing :=
      (orderly_handleRequest x req).bind fun _ => orderly_pure ()
    dsimp only [Agent.step]
    split
    next => exact h
    next hno =>
      have hnothing : s = .nothing := by
        cases hthread : a.thread with
        | ret _ =>
          rw [hthread] at hs
          exact hs
        | throw =>
          rw [hthread] at hs
          exact hs
        | call c k => exact absurd hthread (hno c k)
      subst hnothing
      exact ⟨⟨.nothing, hnew, hh.placed, hh.inUse, hh.pointer, hh.live⟩, n, hn, hle⟩
  | step o =>
    dsimp only [Agent.step]
    split
    next c k hthread =>
      rw [hthread] at hs
      obtain ⟨s', hs', hk⟩ := hs (a.answer o c).1
      have hh' := hh.answer hs'
      refine ⟨⟨s', hk, hh'.placed, hh'.inUse, hh'.pointer, hh'.live⟩, ?_⟩
      rcases hn.answer o c with hn' | ⟨⟨credentials, context, spn, rfl⟩, hn'⟩
      · exact ⟨n, hn', hle⟩
      · have hleft := hst.create o credentials context spn k rfl hthread
        rw [show (stepOf (Agent.step x) (.step o) a).pre = a from rfl, hn.length] at hleft
        exact ⟨n + 1, hn', hleft⟩
    next => exact h
  | cleanup =>
    refine ⟨⟨s, hs, hh.cleanup ?_⟩, n, hn.keep rfl (storedIds_cleanup _ _) rfl, hle⟩
    rintro k rfl y hy hyk
    obtain ⟨token, f, hthread⟩ := thread_of_pointer hs
    exact hst.cleanup rfl k token f hthread y hy hyk
  | tick ns => exact ⟨⟨s, hs, hh.placed, hh.inUse, hh.pointer, hh.live⟩, n, hn, hle⟩

theorem agentInv_start : AgentInv {} := by
  refine ⟨⟨.nothing, rfl, ⟨List.nodup_nil, nofun⟩, nofun, nofun, ?_⟩, 0, ⟨rfl, rfl⟩, Nat.zero_le _⟩
  intro pre post h heq
  exact absurd heq.symm (by simp)

end

/-- For requests, rounds of the cleanup and advances of the clock in any order. -/
theorem handles_disciplined (x : JsonText) (schedule : List AgentInput)
    (h : ∀ st ∈ trace (Agent.step x) schedule {}, StoreInTurn st) : Disciplined (run (Agent.step x) schedule {}).log :=
  (run_induct_of agentInv_step schedule agentInv_start h).disciplined

/-- `StoreInTurn`, evaluated. -/
def storeInTurn (st : StepOf Agent AgentInput Unit) : Bool :=
  match st.input, st.pre.thread with
  | .cleanup, .call (.continueSecurityContext context _) _ =>
    st.pre.store.contexts.all fun y => y.2.context ≠ context ∨ y.2.isExpired st.pre.now = false
  | .step _, .call (.create _ _ _) _ => (storedIds st.pre.log).length < 2 ^ 64
  | _, _ => true

theorem StoreInTurn.of_eval {st : StepOf Agent AgentInput Unit} (h : storeInTurn st = true) : StoreInTurn st := by
  constructor
  · intro hi context token k hthread y hy hyk
    unfold storeInTurn at h
    rw [hi, hthread] at h
    have hy' := of_decide_eq_true (List.all_eq_true.mp h y hy)
    exact hy'.resolve_left (absurd hyk)
  · intro o credentials context spn k hi hthread
    unfold storeInTurn at h
    rw [hi, hthread] at h
    exact of_decide_eq_true h

namespace Demo

def createContext : AgentInput :=
  .request (.object [(ascii "method", .string (ascii "create_context")),
    (ascii "params", .object [(ascii "spn", .string (ascii "HTTP/proxy"))])])

def continueContext : AgentInput :=
  .request (.object [(ascii "method", .string (ascii "continue_context")),
    (ascii "params", .object [(ascii "challenge", .string (ascii "AA==")), (ascii "context_id", .unsigned 1)])])

def ok : AgentInput := .step ⟨SEC_E_OK, []⟩

def moreNeeded : AgentInput := .step ⟨SEC_I_CONTINUE_NEEDED, [0x60]⟩

/-- `AcquireCredentialsHandleW`, `InitializeSecurityContextW`, `Create`. -/
def storing : List AgentInput := [createContext, ok, moreNeeded, ok]

/-- `Get`, `InitializeSecurityContextW`, `Close`. -/
def continuing : List AgentInput := [continueContext, ok, ok, ok]

/-- The entry expires, and is removed, after `Get` and before `InitializeSecurityContextW`. -/
def overtaken : List AgentInput := [.tick kDefaultTtl, continueContext, ok, .tick 1, .cleanup, ok]

end Demo

theorem handles_disciplined_continued :
    (∀ st ∈ trace (Agent.step (.reading [])) (Demo.storing ++ Demo.continuing) {}, StoreInTurn st) ∧
      Disciplined (run (Agent.step (.reading [])) (Demo.storing ++ Demo.continuing) {}).log ∧
      (run (Agent.step (.reading [])) (Demo.storing ++ Demo.continuing) {}).log =
        [.passed (.credentials 0), .stored 1 0 1, .passed (.context 1), .released (.context 1),
          .released (.credentials 0)] := by
  have h : ∀ st ∈ trace (Agent.step (.reading [])) (Demo.storing ++ Demo.continuing) {}, StoreInTurn st := by
    have hall : (trace (Agent.step (.reading [])) (Demo.storing ++ Demo.continuing) {}).all storeInTurn = true := by
      decide +kernel
    exact fun st hst => .of_eval (List.all_eq_true.mp hall st hst)
  exact ⟨h, handles_disciplined _ _ h, by decide +kernel⟩

/-- `Get` gives a pointer and lets the lock go. -/
theorem released_context_passed :
    ¬ Disciplined (run (Agent.step (.reading [])) (Demo.storing ++ Demo.overtaken) {}).log := by
  have hlog : (run (Agent.step (.reading [])) (Demo.storing ++ Demo.overtaken) {}).log =
      [.passed (.credentials 0), .stored 1 0 1, .released (.context 1), .released (.credentials 0)] ++
        [.passed (.context 1)] := by decide +kernel
  intro h
  refine h.live _ [] (.context 1) hlog ?_
  decide

end TR.Impl
