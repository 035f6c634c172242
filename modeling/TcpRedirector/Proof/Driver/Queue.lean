import Mathlib.Algebra.Group.Nat.Defs
import TcpRedirector.Impl.Driver.RedirectService
import TcpRedirector.Proof.Framework.Run

/-!
# The redirect queue

The entries that were enqueued are those that left the queue, in this order,
followed by those in it (`QueueInv.order`); the counters count them, and the
ids number them (`QueueInv.ids`). Each call preserves this. What leaves the
queue comes to a caller unless `GET_PENDING` fetches it (`received_iff`), and
so the queue is conserved where no such request finds an entry
(`queue_conserved_iff`).
-/

namespace TR.Impl

/-! ## The calls -/

namespace RedirectService

/-- What a batch takes, and what stays. -/
theorem peekLoop_eq (s : RedirectService) (n : Nat) :
    s.peekLoop n = ({ s with
      redirectQueue := s.redirectQueue.drop n
      queueCount := s.queueCount - BitVec.ofNat 32 (s.redirectQueue.take n).length }, s.redirectQueue.take n) := by
  induction n generalizing s with
  | zero => simp [peekLoop]
  | succ n ih =>
    cases h : s.redirectQueue with
    | nil =>
      simp only [peekLoop, h, List.drop_nil, List.take_nil, List.length_nil, BitVec.sub_zero]
      rw [← h]
    | cons info queue =>
      simp only [peekLoop, h, ih, List.drop_succ_cons, List.take_succ_cons, List.length_cons]
      congr 2
      rw [BitVec.ofNat_add]
      generalize BitVec.ofNat 32 (queue.take n).length = k
      generalize s.queueCount = c
      bv_omega

end RedirectService

/-- What `Enqueue` was given where it succeeded, with the ids that it gave out. -/
def enqueued (tr : List (StepOf RedirectService QueueInput QueueOutput)) : List RedirectInfo :=
  tr.filterMap fun st =>
    match st.input, st.out with
    | .enqueue (some info) _, .enqueued .success (some info') => some { info with redirectId := info'.redirectId }
    | _, _ => none

/-- The calls of `Enqueue` that were turned away because the queue is full. -/
def rejected (tr : List (StepOf RedirectService QueueInput QueueOutput)) : Nat :=
  tr.countP fun st =>
    match st.out with
    | .enqueued .insufficientResources _ => true
    | _ => false

/-- What `Dequeue` and `GET_PENDING` took from the queue. -/
def removed (tr : List (StepOf RedirectService QueueInput QueueOutput)) : List RedirectDataPacket :=
  tr.flatMap fun st =>
    match st.out with
    | .dequeued _ info => (info.map (·.packet)).toList
    | .pending _ written _ => written
    | _ => []

/-- What the callers of `Dequeue` and `GET_PENDING` were given. -/
def delivered (tr : List (StepOf RedirectService QueueInput QueueOutput)) : List RedirectDataPacket :=
  tr.flatMap fun st =>
    match st.out with
    | .dequeued _ info => (info.map (·.packet)).toList
    | .pending _ _ received => received
    | _ => []

/-- What is asked of the queue after the calls of a trace. -/
structure Conserved (s : RedirectService) (tr : List (StepOf RedirectService QueueInput QueueOutput)) : Prop where
  count : s.queueCount.toInt = s.redirectQueue.length
  bounded : s.queueCount.toInt ≤ s.queueMaxCount.toInt
  order : (enqueued tr).map (·.packet) = delivered tr ++ s.redirectQueue.map (·.packet)
  total : s.totalRedirects = BitVec.ofNat 64 ((delivered tr).length + s.redirectQueue.length)
  failed : s.failedRedirects = BitVec.ofNat 64 (rejected tr)
  ids : ∀ i j a b, i < j → j - i < 2 ^ 32 → (enqueued tr)[i]? = some a → (enqueued tr)[j]? = some b →
    a.redirectId ≠ b.redirectId

/-- A `GET_PENDING` with room for a packet finds an entry. -/
def Fetches (st : StepOf RedirectService QueueInput QueueOutput) : Prop :=
  ∃ outputLength, st.input = .getPending outputLength ∧ sizeofPacket ≤ outputLength.toNat ∧ st.pre.redirectQueue ≠ []

/-- What holds after the calls of a trace. -/
structure QueueInv (s : RedirectService) (tr : List (StepOf RedirectService QueueInput QueueOutput)) : Prop where
  maxCount : s.queueMaxCount = MAX_REDIRECT_QUEUE_SIZE
  bounded : s.redirectQueue.length ≤ 4096
  count : s.queueCount = BitVec.ofNat 32 s.redirectQueue.length
  order : (enqueued tr).map (·.packet) = removed tr ++ s.redirectQueue.map (·.packet)
  total : s.totalRedirects = BitVec.ofNat 64 (enqueued tr).length
  failed : s.failedRedirects = BitVec.ofNat 64 (rejected tr)
  nextId : s.nextRedirectId = BitVec.ofNat 32 ((enqueued tr).length + 1)
  ids : ∀ k info, (enqueued tr)[k]? = some info → info.redirectId = (BitVec.ofNat 32 (k + 2)).signExtend 64

section

variable {s : RedirectService} {tr : List (StepOf RedirectService QueueInput QueueOutput)}
  {st : StepOf RedirectService QueueInput QueueOutput}

theorem enqueued_concat (tr : List (StepOf RedirectService QueueInput QueueOutput))
    (st : StepOf RedirectService QueueInput QueueOutput) : enqueued (tr ++ [st]) = enqueued tr ++ enqueued [st] :=
  List.filterMap_append

theorem removed_concat (tr : List (StepOf RedirectService QueueInput QueueOutput))
    (st : StepOf RedirectService QueueInput QueueOutput) : removed (tr ++ [st]) = removed tr ++ removed [st] :=
  List.flatMap_append

theorem rejected_concat (tr : List (StepOf RedirectService QueueInput QueueOutput))
    (st : StepOf RedirectService QueueInput QueueOutput) : rejected (tr ++ [st]) = rejected tr + rejected [st] :=
  List.countP_append

/-- A step that enqueues nothing and turns nothing away, and takes the first `n` entries. -/
theorem QueueInv.remove (h : QueueInv s tr) (n : Nat) (henq : enqueued [st] = []) (hrej : rejected [st] = 0)
    (hrem : removed [st] = (s.redirectQueue.take n).map (·.packet)) :
    QueueInv { s with
      redirectQueue := s.redirectQueue.drop n
      queueCount := s.queueCount - BitVec.ofNat 32 (s.redirectQueue.take n).length } (tr ++ [st]) := by
  have henq' : enqueued (tr ++ [st]) = enqueued tr := by rw [enqueued_concat, henq, List.append_nil]
  have hle := h.bounded
  refine ⟨h.maxCount, ?_, ?_, ?_, ?_, ?_, ?_, ?_⟩
  · show (s.redirectQueue.drop n).length ≤ 4096
    rw [List.length_drop]
    omega
  · show s.queueCount - _ = BitVec.ofNat 32 (s.redirectQueue.drop n).length
    have hlen : s.redirectQueue.length = (s.redirectQueue.drop n).length + (s.redirectQueue.take n).length := by
      rw [List.length_drop, List.length_take]
      omega
    rw [h.count, hlen, BitVec.ofNat_add]
    exact BitVec.add_sub_cancel _ _
  · rw [henq', removed_concat, hrem, h.order, List.append_assoc, ← List.map_append, List.take_append_drop]
  · rw [henq']
    exact h.total
  · rw [rejected_concat, hrej]
    exact h.failed
  · rw [henq']
    exact h.nextId
  · rw [henq']
    exact h.ids

/-- A step that does nothing. -/
theorem QueueInv.skip (h : QueueInv s tr) (henq : enqueued [st] = []) (hrej : rejected [st] = 0)
    (hrem : removed [st] = []) :
    QueueInv s (tr ++ [st]) := by
  have hskip := h.remove 0 henq hrej hrem
  simpa using hskip

/-- The queue is full. -/
theorem QueueInv.reject (h : QueueInv s tr) (henq : enqueued [st] = []) (hrej : rejected [st] = 1)
    (hrem : removed [st] = []) :
    QueueInv { s with failedRedirects := s.failedRedirects + 1 } (tr ++ [st]) := by
  have henq' : enqueued (tr ++ [st]) = enqueued tr := by rw [enqueued_concat, henq, List.append_nil]
  have hrem' : removed (tr ++ [st]) = removed tr := by rw [removed_concat, hrem, List.append_nil]
  refine ⟨h.maxCount, h.bounded, h.count, ?_, ?_, ?_, ?_, ?_⟩
  · rw [henq', hrem']
    exact h.order
  · rw [henq']
    exact h.total
  · show s.failedRedirects + 1 = _
    rw [rejected_concat, hrej, h.failed]
    exact (BitVec.ofNat_add _ _).symm
  · rw [henq']
    exact h.nextId
  · rw [henq']
    exact h.ids

/-- There is room: the entry gets the next id. -/
theorem QueueInv.accept (h : QueueInv s tr) (info : RedirectInfo) {entry : RedirectInfo} (hroom : s.redirectQueue.length < 4096)
    (hid : info.redirectId = (s.nextRedirectId + 1).signExtend 64) (hentry : entry.packet = info.packet)
    (henq : enqueued [st] = [info]) (hrej : rejected [st] = 0) (hrem : removed [st] = []) :
    QueueInv { s with
      nextRedirectId := s.nextRedirectId + 1
      redirectQueue := s.redirectQueue ++ [entry]
      queueCount := s.queueCount + 1
      totalRedirects := s.totalRedirects + 1 } (tr ++ [st]) := by
  have henq' : enqueued (tr ++ [st]) = enqueued tr ++ [info] := by rw [enqueued_concat, henq]
  have hlen : (enqueued (tr ++ [st])).length = (enqueued tr).length + 1 := by rw [henq', List.length_append]; rfl
  have hnext : s.nextRedirectId + 1 = BitVec.ofNat 32 ((enqueued tr).length + 2) := by
    rw [h.nextId]
    exact (BitVec.ofNat_add _ _).symm
  refine ⟨h.maxCount, ?_, ?_, ?_, ?_, ?_, ?_, ?_⟩
  · show (s.redirectQueue ++ [entry]).length ≤ 4096
    rw [List.length_append, List.length_singleton]
    omega
  · show s.queueCount + 1 = BitVec.ofNat 32 (s.redirectQueue ++ [entry]).length
    rw [h.count, List.length_append]
    exact (BitVec.ofNat_add _ _).symm
  · show _ = removed (tr ++ [st]) ++ (s.redirectQueue ++ [entry]).map (·.packet)
    rw [henq', removed_concat, hrem, List.append_nil, List.map_append, List.map_append, h.order, List.append_assoc,
      List.map_singleton, List.map_singleton, hentry]
  · show s.totalRedirects + 1 = _
    rw [hlen, h.total]
    exact (BitVec.ofNat_add _ _).symm
  · rw [rejected_concat, hrej]
    exact h.failed
  · rw [hlen]
    exact hnext
  · intro k info' hk
    rw [henq'] at hk
    rcases Nat.lt_or_ge k (enqueued tr).length with hlt | hge
    · rw [List.getElem?_append_left hlt] at hk
      exact h.ids k info' hk
    · rw [List.getElem?_append_right hge, List.getElem?_singleton] at hk
      split at hk
      next hz =>
        cases hk
        have hk' : k = (enqueued tr).length := by omega
        rw [hid, hnext, hk']
      next => cases hk

theorem toInt_maxCount (h : QueueInv s tr) : s.queueMaxCount.toInt = 4096 := by
  rw [h.maxCount]
  decide

/-- The count is small, and so it is not negative. -/
theorem QueueInv.toInt_count (h : QueueInv s tr) : s.queueCount.toInt = s.redirectQueue.length := by
  have hle := h.bounded
  have hnat : (BitVec.ofNat 32 s.redirectQueue.length).toNat = s.redirectQueue.length := by
    rw [BitVec.toNat_ofNat]
    omega
  rw [h.count, BitVec.toInt_eq_toNat_of_lt, hnat]
  rw [hnat]
  omega

theorem QueueInv.full_iff (h : QueueInv s tr) : s.queueMaxCount.sle s.queueCount = true ↔ 4096 ≤ s.redirectQueue.length := by
  rw [BitVec.sle_iff_toInt_le, toInt_maxCount h, h.toInt_count]
  omega

/-- For how many packets a buffer has room, at most 64. -/
def batchCount (outputLength : BitVec 32) : Nat :=
  (if 64#32 < outputLength / BitVec.ofNat 32 sizeofPacket then 64 else outputLength / BitVec.ofNat 32 sizeofPacket).toNat

theorem batchCount_le (outputLength : BitVec 32) : batchCount outputLength ≤ 64 := by
  rw [batchCount]
  split
  next => decide
  next hfew => exact BitVec.le_def.mp (BitVec.not_lt.mp hfew)

theorem batchCount_eq_zero_iff (outputLength : BitVec 32) : batchCount outputLength = 0 ↔ outputLength.toNat < sizeofPacket := by
  have hdiv : (outputLength / BitVec.ofNat 32 sizeofPacket).toNat = outputLength.toNat / sizeofPacket := BitVec.toNat_udiv
  rw [batchCount]
  split
  next hmany =>
    have hlt : (64#32).toNat < outputLength.toNat / sizeofPacket := hdiv ▸ BitVec.lt_def.mp hmany
    refine iff_of_false (by decide) fun hsmall => ?_
    rw [Nat.div_eq_of_lt hsmall] at hlt
    exact absurd hlt (Nat.not_lt_zero _)
  next =>
    rw [hdiv, Nat.div_eq_zero_iff]
    exact or_iff_right (by decide)

/-- What is fetched are the first entries; an empty batch is reported as `NOT_FOUND`. -/
theorem getPending_eq (s : RedirectService) (outputLength : BitVec 32) :
    ∃ status, s.getPending outputLength = ({ s with
      redirectQueue := s.redirectQueue.drop (batchCount outputLength)
      queueCount := s.queueCount - BitVec.ofNat 32 (s.redirectQueue.take (batchCount outputLength)).length }, status,
        (s.redirectQueue.take (batchCount outputLength)).map (·.packet)) := by
  simp only [RedirectService.getPending, RedirectService.peekBatch, RedirectService.peekLoop_eq, batchCount]
  generalize (if 64#32 < outputLength / BitVec.ofNat 32 sizeofPacket then 64
    else outputLength / BitVec.ofNat 32 sizeofPacket : BitVec 32).toNat = n
  refine ⟨if (s.redirectQueue.take n).isEmpty then .notFound else .success, ?_⟩
  cases hbatch : s.redirectQueue.take n with
  | nil => rfl
  | cons info batch => rfl

theorem queueInv_step (i : QueueInput) (s : RedirectService) (tr : List (StepOf RedirectService QueueInput QueueOutput))
    (h : QueueInv s tr) : QueueInv (queueStep i s).1 (tr ++ [stepOf queueStep i s]) := by
  cases i with
  | enqueue info tickCount =>
    cases info with
    | none => exact h.skip rfl rfl rfl
    | some info =>
      by_cases hfull : s.queueMaxCount.sle s.queueCount = true
      · have hstep : queueStep (.enqueue (some info) tickCount) s =
            ({ s with failedRedirects := s.failedRedirects + 1 }, .enqueued .insufficientResources (some info)) := by
          simp only [queueStep, RedirectService.enqueue, hfull, if_true]
        rw [stepOf, hstep]
        exact h.reject rfl rfl rfl
      · have hroom := mt h.full_iff.mpr hfull
        simp only [stepOf, queueStep, RedirectService.enqueue, hfull]
        exact h.accept { info with redirectId := (s.nextRedirectId + 1).signExtend 64 } (by omega) rfl rfl rfl rfl rfl
  | dequeue out =>
    cases out with
    | false => exact h.skip rfl rfl rfl
    | true =>
      cases hq : s.redirectQueue with
      | nil =>
        have hstep : queueStep (.dequeue true) s = (s, .dequeued .notFound none) := by
          simp only [queueStep, RedirectService.dequeue, hq, if_true]
        rw [stepOf, hstep]
        exact h.skip rfl rfl rfl
      | cons info queue =>
        have hstep : queueStep (.dequeue true) s = ({ s with
            redirectQueue := s.redirectQueue.drop 1
            queueCount := s.queueCount - BitVec.ofNat 32 (s.redirectQueue.take 1).length },
              .dequeued .success (some info)) := by
          simp only [queueStep, RedirectService.dequeue, hq, if_true]
          rfl
        rw [stepOf, hstep]
        refine h.remove 1 rfl rfl ?_
        rw [hq]
        rfl
  | getPending outputLength =>
    obtain ⟨status, hpending⟩ := getPending_eq s outputLength
    have hstep : queueStep (.getPending outputLength) s = ({ s with
        redirectQueue := s.redirectQueue.drop (batchCount outputLength)
        queueCount := s.queueCount - BitVec.ofNat 32 (s.redirectQueue.take (batchCount outputLength)).length },
          .pending status ((s.redirectQueue.take (batchCount outputLength)).map (·.packet)) []) := by
      simp only [queueStep, hpending]
      rfl
    rw [stepOf, hstep]
    exact h.remove (batchCount outputLength) rfl rfl (List.append_nil _)

theorem queueInv_initialized : QueueInv .initialized [] :=
  ⟨rfl, by decide, rfl, rfl, rfl, rfl, rfl, fun k info hk => by simp [enqueued] at hk⟩

/-- Numbers that differ by less than 2³² have different ids. -/
theorem signExtend_ne {i j : Nat} (hij : i < j) (hlt : j - i < 2 ^ 32) :
    (BitVec.ofNat 32 i).signExtend 64 ≠ (BitVec.ofNat 32 j).signExtend 64 := by
  intro heq
  have hint := congrArg BitVec.toInt heq
  rw [BitVec.toInt_signExtend_of_le (by decide), BitVec.toInt_signExtend_of_le (by decide)] at hint
  have hmod := congrArg BitVec.toNat (BitVec.eq_of_toInt_eq hint)
  rw [BitVec.toNat_ofNat, BitVec.toNat_ofNat] at hmod
  omega

/-! ## What comes to the callers -/

/-- What a step takes from the queue comes to its caller, or else it fetches and nothing comes. -/
theorem received_cases (i : QueueInput) (s : RedirectService) :
    delivered [stepOf queueStep i s] = removed [stepOf queueStep i s] ∧ ¬Fetches (stepOf queueStep i s) ∨
      delivered [stepOf queueStep i s] = [] ∧ removed [stepOf queueStep i s] ≠ [] ∧ Fetches (stepOf queueStep i s) := by
  cases i with
  | enqueue info tickCount =>
    refine .inl ⟨rfl, ?_⟩
    rintro ⟨_, hinput, -⟩
    cases hinput
  | dequeue out =>
    refine .inl ⟨rfl, ?_⟩
    rintro ⟨_, hinput, -⟩
    cases hinput
  | getPending outputLength =>
    obtain ⟨status, hpending⟩ := getPending_eq s outputLength
    have hremoved : removed [stepOf queueStep (.getPending outputLength) s] =
        (s.redirectQueue.take (batchCount outputLength)).map (·.packet) := by
      rw [removed, List.flatMap_singleton, stepOf, queueStep, hpending]
    have hfetches : Fetches (stepOf queueStep (.getPending outputLength) s) ↔ s.redirectQueue.take (batchCount outputLength) ≠ [] := by
      rw [ne_eq, List.take_eq_nil_iff, batchCount_eq_zero_iff, not_or, Nat.not_lt]
      constructor
      · rintro ⟨_, hinput, hroom, hqueue⟩
        cases hinput
        exact ⟨hroom, hqueue⟩
      · rintro ⟨hroom, hqueue⟩
        exact ⟨outputLength, rfl, hroom, hqueue⟩
    rw [hremoved, hfetches]
    by_cases hbatch : s.redirectQueue.take (batchCount outputLength) = []
    · rw [hbatch]
      exact .inl ⟨rfl, fun hne => hne rfl⟩
    · exact .inr ⟨rfl, mt List.map_eq_nil_iff.mp hbatch, hbatch⟩

/-- No more comes to the callers than left the queue, and as much only if nothing was fetched. -/
theorem length_delivered {calls : List QueueInput} {s : RedirectService} :
    (delivered (trace queueStep calls s)).length ≤ (removed (trace queueStep calls s)).length ∧
      ((delivered (trace queueStep calls s)).length = (removed (trace queueStep calls s)).length →
        ∀ st ∈ trace queueStep calls s, ¬Fetches st) := by
  induction calls generalizing s with
  | nil => exact ⟨Nat.le_refl _, fun _ st hst => absurd hst List.not_mem_nil⟩
  | cons i calls ih =>
    obtain ⟨hle, heq⟩ := ih (s := (queueStep i s).1)
    have htrace : trace queueStep (i :: calls) s = [stepOf queueStep i s] ++ trace queueStep calls (queueStep i s).1 := rfl
    have hdel : delivered (trace queueStep (i :: calls) s) =
        delivered [stepOf queueStep i s] ++ delivered (trace queueStep calls (queueStep i s).1) := htrace ▸ List.flatMap_append
    have hrem : removed (trace queueStep (i :: calls) s) =
        removed [stepOf queueStep i s] ++ removed (trace queueStep calls (queueStep i s).1) := htrace ▸ List.flatMap_append
    rw [hdel, hrem, List.length_append, List.length_append]
    rcases received_cases i s with ⟨hsame, hnot⟩ | ⟨hnone, hsome, -⟩
    · rw [hsame]
      exact ⟨Nat.add_le_add_left hle _, fun h => List.forall_mem_cons.mpr ⟨hnot, heq (Nat.add_left_cancel h)⟩⟩
    · have hpos := List.length_pos_of_ne_nil hsome
      rw [hnone, List.length_nil]
      exact ⟨by omega, fun h => by omega⟩

theorem delivered_eq_removed {calls : List QueueInput} {s : RedirectService} (h : ∀ st ∈ trace queueStep calls s, ¬Fetches st) :
    delivered (trace queueStep calls s) = removed (trace queueStep calls s) := by
  refine List.flatMap_congr fun st hst => ?_
  obtain ⟨is₁, i, is₂, -, rfl⟩ := mem_trace_iff.mp hst
  have hone : delivered [_] = removed [_] := ((received_cases i _).resolve_right fun hfetch => h _ hst hfetch.2.2).1
  rwa [delivered, removed, List.flatMap_singleton, List.flatMap_singleton] at hone

/-- Whatever is called, in whatever order. -/
theorem queueInv (calls : List QueueInput) :
    QueueInv (run queueStep calls .initialized) (trace queueStep calls .initialized) :=
  history_induct queueInv_step calls queueInv_initialized

end

theorem queue_conserved_iff (calls : List QueueInput) :
    Conserved (run queueStep calls .initialized) (trace queueStep calls .initialized) ↔
      ∀ st ∈ trace queueStep calls .initialized, ¬Fetches st := by
  have h := queueInv calls
  have hlen := congrArg List.length h.order
  rw [List.length_map, List.length_append, List.length_map] at hlen
  constructor
  · intro hconserved
    have hlen' := congrArg List.length hconserved.order
    rw [List.length_map, List.length_append, List.length_map] at hlen'
    exact length_delivered.2 (by omega)
  · intro hnone
    have hdel := delivered_eq_removed hnone
    refine ⟨h.toInt_count, ?_, by rw [hdel]; exact h.order, by rw [hdel, h.total, hlen], h.failed, ?_⟩
    · have hle := h.bounded
      rw [h.toInt_count, toInt_maxCount h]
      omega
    · intro i j a b hij hlt ha hb
      rw [h.ids i a ha, h.ids j b hb]
      exact signExtend_ne (by omega) (by omega)

/-- One entry, and a request with room for one packet: the entry is gone and nothing comes to the caller. -/
theorem fetched_entry_lost : ¬Conserved
    (run queueStep [.enqueue (some ⟨0, 4, [], 0x0100007F, 443, 0, false, .pending, 0⟩) 0, .getPending 568] .initialized)
    (trace queueStep [.enqueue (some ⟨0, 4, [], 0x0100007F, 443, 0, false, .pending, 0⟩) 0, .getPending 568] .initialized) := by
  intro h
  exact absurd (congrArg List.length h.order) (by decide)

end TR.Impl
