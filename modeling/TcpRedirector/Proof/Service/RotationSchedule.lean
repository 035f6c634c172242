import TcpRedirector.Impl.Service.LogRotator
import TcpRedirector.Proof.Framework.Run

/-!
# Scheduled minutes

The turns of the scheduler are at least a minute apart, so a scheduled minute
has at most one, and that one rotates. But they may be further apart than a
minute: one that has none is passed over (`rotated_once_iff`).
-/

namespace TR.Impl.Service.LogRotator

/-- Local time without shifts: a fixed distance from that of the system. -/
def Unshifted (x : Config) (offset : Int) : Prop :=
  ∀ t, (x.localtime t).min = (t + offset) / 60 % 60 ∧ (x.localtime t).hour = (t + offset) / 3600 % 24

/-- The minute of local time, counted from a fixed one. -/
def minuteAt (offset now : Int) : Int := (now / SECOND + offset) / 60

/-- The schedule asks for a rotation in this minute. -/
def Scheduled (x : Config) (m : Int) : Prop :=
  if x.settings.schedule = ascii "hourly" then m % 60 = x.settings.minute
  else m / 60 % 24 = x.settings.hour ∧ m % 60 = x.settings.minute

/-- Sixty sleeps of at least a second each between two turns, and the work of
the first; less than two minutes in all. -/
structure Paced (started : Int) (polls : List Poll) : Prop where
  positive : 0 ≤ started
  first : ∀ p ∈ polls.head?, started + 60 * SECOND ≤ p.now
  next : polls.IsChain fun p q => p.now + p.delay + 60 * SECOND ≤ q.now ∧ q.now < p.now + 120 * SECOND

/-- How often the scheduler rotates in this minute. -/
def rotationsIn (x : Config) (offset m started : Int) (polls : List Poll) : Nat :=
  (trace (poll x) polls started).countP fun st => st.out && minuteAt offset st.input.now == m

section

variable {x : Config} {offset : Int}

/-- A minute after the last rotation the time alone decides. -/
theorem needRotate_iff (henabled : x.settings.enabled = true) (hlocal : Unshifted x offset) {now lastRotate : Int}
    (hnow : 0 ≤ now) (hlast : lastRotate + 60 * SECOND ≤ now) :
    needRotate x now lastRotate = true ↔ Scheduled x (minuteAt offset now) := by
  have helapsed : ¬ (now - lastRotate).tdiv SECOND < 60 := by
    rw [Int.tdiv_eq_ediv_of_nonneg (by simp only [SECOND] at hlast; omega), SECOND]
    simp only [SECOND] at hlast
    omega
  obtain ⟨hmin, hhour⟩ := hlocal (now / SECOND)
  rw [needRotate, if_pos henabled, Int.tdiv_eq_ediv_of_nonneg hnow, Scheduled, minuteAt]
  dsimp only
  rw [if_neg helapsed, hmin, hhour]
  have hhours : (now / SECOND + offset) / 60 / 60 = (now / SECOND + offset) / 3600 := by omega
  split
  · exact beq_iff_eq
  · rw [Bool.and_eq_true, beq_iff_eq, beq_iff_eq, hhours]

/-- By induction on the turns: each comes a minute after the last rotation. -/
theorem rotationsIn_eq (henabled : x.settings.enabled = true) (hlocal : Unshifted x offset) {m : Int}
    (hm : Scheduled x m) {polls : List Poll} {lastRotate : Int} (hpositive : 0 ≤ lastRotate)
    (hfirst : ∀ p ∈ polls.head?, lastRotate + 60 * SECOND ≤ p.now)
    (hnext : polls.IsChain fun p q => p.now + p.delay + 60 * SECOND ≤ q.now) :
    rotationsIn x offset m lastRotate polls = polls.countP fun p => minuteAt offset p.now == m := by
  induction polls generalizing lastRotate with
  | nil => rfl
  | cons p polls ih =>
    have hp : lastRotate + 60 * SECOND ≤ p.now := hfirst p rfl
    have hnow : 0 ≤ p.now := by
      simp only [SECOND] at hp
      omega
    have hrest : ∀ q ∈ polls.head?, p.now + p.delay + 60 * SECOND ≤ q.now := by
      intro q hq
      obtain ⟨polls', rfl⟩ := List.head?_eq_some_iff.mp hq
      exact (List.isChain_cons_cons.mp hnext).1
    have hthis : (needRotate x p.now lastRotate && minuteAt offset p.now == m) = (minuteAt offset p.now == m) := by
      cases hin : minuteAt offset p.now == m with
      | false => exact Bool.and_false _
      | true =>
        rw [(needRotate_iff henabled hlocal hnow hp).mpr (beq_iff_eq.mp hin ▸ hm)]
        rfl
    have hlater : rotationsIn x offset m (poll x p lastRotate).1 polls =
        polls.countP fun p => minuteAt offset p.now == m := by
      refine ih ?_ (fun q hq => ?_) hnext.of_cons
      · rw [poll]
        split
        · split
          · show 0 ≤ p.now + p.delay
            omega
          · exact hpositive
        · exact hpositive
      · have hq' := hrest q hq
        rw [poll]
        split
        · split
          · exact hq'
          · show lastRotate + 60 * SECOND ≤ q.now
            simp only [SECOND] at *
            omega
        · show lastRotate + 60 * SECOND ≤ q.now
          simp only [SECOND] at *
          omega
    have hout : (poll x p lastRotate).2 = needRotate x p.now lastRotate := by
      rw [poll]
      split
      next h => exact h.symm
      next h => exact (Bool.eq_false_iff.mpr h).symm
    rw [List.countP_cons, ← hlater, rotationsIn, trace, List.countP_cons, hout, hthis]
    rfl

/-- Two turns are not in the same minute. -/
theorem countP_minute_le_one {polls : List Poll} (h : polls.Pairwise fun p q => p.now + 60 * SECOND ≤ q.now) (m : Int) :
    (polls.countP fun p => minuteAt offset p.now == m) ≤ 1 := by
  induction polls with
  | nil => exact Nat.zero_le _
  | cons p polls ih =>
    obtain ⟨hp, hrest⟩ := List.pairwise_cons.mp h
    rw [List.countP_cons]
    split
    next hin =>
      have hnone : (polls.countP fun p => minuteAt offset p.now == m) = 0 := by
        rw [List.countP_eq_zero]
        intro q hq hin'
        have hle := hp q hq
        rw [beq_iff_eq, minuteAt] at hin hin'
        simp only [SECOND] at hle hin hin'
        omega
      omega
    next => exact ih hrest

theorem rotated_once_iff (henabled : x.settings.enabled = true) (hlocal : Unshifted x offset) {started : Int}
    {polls : List Poll} (hpaced : Paced started polls) {m : Int} (hm : Scheduled x m) :
    rotationsIn x offset m started polls = 1 ↔ ∃ p ∈ polls, minuteAt offset p.now = m := by
  have hpairwise : polls.Pairwise fun p q => p.now + 60 * SECOND ≤ q.now := by
    have htrans : IsTrans Poll fun p q => p.now + 60 * SECOND ≤ q.now := ⟨fun p q r hpq hqr => by
      simp only [SECOND] at *
      omega⟩
    refine List.isChain_iff_pairwise.mp (hpaced.next.imp fun p q h => ?_)
    have := h.1
    omega
  rw [rotationsIn_eq henabled hlocal hm hpaced.positive hpaced.first (hpaced.next.imp fun p q h => h.1)]
  have hle : (polls.countP fun p => minuteAt offset p.now == m) ≤ 1 := countP_minute_le_one hpairwise m
  have hpos : 0 < (polls.countP fun p => minuteAt offset p.now == m) ↔ ∃ p ∈ polls, minuteAt offset p.now = m := by
    rw [List.countP_pos_iff]
    simp only [beq_iff_eq]
  rw [← hpos]
  omega

end

/-! ## Two schedules -/

/-- Every full hour, in universal time. -/
def fullHours : Config where
  settings := { schedule := ascii "hourly", archive_dir := [] }
  logDir := []
  localtime t := ⟨0, 0, 0, (t / 3600 % 24).toNat, (t / 60 % 60).toNat⟩
  unzip _ := none

theorem unshifted_fullHours : Unshifted fullHours 0 := by
  intro t
  show ((t / 60 % 60).toNat : Int) = (t + 0) / 60 % 60 ∧ ((t / 3600 % 24).toNat : Int) = (t + 0) / 3600 % 24
  omega

theorem rotated_once_iff_hour :
    rotationsIn fullHours 0 60 0 [⟨3540 * SECOND, 0, true⟩, ⟨3601 * SECOND, 0, true⟩, ⟨3700 * SECOND, 0, true⟩] = 1 := by
  refine (rotated_once_iff rfl unshifted_fullHours ⟨by decide, by decide, by decide⟩ ?_).mpr
    ⟨⟨3601 * SECOND, 0, true⟩, by simp, by decide⟩
  rw [Scheduled, if_pos (by decide)]
  decide

/-- A turn every 61 seconds. -/
def everySixtyOne : List Poll := (List.range 61).map fun k => ⟨61 * (k + 1) * SECOND, 0, true⟩

/-- The turns at 3599 and 3660 seconds leave the hour's first minute out. -/
theorem hour_passed_over :
    Paced 0 everySixtyOne ∧ Scheduled fullHours 60 ∧ (∃ p ∈ everySixtyOne, minuteAt 0 p.now < 60) ∧
    (∃ p ∈ everySixtyOne, 60 < minuteAt 0 p.now) ∧ rotationsIn fullHours 0 60 0 everySixtyOne = 0 := by
  refine ⟨⟨by decide, by decide +kernel, by decide +kernel⟩, ?_, by decide +kernel, by decide +kernel, by decide +kernel⟩
  rw [Scheduled, if_pos (by decide)]
  decide

end TR.Impl.Service.LogRotator
