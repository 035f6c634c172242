import Mathlib.Logic.Function.Iterate
import TcpRedirector.Impl.Capture.ProcessTree
import TcpRedirector.Proof.Capture.DirectRule

/-!
# What the walk up the process tree finds

An iteration of the outer loop ends after a pass over the snapshot
(`within_scan`), and there are ten of them at most (`within_whileTest`), so the
walk returns. It has then met the first ten elements of the chain of ancestors
(`reachesTarget_iff`), whatever the snapshot looks like.
-/

namespace TR.Impl

/-! ## The chain of ancestors -/

/-- The snapshot's process of this number, its first entry; 0 is none. -/
def present (snapshot : List ProcessEntry) (pid : BitVec 32) : Option ProcessEntry :=
  if pid = 0 then none else snapshot.find? fun pe => pe.processId == pid

/-- Element `k` of the chain that starts at `pid` and goes on to the parent as
long as the process is present. -/
def ancestor (snapshot : List ProcessEntry) : Nat → BitVec 32 → Option (BitVec 32)
  | 0, pid => (present snapshot pid).map fun _ => pid
  | k + 1, pid => (present snapshot pid).bind fun pe => ancestor snapshot k pe.parentProcessId

variable {c : Capture} {snapshot : List ProcessEntry} {target pid : BitVec 32}

theorem reachesTarget_of_none (n : Nat) (h : present snapshot pid = none) :
    reachesTarget snapshot target (n + 1) pid = false := by
  rw [present] at h
  rw [reachesTarget]
  split
  next => rfl
  next hpid => rw [if_neg hpid] at h; rw [h]

theorem reachesTarget_of_some (n : Nat) {pe : ProcessEntry} (h : present snapshot pid = some pe) :
    reachesTarget snapshot target (n + 1) pid =
      if pe.processId = target then true else reachesTarget snapshot target n pe.parentProcessId := by
  rw [present] at h
  rw [reachesTarget]
  split
  next hpid => rw [if_pos hpid] at h; cases h
  next hpid => rw [if_neg hpid] at h; rw [h]

theorem processId_of_present {pe : ProcessEntry} (h : present snapshot pid = some pe) : pe.processId = pid := by
  rw [present] at h
  split at h
  · cases h
  · exact beq_iff_eq.mp (List.find?_some (p := fun pe : ProcessEntry => pe.processId == pid) h)

/-- The walk of `n` processes meets the first `n` elements of the chain. -/
theorem reachesTarget_iff (n : Nat) (pid : BitVec 32) :
    reachesTarget snapshot target n pid = true ↔ ∃ k < n, ancestor snapshot k pid = some target := by
  induction n generalizing pid with
  | zero =>
    refine iff_of_false Bool.false_ne_true ?_
    rintro ⟨k, hk, -⟩
    omega
  | succ n ih =>
    cases hpresent : present snapshot pid with
    | none =>
      rw [reachesTarget_of_none n hpresent]
      refine iff_of_false Bool.false_ne_true ?_
      rintro ⟨k, -, hk⟩
      cases k with
      | zero =>
        rw [ancestor, hpresent] at hk
        cases hk
      | succ k =>
        rw [ancestor, hpresent] at hk
        cases hk
    | some pe =>
      have hpid := processId_of_present hpresent
      have hzero : ancestor snapshot 0 pid = some pid := by rw [ancestor, hpresent, Option.map_some]
      have hsucc (k : Nat) : ancestor snapshot (k + 1) pid = ancestor snapshot k pe.parentProcessId := by
        rw [ancestor, hpresent, Option.bind_some]
      rw [reachesTarget_of_some n hpresent]
      by_cases htarget : pe.processId = target
      · rw [if_pos htarget]
        exact iff_of_true rfl ⟨0, by omega, by rw [hzero, ← hpid, htarget]⟩
      · rw [if_neg htarget, ih]
        constructor
        · rintro ⟨k, hk, h⟩
          exact ⟨k + 1, by omega, (hsucc k).trans h⟩
        · rintro ⟨k, hk, h⟩
          cases k with
          | zero =>
            rw [hzero, ← hpid] at h
            exact absurd (Option.some.inj h) htarget
          | succ k => exact ⟨k, by omega, (hsucc k).symm.trans h⟩

/-! ## The loops -/

/-- The walk comes from `w` to `w'` in at most `n` steps. -/
def Within (c : Capture) (snapshot : List ProcessEntry) (n : Nat) (w w' : Walk) : Prop :=
  ∃ k ≤ n, (walkStep c snapshot)^[k] w = w'

theorem Within.refl (n : Nat) (w : Walk) : Within c snapshot n w w := ⟨0, Nat.zero_le n, rfl⟩

theorem Within.head {n : Nat} {w w' : Walk} (h : Within c snapshot n (walkStep c snapshot w) w') :
    Within c snapshot (n + 1) w w' := by
  obtain ⟨k, hk, h⟩ := h
  exact ⟨k + 1, by omega, h⟩

theorem Within.trans {m n : Nat} {w w' w'' : Walk} (h : Within c snapshot m w w') (h' : Within c snapshot n w' w'') :
    Within c snapshot (m + n) w w'' := by
  obtain ⟨k, hk, rfl⟩ := h
  obtain ⟨k', hk', rfl⟩ := h'
  refine ⟨k + k', by omega, ?_⟩
  rw [Nat.add_comm, Function.iterate_add_apply]

/-- The inner loop ends: with the parent of the process, or with the walk. -/
theorem within_scan (currentPid : BitVec 32) (depth : Nat) (entries : List ProcessEntry) :
    Within c snapshot (entries.length + 1) (.scan currentPid depth entries)
      (match entries.find? fun pe => pe.processId == currentPid with
      | none => .returned .direct
      | some pe =>
        if pe.processId = c.targetPid then .returned c.proxied else .whileTest pe.parentProcessId (depth + 1)) := by
  induction entries with
  | nil => exact .head (.refl 0 _)
  | cons pe entries ih =>
    refine .head ?_
    by_cases hpid : pe.processId = currentPid
    · rw [List.find?_cons_of_pos (p := fun pe : ProcessEntry => pe.processId == currentPid) (beq_iff_eq.mpr hpid), walkStep,
        if_pos hpid]
      exact .refl _ _
    · rw [List.find?_cons_of_neg (p := fun pe : ProcessEntry => pe.processId == currentPid) (fun h => hpid (beq_iff_eq.mp h)),
        walkStep, if_neg hpid]
      exact ih

/-- The outer loop ends: with `n` iterations left, after `n` passes at most. -/
theorem within_whileTest (n : Nat) {depth : Nat} (hdepth : depth + n = 10) (pid : BitVec 32) :
    Within c snapshot (n * (snapshot.length + 2) + 1) (.whileTest pid depth)
      (.returned (if reachesTarget snapshot c.targetPid n pid then c.proxied else .direct)) := by
  induction n generalizing depth pid with
  | zero =>
    refine .head ?_
    rw [walkStep, if_neg (by omega)]
    exact .refl _ _
  | succ n ih =>
    have hlen : (n + 1) * (snapshot.length + 2) + 1 =
        snapshot.length + 1 + (n * (snapshot.length + 2) + 1) + 1 := by
      rw [Nat.add_mul]
      omega
    rw [hlen]
    refine .head ?_
    by_cases hpid : pid = 0
    · rw [walkStep, if_neg (fun h => h.1 hpid), reachesTarget_of_none n (if_pos hpid)]
      exact .refl _ _
    · rw [walkStep, if_pos ⟨hpid, by omega⟩]
      refine (within_scan pid depth snapshot).trans ?_
      have hpresent : present snapshot pid = snapshot.find? fun pe => pe.processId == pid := if_neg hpid
      rw [← hpresent]
      cases hfound : present snapshot pid with
      | none =>
        rw [reachesTarget_of_none n hfound]
        exact .refl _ _
      | some pe =>
        rw [reachesTarget_of_some n hfound]
        by_cases htarget : pe.processId = c.targetPid
        · simp only [if_pos htarget]
          exact .refl _ _
        · simp only [if_neg htarget]
          exact ih (by omega) pe.parentProcessId

/-! ## The verdict -/

/-- The steps 2 to 5 of `CheckProcessRule` leave the process to the walk: it is
another one, its path is known and not the target's, and no rule blocks or
redirects it. -/
structure Capture.LeftToWalk (c : Capture) (cfg : Config) (os : Os) (rules : List Rule) (pid : BitVec 32)
    (procPath : WString) : Prop where
  own : pid ≠ cfg.currentProcessId
  path : os.imageName pid = some procPath
  ruled : cfg.ruleEngine = true →
    RuleEngine.matchRule rules (shortName procPath) procPath ≠ .block ∧
      RuleEngine.matchRule rules (shortName procPath) procPath ≠ .proxy
  target : wcsicmpEq procPath c.targetProcessPath = false

/-- The verdict is then the result of the walk. -/
theorem judgePid_of_leftToWalk {cfg : Config} {os : Os} {rules : List Rule} {procPath : WString}
    (h : c.LeftToWalk cfg os rules pid procPath) (htarget : c.targetPid ≠ 0) :
    (c.judgePid cfg os rules pid).1.action =
      if reachesTarget (os.snapshot.getD []) c.targetPid 10 pid then c.proxied else .direct := by
  have haction : ∀ a, (if cfg.ruleEngine then RuleEngine.matchRule rules (shortName procPath) procPath else .direct) = a →
      a ≠ .block ∧ a ≠ .proxy := by
    rintro a rfl
    split
    next hengine => exact h.ruled hengine
    next => exact ⟨by decide, by decide⟩
  simp only [Capture.judgePid, if_neg h.own, h.path]
  split
  next hblock => exact absurd rfl (haction _ hblock).1
  next hproxy => exact absurd rfl (haction _ hproxy).2
  next =>
    rw [if_neg (by rw [h.target]; exact Bool.false_ne_true)]
    split
    next hreach =>
      rw [if_pos hreach.2]
      rfl
    next hreach =>
      rw [if_neg fun hr => hreach ⟨htarget, hr⟩]

/-- The walk returns, from every process of every snapshot, and says PROXY
exactly if the target is among the first ten of the process's ancestors, itself
included; and this is the verdict of `CheckProcessRule` if it comes to it. -/
theorem processTree_iff (c : Capture) (snapshot : List ProcessEntry) (pid : BitVec 32) (htarget : c.targetPid ≠ 0)
    (hproxy : c.proxyConfigured = true) :
    (∃ n ≤ 10 * (snapshot.length + 2) + 1, ∃ action,
        (walkStep c snapshot)^[n] (.whileTest pid 0) = .returned action ∧
        (action = .proxy ↔ ∃ k < 10, ancestor snapshot k pid = some c.targetPid)) ∧
      ∀ cfg os rules procPath, c.LeftToWalk cfg os rules pid procPath → os.snapshot = some snapshot →
        ((c.judgePid cfg os rules pid).1.action = .proxy ↔ ∃ k < 10, ancestor snapshot k pid = some c.targetPid) := by
  have hiff : (if reachesTarget snapshot c.targetPid 10 pid then c.proxied else .direct) = .proxy ↔
      ∃ k < 10, ancestor snapshot k pid = some c.targetPid := by
    rw [← reachesTarget_iff]
    cases reachesTarget snapshot c.targetPid 10 pid with
    | true =>
      rw [if_pos rfl, Capture.proxied, if_pos hproxy]
      exact iff_of_true rfl rfl
    | false =>
      rw [if_neg Bool.false_ne_true]
      exact iff_of_false (by decide) Bool.false_ne_true
  refine ⟨?_, fun cfg os rules procPath hleft hsnapshot => ?_⟩
  · have hwithin : Within c snapshot (10 * (snapshot.length + 2) + 1) (.whileTest pid 0) _ :=
      within_whileTest 10 (Nat.zero_add 10) pid
    obtain ⟨n, hn, hwalk⟩ := hwithin
    exact ⟨n, hn, _, hwalk, hiff⟩
  · rw [judgePid_of_leftToWalk hleft htarget, hsnapshot]
    exact hiff

namespace Demo

/-- A child of the target, in a snapshot whose processes are each other's parents. -/
def family : List ProcessEntry := [⟨8, 4⟩, ⟨4, 8⟩]

def redirecting : Capture := { targetPid := 4, proxyHost := [112], proxyPort := 3128 }

end Demo

theorem processTree_child :
    ∃ n ≤ 10 * (2 + 2) + 1, ∃ action,
      (walkStep Demo.redirecting Demo.family)^[n] (.whileTest 8 0) = .returned action ∧ action = .proxy := by
  obtain ⟨n, hn, action, hwalk, hiff⟩ := (processTree_iff Demo.redirecting Demo.family 8 (by decide) (by decide)).1
  exact ⟨n, hn, action, hwalk, hiff.mpr ⟨1, by decide, by decide⟩⟩

end TR.Impl
