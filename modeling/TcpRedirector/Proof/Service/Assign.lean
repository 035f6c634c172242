import TcpRedirector.Proof.Service.Fields

/-!
# What a load assigns

The course of `LoadImpl` depends on the file only: what it does to a field of
the configuration is the same from every state. It sets the field to a value of
the file or leaves it as it was (`Acts`), and if it succeeds it has set the
fields of the sections that the file has, and no others (`touches_loadJson`).
-/

namespace TR.Impl.Service.ConfigManager

variable {α β γ : Type}

/-- How a load ends, apart from its state. -/
def outcome : EStateM.Result JsonFault ConfigManager α → Except JsonFault α
  | .ok a _ => .ok a
  | .error e _ => .error e

/-- The state in which it ends. -/
def final : EStateM.Result JsonFault ConfigManager α → ConfigManager
  | .ok _ m => m
  | .error _ m => m

/-- From every state the program ends with `r`, and leaves `f` as it was or
sets it to the value in `o`. -/
structure Acts (f : ConfigManager → β) (p : LoadProg α) (r : Except JsonFault α) (o : Option β) : Prop where
  outcome : ∀ m, outcome (p m) = r
  final : ∀ m, f (final (p m)) = o.getD (f m)

section

variable {f : ConfigManager → β} {p : LoadProg α} {q : α → LoadProg γ}

theorem acts_pure (a : α) : Acts f (pure a) (.ok a) none := ⟨fun _ => rfl, fun _ => rfl⟩

theorem acts_access (r : Except JsonFault α) : Acts f (access r) r none := by
  cases r <;> exact ⟨fun _ => rfl, fun _ => rfl⟩

theorem Acts.bind_ok {a : α} {o o' : Option β} {r : Except JsonFault γ} (hp : Acts f p (.ok a) o) (hq : Acts f (q a) r o') :
    Acts f (p >>= q) r (o'.or o) := by
  have hrun (m : ConfigManager) : ∃ m', p m = .ok a m' ∧ f m' = o.getD (f m) := by
    have hout := hp.outcome m
    have hfinal := hp.final m
    generalize p m = res at hout hfinal
    cases res with
    | ok b m' =>
      cases hout
      exact ⟨m', rfl, hfinal⟩
    | error e m' => cases hout
  have hbind (m : ConfigManager) : ∃ m', (p >>= q) m = q a m' ∧ f m' = o.getD (f m) := by
    obtain ⟨m', hm', hf⟩ := hrun m
    refine ⟨m', ?_, hf⟩
    show EStateM.bind p q m = _
    rw [EStateM.bind, hm']
  constructor
  · intro m
    obtain ⟨m', hm', -⟩ := hbind m
    rw [hm', hq.outcome]
  · intro m
    obtain ⟨m', hm', hf⟩ := hbind m
    rw [hm', hq.final, hf]
    cases o' <;> rfl

theorem Acts.bind_error {e : JsonFault} {o : Option β} (hp : Acts f p (.error e) o) : Acts f (p >>= q) (.error e) o := by
  have hbind (m : ConfigManager) : ∃ m', (p >>= q) m = .error e m' ∧ f m' = o.getD (f m) := by
    have hout := hp.outcome m
    have hfinal := hp.final m
    show ∃ m', EStateM.bind p q m = .error e m' ∧ _
    rw [EStateM.bind]
    generalize p m = res at hout hfinal
    cases res with
    | ok b m' => cases hout
    | error e' m' =>
      cases hout
      exact ⟨m', rfl, hfinal⟩
  constructor
  · intro m
    obtain ⟨m', hm', -⟩ := hbind m
    rw [hm']
    rfl
  · intro m
    obtain ⟨m', hm', hf⟩ := hbind m
    rw [hm']
    exact hf

/-- From every state the program ends in the same way, and if it succeeds it
has set `f` exactly if `b`. -/
def Touches (f : ConfigManager → β) (p : LoadProg α) (b : Bool) : Prop :=
  ∃ r o, Acts f p r o ∧ ∀ a, r = .ok a → o.isSome = b

theorem touches_pure (a : α) : Touches f (pure a) false := ⟨_, _, acts_pure a, fun _ _ => rfl⟩

theorem touches_access (r : Except JsonFault α) : Touches f (access r) false := ⟨_, _, acts_access r, fun _ _ => rfl⟩

theorem Touches.bind {b b' : Bool} (hp : Touches f p b) (hq : ∀ a, Touches f (q a) b') : Touches f (p >>= q) (b || b') := by
  obtain ⟨r, o, hp, ho⟩ := hp
  cases r with
  | error e => exact ⟨_, _, hp.bind_error, fun a ha => by cases ha⟩
  | ok a =>
    obtain ⟨r', o', hq, ho'⟩ := hq a
    refine ⟨_, _, hp.bind_ok hq, fun c hc => ?_⟩
    rw [Option.isSome_or, ho a rfl, ho' c hc, Bool.or_comm]

/-- The program leaves `f` alone. -/
abbrev Keeps (f : ConfigManager → β) (p : LoadProg α) : Prop := Touches f p false

theorem Keeps.bind (hp : Keeps f p) (hq : ∀ a, Keeps f (q a)) : Keeps f (p >>= q) := Touches.bind hp hq

theorem Keeps.before {b : Bool} (hp : Keeps f p) (hq : ∀ a, Touches f (q a) b) : Touches f (p >>= q) b := by
  simpa only [Bool.false_or] using Touches.bind hp hq

/-- An assignment to another field. -/
theorem keeps_assign {r : Except JsonFault α} {set : α → ConfigManager → ConfigManager} (hf : ∀ v m, f (set v m) = f m) :
    Keeps f (assign r set) := by
  refine (touches_access r).bind fun a => ?_
  exact ⟨_, none, ⟨fun _ => rfl, fun m => hf a m⟩, fun _ _ => rfl⟩

/-- An assignment to the field. -/
theorem touches_assign {r : Except JsonFault α} {set : α → ConfigManager → ConfigManager} (g : α → β)
    (hf : ∀ v m, f (set v m) = g v) : Touches f (assign r set) true := by
  refine Keeps.before (touches_access r) fun a => ?_
  exact ⟨_, some (g a), ⟨fun _ => rfl, fun m => hf a m⟩, fun _ _ => rfl⟩

end

/-! ## The steps of a load -/

/-- A step that assigns the field sets it, the others leave it alone. -/
theorem touches_runSteps (f : Field) (l : List Step) : Touches f.get (runSteps l) (decide (f ∈ l.map (·.1))) := by
  induction l with
  | nil => exact touches_pure ()
  | cons s l ih =>
    by_cases hf : f = s.1
    · subst hf
      have hassign : Touches (Field.get s.1) (assign s.2 (configFields.set s.1)) true :=
        touches_assign id fun v m => configFields.get_set s.1 v m
      simp only [List.map_cons, List.mem_cons, true_or, decide_true]
      exact Touches.bind hassign fun _ => ih
    · have hassign : Keeps f.get (assign s.2 (configFields.set s.1)) :=
        keeps_assign fun v m => configFields.get_set_of_ne s.1 f v m hf
      simp only [List.map_cons, List.mem_cons, hf, false_or]
      exact Keeps.before hassign fun _ => ih

theorem touches_loadJson (x : Platform) (j : Json) (f : Field) : Touches f.get (loadJson x j) (j.contains f.sectionKey) := by
  have hmem : decide (f ∈ (loadSteps x j).map (·.1)) = j.contains f.sectionKey := by
    rw [Bool.eq_iff_iff, decide_eq_true_iff, mem_loadSteps_iff]
  rw [loadJson_eq, ← hmem]
  exact touches_runSteps f (loadSteps x j)

theorem touches_host (x : Platform) (j : Json) : Touches (·.config.proxy.host) (loadJson x j) (j.contains "proxy") :=
  touches_loadJson x j .host

theorem touches_port (x : Platform) (j : Json) : Touches (·.config.proxy.port) (loadJson x j) (j.contains "proxy") :=
  touches_loadJson x j .port

theorem touches_authEnabled (x : Platform) (j : Json) :
    Touches (·.config.auth.enabled) (loadJson x j) (j.contains "auth") := touches_loadJson x j .authEnabled

theorem touches_encryptedPassword (x : Platform) (j : Json) :
    Touches (·.config.auth.encryptedPassword) (loadJson x j) (j.contains "auth") := touches_loadJson x j .encryptedPassword

theorem touches_rules (x : Platform) (j : Json) : Touches ConfigManager.rules (loadJson x j) (j.contains "rules") :=
  touches_loadJson x j .rules

/-- What no step assigns is in no file. -/
theorem keeps_loadJson (x : Platform) (j : Json) {f : ConfigManager → β}
    (hf : ∀ g v m, f (configFields.set g v m) = f m) : Keeps f (loadJson x j) := by
  rw [loadJson_eq]
  induction loadSteps x j with
  | nil => exact touches_pure ()
  | cons s l ih => exact Keeps.bind (keeps_assign (hf s.1)) fun _ => ih

/-- The mode of authentication is in no file. -/
theorem keeps_authMode (x : Platform) (j : Json) : Keeps (·.config.auth.authMode) (loadJson x j) :=
  keeps_loadJson x j fun g v m => by cases g <;> rfl

end TR.Impl.Service.ConfigManager
