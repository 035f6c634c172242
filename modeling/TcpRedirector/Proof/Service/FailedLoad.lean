import TcpRedirector.Proof.Service.Fields
import TcpRedirector.Proof.Service.Load

/-!
# A load that fails

`LoadImpl` assigns to the configuration in use. If the value of some field
cannot be read, the fields before it have been assigned already, so the
configuration is as it was exactly if they all had what the file says
(`failed_load_iff`).
-/

namespace TR.Impl.Service

open ConfigManager

/-- A save reports success. -/
def Saves (x : Platform) (write : Write) (m : ConfigManager) : Prop :=
  ∃ text, x.dump4 m.toJson = .ok text ∧ (write.written text).isSome = true

/-- A load of this file, if it fails, has assigned nothing new. Without a file
it assigns the default configuration, and fails if that cannot be saved. -/
def Harmless (x : Platform) (write : Write) (m : ConfigManager) : Disk → Prop
  | none => Saves x write m.defaultConfig
  | some text => ∀ j what, x.read text = .ok j → configFields.fault (loadSteps x j) = some (.exception what) →
      ∀ a ∈ configFields.applied (loadSteps x j), configFields.Holds a m

theorem saveImpl_fst_iff {x : Platform} {write : Write} {m : ConfigManager} {disk : Disk} :
    (saveImpl x write m disk).1 = true ↔ Saves x write m := by
  rw [saveImpl, Saves]
  cases h : x.dump4 m.toJson with
  | error what => simp
  | ok text => cases hfile : write.written text <;> simp [hfile]

/-- The default configuration has one rule more. -/
theorem defaultConfig_ne (m : ConfigManager) : m.defaultConfig ≠ m := by
  intro h
  have := congrArg (fun m => m.rules.length) h
  simp [defaultConfig] at this

/-- A load that fails leaves the configuration and the rules as they were
exactly if what it had assigned by then was there already. -/
theorem failed_load_iff (x : Platform) (write : Write) (m : ConfigManager) (disk : Disk) :
    ((loadImpl x write m disk).result = some false → (loadImpl x write m disk).manager = m) ↔
      Harmless x write m disk := by
  cases disk with
  | none =>
    show (some (saveImpl x write m.defaultConfig none).1 = some false → m.defaultConfig = m) ↔ _
    rw [Harmless, ← saveImpl_fst_iff]
    cases (saveImpl x write m.defaultConfig none).1 with
    | true => exact iff_of_true (fun h => absurd h (by decide)) rfl
    | false => exact iff_of_false (fun h => defaultConfig_ne m (h rfl)) Bool.false_ne_true
  | some text =>
    cases hread : x.read text with
    | error what =>
      refine iff_of_true (fun _ => ?_) fun j _ hj => ?_
      · simp only [loadImpl, hread]
      · rw [hread] at hj
        cases hj
    | ok j =>
      rw [loadImpl_some hread]
      have hiff := Fields.applyAll_eq_self_iff (s := m) (Fields.nodup_applied (nodup_loadSteps x j))
      rcases hfault : configFields.fault (loadSteps x j) with _ | (what | _)
      · refine iff_of_true (fun h => absurd h (by simp)) fun j' what hj' h => ?_
        cases hread.symm.trans hj'
        cases hfault.symm.trans h
      · refine ⟨fun h j' _ hj' _ => ?_, fun h _ => hiff.mpr (h j what hread hfault)⟩
        cases hread.symm.trans hj'
        exact hiff.mp (h rfl)
      · refine iff_of_true (fun h => absurd h (by simp)) fun j' what hj' h => ?_
        cases hread.symm.trans hj'
        cases hfault.symm.trans h

namespace Demo

/-- `{"proxy": {"host": "10.0.0.1", "port": "x"}}`. -/
def textPort : Json :=
  .object [(ascii "proxy", .object [(ascii "host", .string (ascii "10.0.0.1")), (ascii "port", .string (ascii "x"))])]

end Demo

/-- The port is no number, but the new host is there. -/
theorem failed_load_keeps_host :
    let x := Demo.platform [Demo.textPort] []
    let loaded := loadImpl x .complete {} (some (Demo.textPort.indented 0))
    loaded.result = some false ∧ loaded.manager.config.proxy.host = ascii "10.0.0.1" ∧ loaded.manager ≠ {} := by
  intro x loaded
  have hread : x.read (Demo.textPort.indented 0) = .ok Demo.textPort.reread := by simp [x, Demo.platform]
  have hloaded : loaded = ⟨some false, { config.proxy.host := ascii "10.0.0.1" }, some (Demo.textPort.indented 0)⟩ := by
    show loadImpl x .complete {} (some (Demo.textPort.indented 0)) = _
    rw [loadImpl, hread]
    rfl
  rw [hloaded]
  exact ⟨rfl, rfl, by decide⟩

end TR.Impl.Service
