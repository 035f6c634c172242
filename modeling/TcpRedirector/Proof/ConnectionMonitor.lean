import TcpRedirector.Impl.ConnectionTracker
import TcpRedirector.Proof.Framework.Run

/-!
# The snapshots of the tracker

Who sees only the snapshots has the current connections, or no connection is
left (`shown_or_empty`): the snapshot of an empty tracker is the sign that
there is nothing to deliver. So the picture is right in every state of a run
iff no step removes the last connection (`shows_current_iff`).
-/

namespace TR.Impl.ConnectionMonitor

open ConnectionTracker (Op)

/-- What an observer shows that knew the connections `known` when its callback
was installed: the last snapshot. -/
def shown (known : List ConnectionRecord) (m : ConnectionMonitor) : List ConnectionRecord :=
  m.delivered.getLast?.getD known

/-- The observer shows exactly the connections stored. -/
def ShowsCurrent (known : List ConnectionRecord) (m : ConnectionMonitor) : Prop :=
  (shown known m).Perm m.tracker.getActiveConnections

/-- The step removes the only connection there is. -/
def RemovesLast (st : StepOf ConnectionMonitor Op Unit) : Prop :=
  ∃ id, st.input = .remove id ∧ st.pre.tracker.ids = [id]

/-! ## One operation -/

variable {known : List ConnectionRecord} {m : ConnectionMonitor}

theorem buildSnapshotLocked_eq (t : ConnectionTracker) : t.buildSnapshotLocked = t.getActiveConnections := rfl

theorem deliver_nil (m : ConnectionMonitor) : m.deliver [] = m := rfl

/-- After an operation on the tracker the observer shows its connections, unless there is none. -/
theorem shown_deliver (h : m.callback = true) (hne : m.tracker.getActiveConnections ≠ []) :
    shown known (m.deliver m.snapshotLocked) = m.tracker.getActiveConnections := by
  have hs : m.snapshotLocked = m.tracker.getActiveConnections := by
    rw [snapshotLocked, if_pos h, buildSnapshotLocked_eq]
  have hcond : (!m.tracker.getActiveConnections.isEmpty && m.callback) = true := by
    rw [h, Bool.and_true, Bool.not_eq_true', List.isEmpty_eq_false_iff]
    exact hne
  rw [hs, deliver, if_pos hcond, shown, List.getLast?_concat, Option.getD_some]

/-- Without a connection nothing is delivered. -/
theorem deliver_of_empty (h : m.tracker.getActiveConnections = []) : m.deliver m.snapshotLocked = m := by
  have hs : m.snapshotLocked = [] := by
    rw [snapshotLocked, buildSnapshotLocked_eq, h, ite_self]
  rw [hs, deliver_nil]

theorem tracker_deliver (m : ConnectionMonitor) (snapshot : List ConnectionRecord) :
    (m.deliver snapshot).tracker = m.tracker := by
  rw [deliver]
  split <;> rfl

theorem callback_deliver (m : ConnectionMonitor) (snapshot : List ConnectionRecord) :
    (m.deliver snapshot).callback = m.callback := by
  rw [deliver]
  split <;> rfl

theorem getActiveConnections_eq_nil_iff (t : ConnectionTracker) : t.getActiveConnections = [] ↔ t.ids = [] := by
  rw [ConnectionTracker.getActiveConnections, ConnectionTracker.ids, AList.keys, List.map_eq_nil_iff]
  exact List.map_eq_nil_iff.symm

/-- An operation changes the tracker and delivers, or it is an update of an unknown id. -/
theorem step_cases (op : Op) (m : ConnectionMonitor) :
    (∃ t, t = (ConnectionTracker.step op m.tracker).1 ∧
      (step op m).1 = deliver { m with tracker := t } (snapshotLocked { m with tracker := t })) ∨
    ((step op m).1 = m ∧ (ConnectionTracker.step op m.tracker).1 = m.tracker) := by
  cases op with
  | add record => exact .inl ⟨_, rfl, rfl⟩
  | remove id => exact .inl ⟨_, rfl, rfl⟩
  | update id updates =>
    cases hlookup : m.tracker.connections.lookup id with
    | none =>
      right
      simp only [step, updateConnection, ConnectionTracker.step, ConnectionTracker.updateConnection, hlookup, deliver_nil,
        and_self]
    | some record =>
      left
      refine ⟨_, rfl, ?_⟩
      simp only [step, updateConnection, ConnectionTracker.step, hlookup]

/-- The tracker does what it does without a callback. -/
theorem tracker_step (op : Op) (m : ConnectionMonitor) :
    (step op m).1.tracker = (ConnectionTracker.step op m.tracker).1 := by
  rcases step_cases op m with ⟨t, rfl, h⟩ | ⟨h, ht⟩
  · rw [h, tracker_deliver]
  · rw [h, ht]

theorem callback_step (op : Op) (m : ConnectionMonitor) : (step op m).1.callback = m.callback := by
  rcases step_cases op m with ⟨t, -, h⟩ | ⟨h, -⟩
  · rw [h, callback_deliver]
  · rw [h]

theorem ids_of_removesLast {op : Op} (h : RemovesLast (stepOf step op m)) : (step op m).1.tracker.ids = [] := by
  obtain ⟨id, rfl, hids⟩ := h
  have hids : m.tracker.connections.keys = [id] := hids
  rw [tracker_step]
  show (m.tracker.connections.erase id).keys = []
  rw [AList.keys_erase, hids, List.erase_cons_head]

/-- Only the removal of the last connection leaves none where there was one. -/
theorem removesLast_of_ids {op : Op} (h : (step op m).1.tracker.ids = []) :
    m.tracker.ids = [] ∨ RemovesLast (stepOf step op m) := by
  rw [tracker_step] at h
  cases op with
  | add record =>
    have hkeys : (m.tracker.connections.insert record.id record).keys = [] := h
    rw [AList.keys_insert] at hkeys
    exact absurd hkeys (List.cons_ne_nil _ _)
  | update id updates =>
    left
    cases hlookup : m.tracker.connections.lookup id with
    | none =>
      simp only [ConnectionTracker.step, ConnectionTracker.updateConnection, hlookup] at h
      exact h
    | some record =>
      simp only [ConnectionTracker.step, ConnectionTracker.updateConnection, hlookup, ConnectionTracker.ids,
        AList.keys_insert] at h
      exact absurd h (List.cons_ne_nil _ _)
  | remove id =>
    have hkeys : (m.tracker.connections.erase id).keys = [] := h
    rw [AList.keys_erase, List.erase_eq_nil_iff] at hkeys
    rcases hkeys with hnil | hlast
    · exact .inl hnil
    · exact .inr ⟨id, rfl, hlast⟩

/-! ## What an observer shows -/

/-- An operation that leaves connections brings the observer up to date, also
one that has missed the removal of the last connection before. -/
theorem showsCurrent_of_ne_nil (op : Op) (hcallback : m.callback = true)
    (hshows : ShowsCurrent known m ∨ m.tracker.getActiveConnections = [])
    (hne : (step op m).1.tracker.getActiveConnections ≠ []) : ShowsCurrent known (step op m).1 := by
  rcases step_cases op m with ⟨t, -, h⟩ | ⟨h, -⟩
  · rw [h, tracker_deliver] at hne
    rw [h, ShowsCurrent, tracker_deliver, shown_deliver (by exact hcallback) hne]
  · rw [h] at hne ⊢
    exact hshows.resolve_right hne

/-- An operation that leaves none delivers nothing. -/
theorem shown_of_nil (op : Op) (hnil : (step op m).1.tracker.getActiveConnections = []) :
    shown known (step op m).1 = shown known m := by
  rcases step_cases op m with ⟨t, -, h⟩ | ⟨h, -⟩
  · rw [h, tracker_deliver] at hnil
    rw [h, deliver_of_empty hnil]
    rfl
  · rw [h]

/-- A right picture stays right iff the operation does not remove the last connection. -/
theorem showsCurrent_step (op : Op) (hcallback : m.callback = true) (hshows : ShowsCurrent known m) :
    ShowsCurrent known (step op m).1 ↔ ¬ RemovesLast (stepOf step op m) := by
  by_cases hnil : (step op m).1.tracker.getActiveConnections = []
  · rw [ShowsCurrent, shown_of_nil op hnil, hnil]
    have hbefore : (shown known m).Perm [] ↔ m.tracker.ids = [] := by
      rw [List.perm_nil, ← getActiveConnections_eq_nil_iff]
      constructor
      · intro h
        exact (List.nil_perm.mp (h ▸ hshows : ([] : List ConnectionRecord).Perm _))
      · intro h
        exact List.perm_nil.mp (h ▸ hshows : (shown known m).Perm [])
    rw [hbefore]
    constructor
    · rintro hids ⟨id, -, hlast⟩
      exact absurd (hids.symm.trans hlast) (List.cons_ne_nil _ _).symm
    · intro hlast
      exact (removesLast_of_ids ((getActiveConnections_eq_nil_iff _).mp hnil)).resolve_right hlast
  · refine iff_of_true (showsCurrent_of_ne_nil op hcallback (.inl hshows) hnil) fun hlast => hnil ?_
    exact (getActiveConnections_eq_nil_iff _).mpr (ids_of_removesLast hlast)

/-! ## Runs -/

theorem callback_run (ops : List Op) (hcallback : m.callback = true) : (run step ops m).callback = true :=
  run_induct (fun op m h => (callback_step op m).trans h) ops hcallback

/-- In every state of a run the picture is right, or no connection is left. -/
theorem shown_or_empty (ops : List Op) (hcallback : m.callback = true) (hshows : ShowsCurrent known m) :
    ShowsCurrent known (run step ops m) ∨ (run step ops m).tracker.getActiveConnections = [] := by
  induction ops using List.reverseRecOn with
  | nil => exact .inl hshows
  | append_singleton ops op ih =>
    rw [run_concat]
    by_cases hnil : (step op (run step ops m)).1.tracker.getActiveConnections = []
    · exact .inr hnil
    · exact .inl (showsCurrent_of_ne_nil op (callback_run ops hcallback) ih hnil)

/-- The tracker of a run is that of the run without a callback. -/
theorem tracker_run (ops : List Op) (m : ConnectionMonitor) :
    (run step ops m).tracker = run ConnectionTracker.step ops m.tracker := by
  induction ops generalizing m with
  | nil => rfl
  | cons op ops ih => rw [run, run, ih, tracker_step]

/-- From the installation of the callback on, the last snapshot has the current
connections in every state of a run (before the first one: nothing has changed)
iff no step removes the last connection. -/
theorem shows_current_iff (m : ConnectionMonitor) (ops : List Op) :
    (∀ ops', ops' <+: ops →
        ShowsCurrent m.tracker.getActiveConnections (run step ops' m.setOnConnectionsChanged)) ↔
      ∀ st ∈ trace step ops m.setOnConnectionsChanged, ¬ RemovesLast st := by
  have hstart : ShowsCurrent m.tracker.getActiveConnections m.setOnConnectionsChanged := List.Perm.refl _
  rw [forall_prefix_iff ops hstart]
  refine forall_trace_iff (P := fun m' => m'.callback = true ∧ ShowsCurrent m.tracker.getActiveConnections m')
    ?_ ?_ ops ⟨rfl, hstart⟩
  · rintro op m' ⟨hcallback, hshows⟩ hlast
    exact ⟨(callback_step op m').trans hcallback, (showsCurrent_step op hcallback hshows).mpr hlast⟩
  · rintro op m' ⟨hcallback, hshows⟩
    exact showsCurrent_step op hcallback hshows

/-- One connection is added and removed: the callback has got one snapshot,
which still lists it. -/
theorem shows_current_removed :
    let m := run step [.add {}, .remove 0] (setOnConnectionsChanged ⟨ConnectionTracker.empty, false, []⟩)
    m.delivered = [[{}]] ∧ m.tracker.getActiveConnections = [] ∧ ¬ ShowsCurrent [] m := by
  refine ⟨rfl, rfl, fun h => ?_⟩
  exact absurd (List.perm_nil.mp h) (List.cons_ne_nil _ _)

end TR.Impl.ConnectionMonitor
