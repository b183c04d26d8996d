import SandboxOrchestrator.Lifecycle

/-!
# What a sweep reads

The replies of its four reads, and the view it carries through its two loops.
-/

namespace SandboxOrchestrator

set_option autoImplicit false

theorem World.mem_runningIds_iff {w : World} {sid : Uuid} :
    sid ∈ w.runningIds ↔ w.status sid = some .running := by
  rw [World.status_eq_some]
  simp only [runningIds, List.mem_map, List.mem_filter, decide_eq_true_eq]
  constructor
  · rintro ⟨r, ⟨hr, hst⟩, rfl⟩
    exact ⟨r, World.mem_rows_iff.mp hr, hst⟩
  · rintro ⟨r, hr, hst⟩
    have hid := World.row_id hr
    exact ⟨r, ⟨World.mem_rows_iff.mpr (hid ▸ hr), hst⟩, hid⟩

theorem World.selectRunning_sub {w : World} {actor : Actor} {choice : Choice} {ids : List Uuid}
    (h : (w.perform actor choice .selectRunning).2 = .ids ids) {sid : Uuid} (hs : sid ∈ ids) :
    sid ∈ w.runningIds := by
  simp only [World.perform, Reply.ids.injEq] at h
  split at h
  · rename_i hperm
    exact (List.isPerm_iff.mp hperm).mem_iff.mp (h ▸ hs)
  · exact h ▸ hs

theorem World.listed_of_isSome {w : World} {actor : Actor} {choice : Choice}
    {cs : List RuntimeSandbox} (h : (w.perform actor choice .listSandboxes).2 = .containers cs)
    {sid : Uuid} (hc : (w.container sid).isSome) : sid ∈ cs.map (·.sandboxId) := by
  simp only [World.perform, Reply.containers.injEq] at h
  obtain ⟨c, hc⟩ := Option.isSome_iff_exists.mp hc
  have hid := World.container_id hc
  rw [← h, List.map_map]
  exact List.mem_map.mpr ⟨c, World.mem_containers_iff.mpr (hid.symm ▸ hc), hid⟩

theorem lookup_rows (w : World) (ids : List Uuid) (sid : Uuid) (h : sid ∈ ids) :
    ((w.sandboxes.rows.filter fun r => decide (r.id ∈ ids)).map fun r => (r.id, r.status)).lookup sid =
      w.status sid := by
  unfold World.status World.row KeyedTable.find?
  induction w.sandboxes.rows with
  | nil => rfl
  | cons r rows ih =>
    by_cases hid : r.id = sid
    · subst hid
      simp [h]
    · have hne : (sid == r.id) = false := by simpa using Ne.symm hid
      by_cases hr : r.id ∈ ids
      · simpa [hr, hid, hne, List.lookup_cons] using ih
      · simpa [hr, hid] using ih

theorem lookup_rows_none (w : World) (ids : List Uuid) (sid : Uuid) (h : sid ∉ ids) :
    ((w.sandboxes.rows.filter fun r => decide (r.id ∈ ids)).map fun r => (r.id, r.status)).lookup sid =
      none := by
  rw [List.lookup_eq_none_iff]
  intro x hx
  obtain ⟨r, hr, rfl⟩ := List.mem_map.mp hx
  have hmem := of_decide_eq_true (List.mem_filter.mp hr).2
  simpa using fun he : sid = r.id => h (he ▸ hmem)

def SweepPc.view : SweepPc → Option Snapshot
  | .remove v _ _ _ => some v
  | .settle v _ _ _ => some v
  | .vanish v _ _ => some v
  | .finishStops v => some v
  | _ => none

theorem nextMissing_view (v : Snapshot) (l : List Uuid) :
    (ReconcileSandboxes.nextMissing v l).view = some v := by
  cases l <;> rfl

theorem nextContainer_cases (v : Snapshot) (cs : List RuntimeSandbox) :
    (ReconcileSandboxes.nextContainer v cs = ReconcileSandboxes.nextMissing v v.missing ∧
        ∀ c ∈ cs, v.reason c = none) ∨
      ∃ skipped c reason rest, cs = skipped ++ c :: rest ∧ (∀ c' ∈ skipped, v.reason c' = none) ∧
        v.reason c = some reason ∧ ReconcileSandboxes.nextContainer v cs = .remove v c reason rest := by
  induction cs with
  | nil => exact .inl ⟨rfl, by simp⟩
  | cons c cs ih =>
    unfold ReconcileSandboxes.nextContainer
    split
    · rename_i reason hreason
      exact .inr ⟨[], c, reason, cs, rfl, by simp, hreason, rfl⟩
    · rename_i hnone
      rcases ih with ⟨hnext, hall⟩ | ⟨skipped, c', reason, rest, rfl, hskipped, hreason, hnext⟩
      · exact .inl ⟨hnext, by simpa [hnone] using hall⟩
      · exact .inr ⟨c :: skipped, c', reason, rest, rfl, by simpa [hnone] using hskipped, hreason, hnext⟩

theorem nextContainer_view (v : Snapshot) (cs : List RuntimeSandbox) :
    (ReconcileSandboxes.nextContainer v cs).view = some v := by
  rcases nextContainer_cases v cs with ⟨h, -⟩ | ⟨_, _, _, _, -, -, -, h⟩
  · rw [h, nextMissing_view]
  · rw [h]
    rfl

end SandboxOrchestrator
