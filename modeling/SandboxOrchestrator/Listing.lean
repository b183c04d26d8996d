import SandboxOrchestrator.Lifecycle
import SandboxOrchestrator.Library.TopK

/-!
# `GET /sandboxes` over a run

The newest rows first, as many as the request asks for. Rows are never deleted and keep
their `created_at`, so the listing is a window that only moves towards newer sandboxes:
one that fell out of it comes back only where a tie with a listed one lets it.
-/

namespace SandboxOrchestrator

set_option autoImplicit false

structure SandboxOut where
  id : Uuid
  type : SandboxType
  status : SandboxStatus
  deployment : Deployment
  url : Option String
  error : Option String
  attempts : Nat
  expiresAt : Time
  createdAt : Time
  updatedAt : Time
  deriving DecidableEq

def sandboxOut (r : Sandbox) : SandboxOut where
  id := r.id
  type := r.type
  status := r.status
  deployment := r.deployment
  url := r.url
  error := r.error
  attempts := r.attempts
  expiresAt := r.expiresAt
  createdAt := r.createdAt
  updatedAt := r.updatedAt

structure ListLimit where
  limit : Nat
  bounded : 1 ≤ limit ∧ limit ≤ 100

def ListLimit.default : ListLimit := ⟨50, by decide⟩

def World.scan (w : World) (order : List Uuid) : List Sandbox :=
  let ids := w.sandboxes.rows.map (·.id)
  (if order.isPerm ids then order else ids).filterMap w.row

/-- `list_sandboxes`: `order_by(created_at.desc()).limit(limit)`. -/
def listSandboxes (w : World) (order : List Uuid) (limit : ListLimit) : List SandboxOut :=
  (TopK.topK Sandbox.createdAt limit.limit (w.scan order)).map sandboxOut

/-- `get_sandbox`; `none` is a 404. -/
def getSandbox (w : World) (sid : Uuid) : Option SandboxOut := (w.row sid).map sandboxOut

/-! ## One listing -/

theorem World.scan_perm (w : World) (order : List Uuid) : (w.scan order).Perm w.sandboxes.rows := by
  have hrows : (w.sandboxes.rows.map (·.id)).filterMap w.row = w.sandboxes.rows := by
    rw [List.filterMap_map]
    have hself : ∀ r ∈ w.sandboxes.rows, (w.row ∘ fun r => r.id) r = some r :=
      fun r hr => World.mem_rows_iff.mp hr
    rw [List.filterMap_congr hself, List.filterMap_some]
  simp only [scan]
  split
  · rename_i hperm
    have hscan := (List.isPerm_iff.mp hperm).filterMap w.row
    rwa [hrows] at hscan
  · rw [hrows]

theorem World.scan_nodup (w : World) (order : List Uuid) : (w.scan order).Nodup :=
  (w.scan_perm order).nodup_iff.mpr (List.Nodup.of_map _ w.sandboxes.keysNodup)

theorem World.mem_scan {w : World} {order : List Uuid} {r : Sandbox} :
    r ∈ w.scan order ↔ w.row r.id = some r :=
  (w.scan_perm order).mem_iff.trans World.mem_rows_iff

theorem mem_listSandboxes {w : World} {order : List Uuid} {limit : ListLimit} {o : SandboxOut} :
    o ∈ listSandboxes w order limit ↔
      ∃ r ∈ TopK.topK Sandbox.createdAt limit.limit (w.scan order),
        w.row o.id = some r ∧ sandboxOut r = o := by
  simp only [listSandboxes, List.mem_map]
  refine exists_congr fun r => and_congr_right fun hr => (and_iff_right_of_imp ?_).symm
  rintro rfl
  exact World.mem_scan.mp (TopK.mem_of_mem_topK _ hr)

theorem listed_iff {w : World} {order : List Uuid} {limit : ListLimit} {sid : Uuid} {r : Sandbox}
    (hr : w.row sid = some r) :
    (∃ o ∈ listSandboxes w order limit, o.id = sid) ↔
      r ∈ TopK.topK Sandbox.createdAt limit.limit (w.scan order) := by
  constructor
  · rintro ⟨o, ho, rfl⟩
    obtain ⟨r', hmem, hr', -⟩ := mem_listSandboxes.mp ho
    cases hr.symm.trans hr'
    exact hmem
  · intro hmem
    refine ⟨sandboxOut r, List.mem_map_of_mem hmem, World.row_id hr⟩

/-! ## Over a run -/

theorem length_le_countP {w w' : World} (hf : RowsForward w w') {rows : List Sandbox}
    (hnodup : rows.Nodup) (hrows : ∀ r ∈ rows, w.row r.id = some r) {p : Time → Bool}
    (hp : ∀ r ∈ rows, p r.createdAt = true) :
    rows.length ≤ w'.sandboxes.rows.countP fun r => p r.createdAt := by
  have hids : (rows.map (·.id)).Nodup := by
    refine (List.nodup_map_iff_inj_on hnodup).mpr fun r hr r' hr' hid => ?_
    have hrow := hrows r hr
    rw [hid, hrows r' hr'] at hrow
    exact (Option.some.inj hrow).symm
  have hsub : rows.map (·.id) ⊆ (w'.sandboxes.rows.filter fun r => p r.createdAt).map (·.id) := by
    intro sid hsid
    obtain ⟨r, hr, rfl⟩ := List.mem_map.mp hsid
    obtain ⟨r', hr', hfr⟩ := hf _ _ (hrows r hr)
    refine List.mem_map.mpr ⟨r', List.mem_filter.mpr ⟨?_, ?_⟩, hfr.id⟩
    · rw [World.mem_rows_iff, World.row_id hr']
      exact hr'
    · rw [hfr.created]
      exact hp r hr
  have hle := (List.subperm_of_subset hids hsub).length_le
  rwa [List.length_map, List.length_map, ← List.countP_eq_length_filter] at hle

/-- From any state on, whatever the handlers do and in whatever order the database comes by its
rows: a sandbox that is not listed is listed later only on a tie with one that was listed, and a
sandbox is listed, as it then is, while at most `limit` of them are no older than it. -/
theorem listing_moves_forward (settings : Settings) (actions : List Action) (s t : State)
    (h : run settings s actions = some t) (order order' : List Uuid) (limit : ListLimit)
    (sid : Uuid) (r : Sandbox) (hr : s.world.row sid = some r) :
    ((∀ o ∈ listSandboxes s.world order limit, o.id ≠ sid) →
        (∃ o ∈ listSandboxes t.world order' limit, o.id = sid) →
        ∃ o ∈ listSandboxes s.world order limit, o.createdAt = r.createdAt) ∧
      (t.world.sandboxes.rows.countP (fun r' => decide (r.createdAt ≤ r'.createdAt)) ≤ limit.limit →
        ∃ o ∈ listSandboxes t.world order' limit, o.id = sid ∧ getSandbox t.world sid = some o) := by
  have hf := run_forward h
  obtain ⟨r', hr', hfr⟩ := hf sid r hr
  have hmem' : r' ∈ t.world.scan order' := by
    rw [World.mem_scan, World.row_id hr']
    exact hr'
  constructor
  · intro hnot hlater
    by_contra htie
    have hunlisted : r ∉ TopK.topK Sandbox.createdAt limit.limit (s.world.scan order) := by
      intro hmem
      obtain ⟨o, ho, hid⟩ := (listed_iff hr).mpr hmem
      exact hnot o ho hid
    have hscan : r ∈ s.world.scan order := by
      rw [World.mem_scan, World.row_id hr]
      exact hr
    obtain ⟨hfull, hle⟩ := TopK.full_of_not_mem Sandbox.createdAt hscan hunlisted
    -- without a tie the listed rows are all newer, and they are there for good
    have hnewer : ∀ q ∈ TopK.topK Sandbox.createdAt limit.limit (s.world.scan order),
        decide (r.createdAt < q.createdAt) = true := by
      intro q hq
      refine decide_eq_true (lt_of_le_of_ne (hle q hq) fun heq => htie ?_)
      exact ⟨sandboxOut q, List.mem_map_of_mem hq, heq.symm⟩
    have hcount := length_le_countP (p := fun x => decide (r.createdAt < x)) hf
      (TopK.topK_nodup Sandbox.createdAt (s.world.scan_nodup order))
      (fun q hq => World.mem_scan.mp (TopK.mem_of_mem_topK _ hq)) hnewer
    rw [hfull, ← (t.world.scan_perm order').countP_eq, ← hfr.created] at hcount
    exact TopK.not_mem_topK_of_count Sandbox.createdAt hcount ((listed_iff hr').mp hlater)
  · intro hcount
    rw [← (t.world.scan_perm order').countP_eq, ← hfr.created] at hcount
    have hlisted := TopK.mem_topK_of_count Sandbox.createdAt hmem' hcount
    refine ⟨sandboxOut r', List.mem_map_of_mem hlisted, World.row_id hr', ?_⟩
    rw [getSandbox, hr']
    rfl

/-- A sandbox stays listed when a second one is posted after it. -/
theorem listing_moves_forward_posted : ∃ (s t : State) (r : Sandbox),
    s.world.row 1 = some r ∧ t.world.sandboxes.rows.length = 2 ∧
      ∃ o ∈ listSandboxes t.world [2, 1] ListLimit.default, o.id = 1 := by
  have hrun : (run ⟨4, 4, "localhost"⟩ (State.init 0 KeyedTable.empty 0) (posted 0 1)).any
      (fun s => (s.world.row 1).any (fun r => decide (r.createdAt = 0)) &&
        (run ⟨4, 4, "localhost"⟩ s (.tick 5 :: posted 1 2)).any fun t =>
          decide (t.world.sandboxes.rows.length = 2)) = true := by decide
  obtain ⟨s, -, hp⟩ := LabelledRuns.exists_run hrun
  obtain ⟨hrow, hlater⟩ := (Bool.and_eq_true _ _).mp hp
  obtain ⟨r, hr, -⟩ := (Option.any_eq_true _ _).mp hrow
  obtain ⟨t, ht, htwo⟩ := LabelledRuns.exists_run hlater
  have htwo := of_decide_eq_true htwo
  obtain ⟨o, ho, hid, -⟩ := (listing_moves_forward _ _ s t ht [] [2, 1] ListLimit.default 1 r hr).2
    (Nat.le_trans (List.countP_le_length.trans htwo.le) (by decide))
  exact ⟨s, t, r, hr, htwo, o, ho, hid⟩

end SandboxOrchestrator
