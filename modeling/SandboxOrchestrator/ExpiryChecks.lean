import SandboxOrchestrator.ListSandboxes
import SandboxOrchestrator.CrashRedeliver
import SandboxOrchestrator.SweepStops

/-!
# The two expiry checks

`start_sandbox` compares the clock with the `expires_at` of the row, to the microsecond;
the reaper compares it with the label, a whole second. The checks agree outside of the
part of a second between the two, and no sweep that reads the clock outside of it
removes a sandbox before its time.
-/

namespace SandboxOrchestrator

set_option autoImplicit false

/-! ## The second of a label -/

/-- The year 10000, in seconds; a `datetime` is before it. -/
def endOfTime : Int := 253402300800

/-- Among binary64 numbers the next whole second is the nearest to `t`. Before the year 2514
there is none with less than a microsecond to it. -/
def RoundsUp (t : Int) : Prop :=
  2 ^ (53 - Nat.log2 (t.toNat / 1000000)) * (1000000 - t.toNat % 1000000) ≤ 1000000

instance (t : Int) : Decidable (RoundsUp t) := inferInstanceAs (Decidable (_ ≤ _))

/-- The clock is not between the expiry and the second of its label, and the platform can
tell that second. -/
structure Clear (py : Python) (t now : Int) : Prop where
  before : ¬RoundsUp t → py.beyond (t / 1000000) = none ∧ (now < t / 1000000 * 1000000 ∨ t ≤ now)
  after : RoundsUp t → py.beyond (t / 1000000 + 1) = none ∧ t / 1000000 + 1 < endOfTime ∧
    (now < t ∨ (t / 1000000 + 1) * 1000000 ≤ now)

instance (py : Python) (t now : Int) : Decidable (Clear py t now) :=
  decidable_of_iff
    ((¬RoundsUp t → py.beyond (t / 1000000) = none ∧ (now < t / 1000000 * 1000000 ∨ t ≤ now)) ∧
      (RoundsUp t → py.beyond (t / 1000000 + 1) = none ∧ t / 1000000 + 1 < endOfTime ∧
        (now < t ∨ (t / 1000000 + 1) * 1000000 ≤ now)))
    ⟨fun h => ⟨h.1, h.2⟩, fun h => ⟨h.before, h.after⟩⟩

/-- A `datetime` after 1970, as every POST gives its row. -/
abbrev Postable (t : Int) : Prop := 0 ≤ t ∧ t < endOfTime * 1000000

theorem wholeSeconds_natCast (n : Nat) :
    wholeSeconds n = (Rounding.truncated (52 - Nat.log2 (n / 1000000)) n 1000000 : Nat) := by
  cases n with
  | zero => decide
  | succ n =>
    have hsign : Int.sign ((n + 1 : Nat) : Int) = 1 := Int.sign_eq_one_of_pos (by omega)
    rw [wholeSeconds, hsign, Int.one_mul, Int.natAbs_natCast]

theorem wholeSeconds_eq {t : Int} (ht : 0 ≤ t) (hend : t < endOfTime * 1000000) :
    wholeSeconds t = if RoundsUp t then t / 1000000 + 1 else t / 1000000 := by
  obtain ⟨n, rfl⟩ := Int.eq_ofNat_of_zero_le ht
  have hlog : Nat.log2 (n / 1000000) < 52 := by
    have hn : n < 253402300800000000 := by simpa [endOfTime] using hend
    rcases Nat.eq_zero_or_pos (n / 1000000) with hzero | hpos
    · rw [hzero]
      decide
    · rw [Nat.log2_lt (by omega)]
      omega
  rw [wholeSeconds_natCast, Rounding.truncated_eq (by omega) (by decide)]
  have hk : 52 - Nat.log2 (n / 1000000) + 1 = 53 - Nat.log2 (n / 1000000) := by omega
  have hcond : RoundsUp n ↔
      2 ^ (52 - Nat.log2 (n / 1000000) + 1) * (1000000 - n % 1000000) ≤ 1000000 := by
    rw [hk, RoundsUp, Int.toNat_natCast]
  by_cases hup : RoundsUp n
  · rw [if_pos hup, if_pos (hcond.mp hup)]
    omega
  · rw [if_neg hup, if_neg fun h => hup (hcond.mpr h)]
    omega

/-! ## The two decisions -/

theorem Snapshot.reason_eq_expired {v : Snapshot} {c : RuntimeSandbox} :
    v.reason c = some .expired ↔ c.expiresAt ≤ v.now := by
  unfold Snapshot.reason
  split
  · rename_i h
    exact iff_of_true rfl h
  · rename_i h
    refine iff_of_false ?_ h
    split
    · simp
    · split <;> simp

theorem StartSandbox.expires_iff {settings : Settings} {d : StartSandbox} {r : Sandbox} {now t : Time}
    (hpc : d.pc = .expiryCheck r) :
    d.resume settings now (.time t) = some ([], .goto { d with pc := .expire }) ↔ r.expiresAt ≤ t := by
  unfold StartSandbox.resume
  rw [hpc]
  by_cases h : r.expiresAt ≤ t
  · simp [h]
  · simp [h]

/-- The labels of a sandbox that expires at `t` are read back as its id and an expiry for
which, at `now`, a sweep decides what a start job decides from the row. -/
def ChecksAgree (py : Python) (settings : Settings) (sid : Uuid) (t now : Time) : Prop :=
  ∃ c, py.listSandboxes [⟨some (sandboxLabels sid t)⟩] = .ok [c] ∧ c.sandboxId = sid ∧
    ∀ (v : Snapshot) (d : StartSandbox) (r : Sandbox), v.now = now → r.expiresAt = t →
      d.pc = .expiryCheck r → (v.reason c = some .expired ↔
        d.resume settings now (.time now) = some ([], .goto { d with pc := .expire }))

theorem wholeSeconds_bounds {t : Int} (ht : 0 ≤ t) (hend : t < endOfTime * 1000000) :
    0 ≤ wholeSeconds t ∧ wholeSeconds t ≤ endOfTime := by
  have hmax : t < 253402300800000000 := hend
  rw [wholeSeconds_eq ht hend, endOfTime]
  split
  · omega
  · omega

theorem listSandboxes_sandboxLabels (py : Python) (sid : Uuid) {t : Time} (ht : 0 ≤ t)
    (hend : t < endOfTime * 1000000) (c : RuntimeSandbox) :
    py.listSandboxes [⟨some (sandboxLabels sid t)⟩] = .ok [c] ↔
      py.beyond (wholeSeconds t) = none ∧ wholeSeconds t < endOfTime ∧ c = ⟨sid, labelExpiry t⟩ := by
  obtain ⟨hpos, hle⟩ := wholeSeconds_bounds ht hend
  obtain ⟨n, hn⟩ := Int.eq_ofNat_of_zero_le hpos
  have hlength : (Nat.toDigits 10 n).length ≤ 640 := by
    have hsmall : n < 10 ^ 12 := by
      have hmax : wholeSeconds t ≤ 253402300800 := hle
      omega
    have htwelve := (Nat.length_toDigits_le_iff (by decide) (by decide)).mpr hsmall
    omega
  have hfold : py.listSandboxes [⟨some (sandboxLabels sid t)⟩] =
      py.addListed [] ⟨some (sandboxLabels sid t)⟩ := by
    rw [Python.listSandboxes, List.foldlM_cons]
    cases py.addListed [] ⟨some (sandboxLabels sid t)⟩ <;> rfl
  rw [hfold, Python.addListed, py.readLabels_sandboxLabels sid hn hlength, labelExpiry, hn]
  unfold Python.fromTimestamp endOfTime
  cases hbeyond : py.beyond n with
  | some e => rcases py.beyond_class n e hbeyond with rfl | rfl <;> simp [Except.map]
  | none =>
    by_cases hyear : (n : Int) < 253402300800
    · have hrange : -62135596800 ≤ (n : Int) ∧ (n : Int) < 253402300800 := ⟨by omega, hyear⟩
      rw [if_pos hrange]
      simp [Except.map, hyear, eq_comm]
    · have hrange : ¬(-62135596800 ≤ (n : Int) ∧ (n : Int) < 253402300800) := fun h => hyear h.2
      rw [if_neg hrange]
      simp [Except.map, hyear]

theorem clear_iff (py : Python) {t now : Int} (ht : 0 ≤ t) (hend : t < endOfTime * 1000000) :
    Clear py t now ↔ py.beyond (wholeSeconds t) = none ∧ wholeSeconds t < endOfTime ∧
      (wholeSeconds t * 1000000 ≤ now ↔ t ≤ now) := by
  have hmax : t < 253402300800000000 := hend
  rw [wholeSeconds_eq ht hend]
  by_cases hup : RoundsUp t
  · rw [if_pos hup]
    constructor
    · intro h
      obtain ⟨hbeyond, hyear, hnow⟩ := h.after hup
      exact ⟨hbeyond, hyear, by omega⟩
    · rintro ⟨hbeyond, hyear, hnow⟩
      exact ⟨fun h => absurd hup h, fun _ => ⟨hbeyond, hyear, by omega⟩⟩
  · rw [if_neg hup]
    constructor
    · intro h
      obtain ⟨hbeyond, hnow⟩ := h.before hup
      exact ⟨hbeyond, by unfold endOfTime; omega, by omega⟩
    · rintro ⟨hbeyond, -, hnow⟩
      exact ⟨fun _ => ⟨hbeyond, by omega⟩, fun h => absurd h hup⟩

/-- The checks agree exactly when the clock is not between the expiry and its label. -/
theorem checksAgree_iff (py : Python) (settings : Settings) (sid : Uuid) {t : Time} (now : Time)
    (ht : 0 ≤ t) (hend : t < endOfTime * 1000000) :
    ChecksAgree py settings sid t now ↔ Clear py t now := by
  rw [clear_iff py ht hend]
  constructor
  · rintro ⟨c, hlist, -, hagree⟩
    obtain ⟨hbeyond, hyear, rfl⟩ := (listSandboxes_sandboxLabels py sid ht hend c).mp hlist
    refine ⟨hbeyond, hyear, ?_⟩
    have hsame := hagree ⟨[], [], [], now⟩
      ⟨sid, 1, .stable, .expiryCheck ⟨sid, .http, .queued, none, none, 0, .stable, t, none, 0, 0⟩⟩ _
      rfl rfl rfl
    rwa [Snapshot.reason_eq_expired, StartSandbox.expires_iff rfl] at hsame
  · rintro ⟨hbeyond, hyear, hagree⟩
    refine ⟨⟨sid, labelExpiry t⟩, ?_, rfl, fun v d r hv hr hpc => ?_⟩
    · exact (listSandboxes_sandboxLabels py sid ht hend _).mpr ⟨hbeyond, hyear, rfl⟩
    · subst hv hr
      rw [Snapshot.reason_eq_expired, StartSandbox.expires_iff hpc]
      exact hagree

/-! ## What the containers of a run are labelled with -/

variable {settings : Settings} {before : Containers} {s t : State} {a : Action} {w w' : World}

/-- The container was there before the program, or has the label of its row. -/
def World.Dated (before : Containers) (w : World) (c : RuntimeSandbox) : Prop :=
  (before.find? c.sandboxId).isSome ∨ w.Labelled c

/-- The sandbox is foreign to the program, or its `expires_at` is over. -/
def World.Past (before : Containers) (w : World) (sid : Uuid) : Prop :=
  (before.find? sid).isSome ∨ ∃ r, w.row sid = some r ∧ r.expiresAt ≤ w.now

def StartPc.sandbox? : StartPc → Option Sandbox
  | .expiryCheck r => some r
  | .pickUp r => some r
  | .inspect r => some r
  | .removeLeftover r _ => some r
  | .create r => some r
  | .conflict r => some r
  | .startObject r _ => some r
  | .reload r _ => some r
  | .waitReady r _ => some r
  | .succeed r _ => some r
  | _ => none

/-- Labels, deliveries and sweeps have the `expires_at` of the row. -/
structure Dates (before : Containers) (s : State) : Prop where
  containers : ∀ sid c, s.world.container sid = some c → s.world.Dated before c.seen
  starts : ∀ pid d r, s.proc pid = some (.start d) → d.pc.sandbox? = some r →
    ∃ r', s.world.row d.sandboxId = some r' ∧ r'.expiresAt = r.expiresAt
  listed : ∀ pid p cs, s.proc pid = some (.sweep p) → p.pc.listed = some cs →
    ∀ c ∈ cs, s.world.Dated before c

theorem dates_init (now : Time) (before : Containers) (nextObject : Nat) :
    Dates before (State.init now before nextObject) where
  containers sid c hc := by
    left
    rw [Container.seen, World.container_id hc]
    exact Option.isSome_of_mem hc
  starts _ _ _ h := by cases h
  listed _ _ _ h := by cases h

theorem World.Dated.forward {c : RuntimeSandbox} (h : w.Dated before c) (hf : RowsForward w w') :
    w'.Dated before c :=
  h.imp_right fun hl => hl.forward hf

theorem StartSandbox.sandbox_of_goes {d : StartSandbox} {pc pc' : StartPc} {reply : Reply}
    {r : Sandbox} (h : d.Goes settings pc reply pc') (hr : pc'.sandbox? = some r) :
    pc.sandbox? = some r ∨ (pc = .get ∧ reply = .row (some r)) := by
  cases h with
  | startable r' st => cases hr; exact .inr ⟨rfl, rfl⟩
  | late => cases hr
  | launchFailed => cases hr
  | retrying => cases hr
  | failing => cases hr
  | unwanted => cases hr
  | _ => exact .inl hr

theorem ContainerChange.seen {proc : Proc} {sid : Uuid} {c : Container}
    (h : ContainerChange w proc.request sid (some c)) :
    (∃ c₀, w.container sid = some c₀ ∧ c₀.seen = c.seen) ∨
      ∃ d r, proc = .start d ∧ d.pc = .create r ∧ c.seen = ⟨d.sandboxId, labelExpiry r.expiresAt⟩ := by
  generalize hx : some c = x at h
  cases h with
  | same => exact .inl ⟨c, hx.symm, rfl⟩
  | removed => cases hx
  | created time isCreate absent =>
    cases hx
    obtain ⟨d, rfl, rfl, r, hpc⟩ := Proc.start_of_create isCreate
    refine .inr ⟨d, r, rfl, hpc, ?_⟩
    simp only [Proc.request, StartSandbox.request, hpc, Request.create.injEq, true_and] at isCreate
    rw [isCreate]
    rfl
  | started n port c₀ isStart found =>
    cases hx
    exact .inl ⟨c₀, found, rfl⟩

theorem Stepped.seen (h : Stepped settings s t a) {sid : Uuid} {c : Container}
    (hc : t.world.container sid = some c) :
    (∃ c₀, s.world.container sid = some c₀ ∧ c₀.seen = c.seen) ∨
      ∃ pid d r, s.proc pid = some (.start d) ∧ d.pc = .create r ∧
        c.seen = ⟨d.sandboxId, labelExpiry r.expiresAt⟩ := by
  have hcalled : ∀ {pid : Nat} {how : How} {choice : Choice} {proc : Proc},
      s.proc pid = some proc → (s.worldAfter proc how choice).container sid = some c →
      (∃ c₀, s.world.container sid = some c₀ ∧ c₀.seen = c.seen) ∨
        ∃ pid d r, s.proc pid = some (.start d) ∧ d.pc = .create r ∧
          c.seen = ⟨d.sandboxId, labelExpiry r.expiresAt⟩ := by
    intro pid how choice proc found hafter
    have hchange := containerChange_after s.world proc.actor how choice proc.request sid
    rw [State.worldAfter] at hafter
    rw [hafter] at hchange
    refine hchange.seen.imp_right ?_
    rintro ⟨d, r, rfl, hpc, hseen⟩
    exact ⟨pid, d, r, found, hpc, hseen⟩
  cases h with
  | tick _ _ result => subst result; exact .inl ⟨c, hc, rfl⟩
  | spawned pid proc world drawn spawn absent world_eq =>
    refine .inl ⟨c, ?_, rfl⟩
    rw [world_eq] at hc
    cases spawn <;> exact hc
  | dropped _ _ _ _ result => subst result; exact .inl ⟨c, hc, rfl⟩
  | died id c' found result =>
    subst result
    have hgone : (if id = sid then none else s.world.container sid) = some c :=
      (s.world.container_removeContainer id sid).symm.trans hc
    by_cases hid : id = sid
    · simp [hid] at hgone
    · rw [if_neg hid] at hgone
      exact .inl ⟨c, hgone, rfl⟩
  | exited id c' found result =>
    subst result
    have hset := (World.container_setContainer sid).symm.trans hc
    obtain ⟨c₀, hc₀, rfl⟩ := Option.map_eq_some_iff.mp hset
    refine .inl ⟨c₀, hc₀, ?_⟩
    split <;> rfl
  | resumed pid how choice proc proc' events found lives resume world_eq =>
    rw [world_eq, World.record_container] at hc
    exact hcalled found hc
  | ended pid how choice proc outcome events found lives resume world_eq =>
    rw [world_eq, World.settleJob_container, World.record_container] at hc
    exact hcalled found hc
  | killed pid e r choice proc found world_eq =>
    rw [world_eq, World.settleJob_container] at hc
    exact hcalled found hc

theorem World.row_of_get {actor : Actor} {how : How} {choice : Choice} {sid : Uuid}
    {x : Option Sandbox} (lives : ∀ e r, how ≠ .killed e r)
    (h : w.reply actor how choice (.get sid) = .row x) : w.row sid = x :=
  Reply.row.inj (World.after_of_reply lives h (by simp)).2

theorem World.container_of_listed {actor : Actor} {how : How} {choice : Choice}
    {cs : List RuntimeSandbox} {c : RuntimeSandbox} (lives : ∀ e r, how ≠ .killed e r)
    (h : w.reply actor how choice .listSandboxes = .containers cs) (hc : c ∈ cs) :
    ∃ c₀, w.container c₀.sandboxId = some c₀ ∧ c₀.seen = c := by
  have hcs : w.containers.rows.map Container.seen = cs :=
    Reply.containers.inj (World.after_of_reply lives h (by simp)).2
  obtain ⟨c₀, hc₀, rfl⟩ := List.mem_map.mp (hcs ▸ hc)
  exact ⟨c₀, World.mem_containers_iff.mp hc₀, rfl⟩

theorem dates_step (hs : Dates before s) (h : step settings s a = some t) : Dates before t := by
  have hst := stepped h
  have hf := hst.forward
  refine ⟨fun sid c hc => ?_, fun pid d r hd hr => ?_, fun pid p cs hp hcs c hc => ?_⟩
  · rcases hst.seen hc with ⟨c₀, hc₀, hseen⟩ | ⟨pid, d, r, hd, hpc, hseen⟩
    · exact hseen ▸ (hs.containers sid c₀ hc₀).forward hf
    · obtain ⟨r', hr', hexp⟩ := hs.starts pid d r hd (by rw [hpc]; rfl)
      rw [hseen, ← hexp]
      exact .inr (World.Labelled.forward ⟨r', hr', rfl⟩ hf)
  · have hforward : ∀ id, (∃ r', s.world.row id = some r' ∧ r'.expiresAt = r.expiresAt) →
        ∃ r', t.world.row id = some r' ∧ r'.expiresAt = r.expiresAt := by
      rintro id ⟨r', hr', hexp⟩
      obtain ⟨r'', hr'', hfr⟩ := hf id r' hr'
      exact ⟨r'', hr'', hfr.expiresAt.trans hexp⟩
    cases hst.came hd with
    | stayed found => exact hforward _ (hs.starts pid d r found hr)
    | spawned world drawn spawn =>
      obtain ⟨job, -, -, rfl⟩ := spawn.of_start
      cases hr
    | resumed how choice old events isAwait found lives goes =>
      generalize hreply : s.world.reply _ how choice _ = reply at goes
      obtain ⟨d₀, pc, rfl, rfl, hgoes⟩ := goes.of_start
      rcases StartSandbox.sandbox_of_goes hgoes hr with hold | ⟨hpc, rfl⟩
      · exact hforward _ (hs.starts pid d₀ r found hold)
      · simp only [Proc.request, StartSandbox.request, hpc] at hreply
        exact hforward _ ⟨r, World.row_of_get lives hreply, rfl⟩
  · cases hst.came hp with
    | stayed found => exact (hs.listed pid p cs found hcs c hc).forward hf
    | spawned world drawn spawn =>
      obtain ⟨-, rfl⟩ := spawn.of_sweep
      cases hcs
    | resumed how choice old events isAwait found lives goes =>
      generalize hreply : s.world.reply _ how choice _ = reply at goes
      obtain ⟨p₀, rfl, hgoes⟩ := goes.of_sweep
      rcases ReconcileSandboxes.listed_of_goes hgoes hcs with hold | ⟨⟨running, hpc⟩, rfl⟩
      · exact (hs.listed pid p₀ cs found hold c hc).forward hf
      · simp only [Proc.request, ReconcileSandboxes.request, hpc] at hreply
        obtain ⟨c₀, hc₀, rfl⟩ := World.container_of_listed lives hreply hc
        exact (hs.containers _ c₀ hc₀).forward hf

/-! ## No sweep is early -/

/-- Those of the containers that have expired as the sweep sees it. -/
def Snapshot.expired (v : Snapshot) (cs : List RuntimeSandbox) : List Uuid :=
  (cs.filter fun c => decide (v.reason c = some .expired)).map (·.sandboxId)

/-- The sandboxes a sweep is to remove as expired, with the one in hand. -/
def SweepPc.expiring : SweepPc → List Uuid
  | .remove v c .expired rest => c.sandboxId :: v.expired rest
  | .remove v _ _ rest => v.expired rest
  | .settle v c .expired rest => c.sandboxId :: v.expired rest
  | .settle v _ _ rest => v.expired rest
  | _ => []

theorem nextMissing_expiring (v : Snapshot) (l : List Uuid) :
    (ReconcileSandboxes.nextMissing v l).expiring = [] := by
  cases l <;> rfl

theorem nextContainer_expiring (v : Snapshot) (cs : List RuntimeSandbox) :
    (ReconcileSandboxes.nextContainer v cs).expiring = v.expired cs := by
  induction cs with
  | nil => exact nextMissing_expiring v v.missing
  | cons c cs ih =>
    unfold ReconcileSandboxes.nextContainer
    split
    · rename_i reason hreason
      cases reason <;> simp [SweepPc.expiring, Snapshot.expired, hreason]
    · rename_i hreason
      rw [ih]
      simp [Snapshot.expired, hreason]

/-- Each reading of the clock by a sweep is clear of the rows of its containers, and each by
a delivery of its row. -/
def readsClear (py : Python) (s : State) : Action → Bool
  | .await pid _ _ =>
    match s.proc pid with
    | some (.sweep ⟨_, .clock _ cs _⟩) => cs.all fun c => (s.world.row c.sandboxId).all fun r =>
        decide (Postable r.expiresAt ∧ Clear py r.expiresAt s.world.now)
    | some (.start ⟨_, _, _, .expiryCheck r⟩) =>
      decide (Postable r.expiresAt ∧ Clear py r.expiresAt s.world.now)
    | _ => true
  | _ => true

def ReadsClear (py : Python) (s : State) (a : Action) (_ : State) : Prop := readsClear py s a = true

instance (py : Python) (s : State) (a : Action) (t : State) : Decidable (ReadsClear py s a t) :=
  inferInstanceAs (Decidable (_ = true))

structure Timely (before : Containers) (s : State) : Prop where
  expiring : ∀ pid p, s.proc pid = some (.sweep p) → ∀ sid ∈ p.pc.expiring,
    s.world.Past before sid
  reaped : ∀ sid, .reaped .expired sid ∈ s.world.log → s.world.Past before sid

theorem timely_init (now : Time) (before : Containers) (nextObject : Nat) :
    Timely before (State.init now before nextObject) where
  expiring _ _ h := by cases h
  reaped _ h := by cases h

theorem World.Past.forward {sid : Uuid} (h : w.Past before sid) (hf : RowsForward w w')
    (hnow : w.now ≤ w'.now) : w'.Past before sid := by
  refine h.imp_right ?_
  rintro ⟨r, hr, hexp⟩
  obtain ⟨r', hr', hfr⟩ := hf sid r hr
  exact ⟨r', hr', hfr.expiresAt ▸ Int.le_trans hexp hnow⟩

theorem ReconcileSandboxes.expiring_of_reaped {p : ReconcileSandboxes} {reply : Reply}
    {events : List Event} {next : Next ReconcileSandboxes} {sid : Uuid}
    (h : p.resume reply = some (events, next)) (he : .reaped .expired sid ∈ events) :
    sid ∈ p.pc.expiring := by
  obtain ⟨n, pc⟩ := p
  unfold ReconcileSandboxes.resume at h
  split at h
  all_goals simp only [count, Option.some.injEq, Prod.mk.injEq, reduceCtorEq] at h
  all_goals
    obtain ⟨rfl, -⟩ := h
    simp at he
  obtain ⟨rfl, rfl⟩ := he
  subst ‹pc = _›
  exact List.mem_cons_self

theorem Stepped.reaped (h : Stepped settings s t a) {sid : Uuid}
    (he : .reaped .expired sid ∈ t.world.log) :
    .reaped .expired sid ∈ s.world.log ∨
      ∃ pid p, s.proc pid = some (.sweep p) ∧ sid ∈ p.pc.expiring := by
  refine (h.mem_log_of_own rfl (by simp) he).imp_right ?_
  rintro ⟨pid, how, choice, proc, events, next, -, found, -, resume, hown | ⟨outcome, -, -, hended⟩⟩
  · have hemits := Proc.resume_emits resume _ hown
    cases proc with
    | sweep p =>
      obtain ⟨⟨es, next'⟩, hx, hx'⟩ := Option.map_eq_some_iff.mp resume
      cases hx'
      exact ⟨pid, p, found, ReconcileSandboxes.expiring_of_reaped hx hown⟩
    | _ => cases hemits
  · cases proc <;> cases hended

theorem ReconcileSandboxes.expiring_of_goes {p p' : ReconcileSandboxes} {reply : Reply} {sid : Uuid}
    (h : p.Goes reply p') (hs : sid ∈ p'.pc.expiring) :
    sid ∈ p.pc.expiring ∨ ∃ n running cs rows now c, p = ⟨n, .clock running cs rows⟩ ∧
      reply = .time now ∧ c ∈ cs ∧ c.sandboxId = sid ∧ c.expiresAt ≤ now := by
  cases h with
  | clocked n running cs rows now =>
    rw [nextContainer_expiring] at hs
    obtain ⟨c, hc, rfl⟩ := List.mem_map.mp hs
    obtain ⟨hc, hexpired⟩ := List.mem_filter.mp hc
    exact .inr ⟨n, running, cs, rows, now, c, rfl, rfl, hc, rfl,
      Snapshot.reason_eq_expired.mp (of_decide_eq_true hexpired)⟩
  | removed n v c reason rest b => cases reason <;> exact .inl hs
  | settled n v c reason rest b =>
    rw [nextContainer_expiring] at hs
    cases reason with
    | expired => exact .inl (List.mem_cons_of_mem _ hs)
    | _ => exact .inl hs
  | vanished => rw [nextMissing_expiring] at hs; cases hs
  | kept => rw [nextMissing_expiring] at hs; cases hs
  | _ => cases hs

theorem timely_step {py : Python} (hd : Dates before s) (hs : Timely before s)
    (hclear : ReadsClear py s a t) (h : step settings s a = some t) : Timely before t := by
  have hst := stepped h
  have hkept : ∀ sid, s.world.Past before sid → t.world.Past before sid :=
    fun sid hpast => hpast.forward hst.forward hst.now_le
  refine ⟨fun pid p hp sid hsid => hkept sid ?_, fun sid he => hkept sid ?_⟩
  · cases hst.came hp with
    | stayed found => exact hs.expiring pid p found sid hsid
    | spawned world drawn spawn =>
      obtain ⟨-, rfl⟩ := spawn.of_sweep
      cases hsid
    | resumed how choice old events isAwait found lives goes =>
      generalize hreply : s.world.reply _ how choice _ = reply at goes
      obtain ⟨p₀, rfl, hgoes⟩ := goes.of_sweep
      rcases ReconcileSandboxes.expiring_of_goes hgoes hsid with
        hold | ⟨n, running, cs, rows, now, c, rfl, rfl, hc, rfl, hexpired⟩
      · exact hs.expiring pid p₀ found sid hold
      · obtain rfl : s.world.now = now := Reply.time.inj (World.after_of_reply lives hreply (by simp)).2
        refine (hd.listed pid _ cs found rfl c hc).imp_right ?_
        rintro ⟨r, hr, hlabel⟩
        subst isAwait
        simp only [ReadsClear, readsClear, found, List.all_eq_true, Option.all_eq_true,
          decide_eq_true_eq] at hclear
        obtain ⟨⟨hpos, hend⟩, hclear⟩ := hclear c hc r hr
        obtain ⟨-, -, hagree⟩ := (clear_iff py hpos hend).mp hclear
        rw [hlabel] at hexpired
        exact ⟨r, hr, hagree.mp hexpired⟩
  · rcases hst.reaped he with hold | ⟨pid, p, found, hsid⟩
    · exact hs.reaped sid hold
    · exact hs.expiring pid p found sid hsid

/-- A delivery that passes its expiry check passes it before the label of its row is over. -/
def PassesBeforeLabel (s : State) (_ : Action) (t : State) : Prop :=
  ∀ pid d r, s.proc pid = some (.start d) → d.pc = .expiryCheck r →
    t.proc pid = some (.start { d with pc := .pickUp r }) → s.world.now < labelExpiry r.expiresAt

theorem passes_before_label {py : Python} (hclear : ReadsClear py s a t)
    (h : step settings s a = some t) : PassesBeforeLabel s a t := by
  intro pid d r hd hpc hp
  obtain ⟨sid, jobTry, pool, pc⟩ := d
  obtain rfl : pc = .expiryCheck r := hpc
  cases (stepped h).came hp with
  | stayed found => cases found.symm.trans hd
  | spawned world drawn spawn absent => cases absent.symm.trans hd
  | resumed how choice old events isAwait found lives goes =>
    cases hd.symm.trans found
    subst isAwait
    generalize hreply : s.world.reply _ how choice _ = reply at goes
    cases goes with
    | start d₀ reply pc goes =>
      cases goes with
      | inTime r now ahead =>
        obtain rfl : s.world.now = now := Reply.time.inj (World.after_of_reply lives hreply (by simp)).2
        simp only [ReadsClear, readsClear, found, decide_eq_true_eq] at hclear
        obtain ⟨⟨hpos, hend⟩, hclear⟩ := hclear
        obtain ⟨-, -, hagree⟩ := (clear_iff py hpos hend).mp hclear
        by_contra hover
        exact Int.not_le.mpr ahead (hagree.mp (Int.not_lt.mp hover))

/-! ## The two checks agree -/

/-- For one expiry and one reading of the clock the checks agree exactly when the reading is
clear. In a run whose readings are clear no sweep counts a sandbox as expired before its
`expires_at`, or has one to remove as expired, and no delivery passes its check when the
reaper already takes the sandbox for expired. -/
theorem expiry_checks_agree (py : Python) (settings : Settings) :
    (∀ (sid : Uuid) (t now : Time), Postable t →
      (ChecksAgree py settings sid t now ↔ Clear py t now)) ∧
    (∀ (start : Time) (containers : Containers) (nextObject : Nat) (as : List Action) (s : State),
      run settings (State.init start containers nextObject) as = some s →
      Along settings Fresh (State.init start containers nextObject) as →
      Along settings (ReadsClear py) (State.init start containers nextObject) as →
      (∀ sid r, s.world.row sid = some r → .reaped .expired sid ∈ s.world.log →
        r.expiresAt ≤ s.world.now) ∧
      (∀ pid p r, s.proc pid = some (.sweep p) → ∀ sid ∈ p.pc.expiring, s.world.row sid = some r →
        r.expiresAt ≤ s.world.now) ∧
      Along settings PassesBeforeLabel (State.init start containers nextObject) as) := by
  refine ⟨fun sid t now ht => checksAgree_iff py settings sid now ht.1 ht.2, ?_⟩
  intro start containers nextObject as s hrun hfresh hclear
  obtain ⟨-, htimely⟩ := LabelledRuns.invariant (I := fun u => Dates containers u ∧ Timely containers u)
    (fun u a v hu ha hstep => ⟨dates_step hu.1 hstep, timely_step hu.1 hu.2 ha hstep⟩)
    ⟨dates_init .., timely_init ..⟩ hclear hrun
  have hpast : ∀ sid r, s.world.row sid = some r → s.world.Past containers sid →
      r.expiresAt ≤ s.world.now := by
    intro sid r hr hpast
    have hnone := foreign_of_fresh (Threaded.along_steps hfresh []) (Threaded.run_steps hrun []) hr
    obtain ⟨r', hr', hexp⟩ := hpast.resolve_left (by simp [hnone])
    cases hr.symm.trans hr'
    exact hexp
  refine ⟨fun sid r hr he => hpast sid r hr (htimely.reaped sid he),
    fun pid p r hp sid hsid hr => hpast sid r hr (htimely.expiring pid p hp sid hsid), ?_⟩
  exact LabelledRuns.along_of_invariant (P := ReadsClear py) (I := fun _ => True)
    (fun _ _ _ _ _ _ => trivial) (fun u a v _ ha hstep => passes_before_label ha hstep) trivial hclear

/-- Sandbox 1 is posted and started, and a sweep begins at `now`. -/
def sweptAt (now : Time) : List Action :=
  posted 0 1 ++ .ok 0 :: started 1 1 ++ .tick now :: .sweep 2 :: List.replicate 7 (.ok 2)

/-- A POST at half a second, swept the minute after at half a second again. -/
theorem expiry_checks_agree_over :
    ChecksAgree linux64 ⟨3, 10, "localhost"⟩ 5 1700000000000000 1699999999999999 ∧
      ∃ s r, run ⟨3, 10, "localhost"⟩ (State.init 500000 KeyedTable.empty 0) (sweptAt 60500000) =
          some s ∧ s.world.row 1 = some r ∧ .reaped .expired 1 ∈ s.world.log ∧
        r.expiresAt ≤ s.world.now := by
  obtain ⟨hagree, hsweeps⟩ := expiry_checks_agree linux64 ⟨3, 10, "localhost"⟩
  refine ⟨(hagree 5 _ _ (by decide)).mpr (by decide), ?_⟩
  have hrun : (run ⟨3, 10, "localhost"⟩ (State.init 500000 KeyedTable.empty 0)
      (sweptAt 60500000)).any (fun s => (s.world.row 1).isSome &&
        decide (.reaped .expired 1 ∈ s.world.log)) = true := by decide
  obtain ⟨s, hs, hp⟩ := LabelledRuns.exists_run hrun
  simp only [Bool.and_eq_true, decide_eq_true_eq] at hp
  obtain ⟨r, hr⟩ := Option.isSome_iff_exists.mp hp.1
  have hover := (hsweeps 500000 _ 0 (sweptAt 60500000) s hs (LabelledRuns.along_of_check (by decide))
    (LabelledRuns.along_of_check (by decide))).1
  exact ⟨s, r, hs, hr, hp.2, hover 1 r hr hp.2⟩

/-- Before that half second the reaper takes the sandbox for expired, and a start job does
not; a sweep removes and stops it. -/
theorem expiry_checks_differ :
    ¬ChecksAgree linux64 ⟨3, 10, "localhost"⟩ 1 60500000 60200000 ∧
      ∃ s r, run ⟨3, 10, "localhost"⟩ (State.init 500000 KeyedTable.empty 0) (sweptAt 60200000) =
          some s ∧ s.world.row 1 = some r ∧ .reaped .expired 1 ∈ s.world.log ∧
        s.world.container 1 = none ∧ r.status = .stopped ∧ s.world.now < r.expiresAt := by
  constructor
  · rw [checksAgree_iff linux64 _ 1 _ (by decide) (by decide)]
    decide
  · have hrun : (run ⟨3, 10, "localhost"⟩ (State.init 500000 KeyedTable.empty 0)
        (sweptAt 60200000)).any (fun s => decide (.reaped .expired 1 ∈ s.world.log) &&
          decide (s.world.container 1 = none) && (s.world.row 1).any fun r =>
            decide (r.status = .stopped) && decide (s.world.now < r.expiresAt)) = true := by decide
    obtain ⟨s, hs, hp⟩ := LabelledRuns.exists_run hrun
    simp only [Bool.and_eq_true, decide_eq_true_eq, Option.any_eq_true] at hp
    obtain ⟨⟨hlog, hcontainer⟩, r, hr, hst, hearly⟩ := hp
    exact ⟨s, r, hs, hr, hlog, hcontainer, hst, hearly⟩

end SandboxOrchestrator
