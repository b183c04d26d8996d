import SandboxOrchestrator.Idempotency
import SandboxOrchestrator.Admission

/-!
# A duplicate at the cap

A keyed POST that found no row for its key may find, at its capacity check, that the row
has been committed meanwhile. From there on the request can only be refused, lose its
insert and replay the row, or be cut short; which of them is decided by the count.
-/

namespace SandboxOrchestrator

set_option autoImplicit false

/-! ## A POST ends once -/

structure OneEnd (s : State) : Prop where
  drawn : ∀ key sid outcome, .created key sid outcome ∈ s.world.log → sid ∈ s.drawn
  pending : ∀ p c, s.proc p = some (.create c) → ∀ key outcome,
    .created key c.sandboxId outcome ∉ s.world.log

def Over (sid : Uuid) (s : State) : Prop :=
  sid ∈ s.drawn ∧ ∀ p c, s.proc p = some (.create c) → c.sandboxId ≠ sid

theorem Stepped.created {settings : Settings} {s t : State} {a : Action}
    (h : Stepped settings s t a) {key : Option IdempotencyKey} {sid : Uuid} {outcome : End}
    (he : .created key sid outcome ∈ t.world.log) :
    .created key sid outcome ∈ s.world.log ∨
      ∃ pid how choice c, a = .await pid how choice ∧ s.proc pid = some (.create c) ∧
        c.key = key ∧ c.sandboxId = sid ∧ (∀ e r, how ≠ .killed e r) ∧ t.proc pid = none ∧
        c.Ends settings.sandboxMaxActive c.pc
          (s.world.reply .createSandbox how choice c.request) outcome := by
  refine (h.mem_log_of_end rfl he).imp_right ?_
  rintro ⟨pid, how, choice, proc, outcome', ha, found, lives, gone, ends, he'⟩
  cases ends with
  | create c reply outcome' ends =>
    injection he' with hkey hid hout
    exact ⟨pid, how, choice, c, ha, found, hkey.symm, hid.symm, lives, gone, hout ▸ ends⟩
  | _ => cases he'

theorem oneEnd_step {settings : Settings} {s t : State} {a : Action} (hi : FreshIds s)
    (hs : OneEnd s) (hf : Fresh s a t) (h : step settings s a = some t) : OneEnd t := by
  have hst := stepped h
  refine ⟨fun key sid outcome he => ?_, fun p c hp key outcome he => ?_⟩
  · rcases hst.created he with hold | ⟨pid, how, choice, c, -, found, -, rfl, -⟩
    · exact hst.drawn_mono (hs.drawn key sid outcome hold)
    · exact hst.drawn_mono (hi.proc pid c found)
  · rcases (hst.came hp).create with ⟨body, k, sid, ha, rfl, -⟩ | ⟨c₀, hc₀, hid⟩
    · rcases hst.created he with hold | ⟨pid, how, choice, d, hb, -⟩
      · subst ha
        exact absurd (hs.drawn key _ outcome hold) hf.not_drawn
      · cases ha.symm.trans hb
    · rcases hst.created he with hold | ⟨pid, how, choice, d, -, found, -, hdid, -, gone, -⟩
      · exact hs.pending p c₀ hc₀ key outcome (hid ▸ hold)
      · obtain rfl := hi.unique p pid c₀ d hc₀ found (hid.trans hdid.symm)
        cases gone.symm.trans hp

theorem over_step {settings : Settings} {s t : State} {a : Action} {sid : Uuid} (hs : Over sid s)
    (hf : Fresh s a t) (h : step settings s a = some t) :
    Over sid t ∧ ∀ key outcome, .created key sid outcome ∈ t.world.log ↔
      .created key sid outcome ∈ s.world.log := by
  have hst := stepped h
  refine ⟨⟨hst.drawn_mono hs.1, fun p c hp => ?_⟩, fun key outcome => ⟨fun he => ?_, ?_⟩⟩
  · rcases (hst.came hp).create with ⟨body, k, id, rfl, rfl, -⟩ | ⟨c₀, hc₀, hid⟩
    · rintro rfl
      exact hf.not_drawn hs.1
    · exact hid ▸ hs.2 p c₀ hc₀
  · rcases hst.created he with hold | ⟨pid, how, choice, c, -, found, -, hid, -⟩
    · exact hold
    · exact absurd hid (hs.2 pid c found)
  · exact hst.logChange.mono

theorem over_of_gone {settings : Settings} {s t : State} {a : Action} {pid : Nat}
    {c : CreateSandbox} (hi : FreshIds s) (hf : Fresh s a t) (h : step settings s a = some t)
    (hp : s.proc pid = some (.create c)) (gone : t.proc pid = none) : Over c.sandboxId t := by
  have hst := stepped h
  refine ⟨hst.drawn_mono (hi.proc pid c hp), fun p d hd hid => ?_⟩
  rcases (hst.came hd).create with ⟨body, k, id, rfl, rfl, -⟩ | ⟨d₀, hd₀, hdid⟩
  · exact hf.not_drawn ((show id = c.sandboxId from hid) ▸ hi.proc pid c hp)
  · obtain rfl := hi.unique p pid d₀ c hd₀ hp (hdid.trans hid)
    cases gone.symm.trans hd

/-- The calls of the POST of `sid` succeed; its read of the weight may raise. -/
def ownSucceeds (sid : Uuid) (s : State) : Action → Bool
  | .await pid how _ =>
    match s.proc pid with
    | some (.create c) =>
      decide (c.sandboxId ≠ sid) ||
        match how with
        | .ok => true
        | .raises _ _ => decide (c.pc = .pick)
        | .killed _ _ => false
    | _ => true
  | _ => true

theorem ownSucceeds_of_other {sid : Uuid} {s : State} {a : Action}
    (h : ∀ pid how choice c, a = .await pid how choice → s.proc pid = some (.create c) →
      c.sandboxId ≠ sid) : ownSucceeds sid s a = true := by
  cases a with
  | await pid how choice =>
    simp only [ownSucceeds]
    split
    · rename_i c hp
      simp [h pid how choice c rfl hp]
    · rfl
  | _ => rfl

theorem ownSucceeds_own {s : State} {pid : Nat} {c : CreateSandbox}
    (hp : s.proc pid = some (.create c)) (how : How) (choice : Choice) :
    ownSucceeds c.sandboxId s (.await pid how choice) = true ↔
      how = .ok ∨ ∃ e b, how = .raises e b ∧ c.pc = .pick := by
  cases how <;> simp [ownSucceeds, hp]

theorem over_run {settings : Settings} {sid : Uuid} {s t : State} {as : List Action}
    (hs : Over sid s) (hf : Along settings Fresh s as) (ht : run settings s as = some t) :
    (∀ key outcome, .created key sid outcome ∈ t.world.log ↔
        .created key sid outcome ∈ s.world.log) ∧
      Along settings (fun s a _ => ownSucceeds sid s a = true) s as := by
  induction as generalizing s with
  | nil =>
    cases ht
    exact ⟨fun _ _ => Iff.rfl, trivial⟩
  | cons a as ih =>
    obtain ⟨m, hm, ht⟩ := LabelledRuns.run_cons_eq_some.mp ht
    obtain ⟨hfm, hf⟩ := (LabelledRuns.along_cons hm).mp hf
    obtain ⟨hover, hlog⟩ := over_step hs hfm hm
    obtain ⟨hlog', hown⟩ := ih hover hf ht
    refine ⟨fun key outcome => (hlog' key outcome).trans (hlog key outcome), ?_⟩
    exact (LabelledRuns.along_cons hm).mpr
      ⟨ownSucceeds_of_other fun pid how choice c _ hp => hs.2 pid c hp, hown⟩

/-! ## After the check -/

/-- The program points of a duplicate between the check and its end. -/
def CreatePc.undecided : CreatePc → Bool
  | .pick => true
  | .stamp _ => true
  | .insert _ => true
  | .lostInsert => true
  | _ => false

/-- A POST past its check, with a row of another POST for its key. -/
structure Duplicate (s : State) (pid : Nat) (c : CreateSandbox) (key : IdempotencyKey)
    (sid : Uuid) : Prop where
  found : s.proc pid = some (.create c)
  keyed : c.key = some key
  undecided : c.pc.undecided = true
  original : ∃ r, s.world.row sid = some r ∧ r.idempotencyKey = some key

theorem World.findAlt_of_row {w : World} {sid : Uuid} {r : Sandbox} {key : IdempotencyKey}
    (hr : w.row sid = some r) (hk : r.idempotencyKey = some key) :
    w.sandboxes.findAlt? key = some r := by
  refine (KeyedTable.findAlt?_eq_some_iff _).mpr ⟨World.mem_rows_iff.mpr ?_, hk⟩
  rw [World.row_id hr]
  exact hr

theorem World.insert_taken {w : World} {actor : Actor} {choice : Choice} {sid : Uuid}
    {r r' : Sandbox} {key : IdempotencyKey} (hr : w.row sid = some r)
    (hk : r.idempotencyKey = some key) (hk' : r'.idempotencyKey = some key) :
    (w.perform actor choice (.insert r')).2 = .integrityError := by
  have hnone : w.sandboxes.insert { r' with createdAt := w.now, updatedAt := w.now } = none :=
    (KeyedTable.insert_eq_none_iff _ _).mpr
      (.inr ⟨key, hk', by rw [World.findAlt_of_row hr hk]; rfl⟩)
  simp [World.perform, hnone]

theorem CreateSandbox.pick_goes {cap : Nat} {c : CreateSandbox} {reply : Reply}
    {events : List Event} {outcome : End} (hpc : c.pc = .pick) :
    c.resume cap reply ≠ some (events, .done outcome) := by
  intro h
  simp only [CreateSandbox.resume, hpc] at h
  obtain ⟨dep, -, hdone⟩ := Option.map_eq_some_iff.mp h
  cases hdone

theorem Duplicate.refused {s : State} {pid : Nat} {c : CreateSandbox} {key : IdempotencyKey}
    {sid : Uuid} {r : Sandbox} (hd : Duplicate s pid c key sid) (hk : c.Known s.world)
    (hpc : c.pc = .insert r) (choice : Choice) :
    (s.world.perform .createSandbox choice c.request).2 = .integrityError := by
  obtain ⟨r₀, hr₀, hrk⟩ := hd.original
  simp only [CreateSandbox.Known, hpc] at hk
  simp only [CreateSandbox.request, hpc]
  exact World.insert_taken hr₀ hrk (hk.2.2.trans hd.keyed)

theorem Duplicate.goes {s : State} {pid : Nat} {c : CreateSandbox} {key : IdempotencyKey}
    {sid : Uuid} (hd : Duplicate s pid c key sid) (hk : c.Known s.world) {cap : Nat} {how : How}
    {choice : Choice} {pc : CreatePc} (lives : ∀ e r, how ≠ .killed e r)
    (h : c.Goes cap c.pc (s.world.reply .createSandbox how choice c.request) pc) :
    pc.undecided = true ∧ (how = .ok ∨ ∃ e b, how = .raises e b ∧ c.pc = .pick) := by
  have hundecided := hd.undecided
  have hrefused := fun r (hpc : c.pc = .insert r) => hd.refused hk hpc choice
  generalize hq : s.world.reply _ how choice _ = reply at h
  generalize hpc : c.pc = pc₀ at h hundecided hrefused
  rcases s.world.reply_eq .createSandbox how choice c.request lives with
    ⟨rfl, hreply⟩ | ⟨e, b, rfl, hreply⟩
  · rw [hreply] at hq
    refine ⟨?_, .inl rfl⟩
    cases h with
    | picked => rfl
    | stamped => rfl
    | inserted r => cases (hrefused r rfl).symm.trans hq
    | lost => rfl
    | _ => cases hundecided
  · rw [hreply] at hq
    cases hq
    cases h with
    | picked => exact ⟨rfl, .inr ⟨e, b, rfl, rfl⟩⟩
    | enqueueFailed => cases hundecided

theorem Duplicate.ends {s : State} {pid : Nat} {c : CreateSandbox} {key : IdempotencyKey}
    {sid : Uuid} (hd : Duplicate s pid c key sid) (hk : c.Known s.world) {cap : Nat} {how : How}
    {choice : Choice} {outcome : End} (lives : ∀ e r, how ≠ .killed e r)
    (h : c.Ends cap c.pc (s.world.reply .createSandbox how choice c.request) outcome) :
    (how = .ok ∧ ∃ r, s.world.row sid = some r ∧
        outcome = .answered (.accepted (accepted r true))) ∨
      ∃ e b, how = .raises e b ∧ outcome = .raised e := by
  have hundecided := hd.undecided
  have hrefused := fun r (hpc : c.pc = .insert r) => hd.refused hk hpc choice
  generalize hq : s.world.reply _ how choice _ = reply at h
  rcases s.world.reply_eq .createSandbox how choice c.request lives with
    ⟨rfl, hreply⟩ | ⟨e, b, rfl, hreply⟩
  · rw [hreply] at hq
    refine .inl ⟨rfl, ?_⟩
    obtain ⟨r₀, hr₀, hrk⟩ := hd.original
    have hfind := World.findAlt_of_row hr₀ hrk
    have hkeyed := hd.keyed
    obtain ⟨body, _, sid', pc⟩ := c
    obtain rfl := hkeyed
    cases h with
    | replayedWinner r =>
      simp only [CreateSandbox.request, CreateSandbox.replayRequest, World.perform, hfind,
        Reply.row.injEq, Option.some.injEq] at hq
      exact ⟨r, hq ▸ hr₀, rfl⟩
    | noWinner =>
      simp [CreateSandbox.request, CreateSandbox.replayRequest, World.perform, hfind] at hq
    | taken r keyless => cases keyless
    | raised pc e => exact absurd hq (World.perform_ne_raised _ _ _ _ _)
    | _ => cases hundecided
  · rw [hreply] at hq
    cases hq
    obtain ⟨body, k, sid', pc⟩ := c
    cases h with
    | raised => exact .inr ⟨e, b, rfl, rfl⟩

/-- One step of a duplicate: nothing, a call that succeeds and takes it on or ends it with
the original, or a call that ends it with less. -/
inductive DuplicateStep (s t : State) (a : Action) (c : CreateSandbox) (key : IdempotencyKey)
    (sid : Uuid) : Prop where
  | continues (pid : Nat) (c' : CreateSandbox) (own : ownSucceeds c.sandboxId s a = true)
      (same : c'.sandboxId = c.sandboxId) (next : Duplicate t pid c' key sid)
  | replayed (r : Sandbox) (own : ownSucceeds c.sandboxId s a = true) (id : r.id = sid)
      (finished : Over c.sandboxId t)
      (ends : ∀ outcome, .created (some key) c.sandboxId outcome ∈ t.world.log ↔
        outcome = .answered (.accepted (accepted r true)))
  | lost (own : ownSucceeds c.sandboxId s a = false) (finished : Over c.sandboxId t)
      (ends : ∀ b, .created (some key) c.sandboxId (.answered (.accepted b)) ∉ t.world.log)

theorem duplicate_step {settings : Settings} {s t : State} {a : Action} {pid : Nat}
    {c : CreateSandbox} {key : IdempotencyKey} {sid : Uuid} (hk : Provenance s) (hi : FreshIds s)
    (hone : OneEnd s) (hd : Duplicate s pid c key sid) (hf : Fresh s a t)
    (h : step settings s a = some t) : DuplicateStep s t a c key sid := by
  have hst := stepped h
  have hknown : c.Known s.world := hk.procs pid _ hd.found
  have horiginal : ∃ r, t.world.row sid = some r ∧ r.idempotencyKey = some key := by
    obtain ⟨r, hr, hrk⟩ := hd.original
    obtain ⟨r', hr', hfr⟩ := hst.forward sid r hr
    exact ⟨r', hr', hfr.key.trans hrk⟩
  by_cases hown : ∃ how choice, a = .await pid how choice
  · obtain ⟨how, choice, rfl⟩ := hown
    have hnew : ∀ {outcome}, .created (some key) c.sandboxId outcome ∈ t.world.log →
        (∀ e r, how ≠ .killed e r) ∧ c.Ends settings.sandboxMaxActive c.pc
          (s.world.reply .createSandbox how choice c.request) outcome := by
      intro outcome he
      rcases hst.created he with hold | ⟨q, how', choice', c', ha, hq, -, -, lives, -, ends⟩
      · exact absurd hold (hone.pending pid c hd.found _ _)
      · cases ha
        cases hd.found.symm.trans hq
        exact ⟨lives, ends⟩
    have hlost : ∀ {e b}, how = .raises e b → ∀ {v},
        .created (some key) c.sandboxId (.answered (.accepted v)) ∉ t.world.log := by
      rintro e b rfl v he
      obtain ⟨lives, ends⟩ := hnew he
      rcases hd.ends hknown lives ends with ⟨hok, -⟩ | ⟨_, _, -, hout⟩
      · cases hok
      · cases hout
    cases hst with
    | spawned _ _ _ _ spawn => cases spawn
    | resumed _ _ _ proc proc' events found lives resume world_eq drawn_eq procs =>
      cases hd.found.symm.trans found
      have hgoes := Proc.goes_of_resume resume
      generalize hreply : s.world.reply _ how choice _ = reply at hgoes
      cases hgoes with
      | create _ _ pc goes =>
        rw [← hreply] at goes
        obtain ⟨hundecided, how_ok⟩ := hd.goes hknown lives goes
        exact .continues pid { c with pc := pc } ((ownSucceeds_own hd.found how choice).mpr how_ok)
          rfl ⟨by simp [procs], hd.keyed, hundecided, horiginal⟩
    | ended _ _ _ proc outcome events found lives resume world_eq drawn_eq procs =>
      cases hd.found.symm.trans found
      have hover := over_of_gone hi hf h hd.found (by simp [procs])
      have hends := Proc.ends_of_resume resume
      generalize hreply : s.world.reply _ how choice _ = reply at hends
      cases hends with
      | create _ _ _ ends =>
        rw [← hreply] at ends
        rcases hd.ends hknown lives ends with ⟨rfl, r, hr, rfl⟩ | ⟨e, b, rfl, rfl⟩
        · refine .replayed r ((ownSucceeds_own hd.found _ choice).mpr (.inl rfl)) (World.row_id hr)
            hover fun outcome => ⟨fun he => ?_, ?_⟩
          · rcases hd.ends hknown lives (hnew he).2 with ⟨-, r', hr', hout⟩ | ⟨_, _, hraise, -⟩
            · cases hr.symm.trans hr'
              exact hout
            · cases hraise
          · rintro rfl
            rw [world_eq, World.settleJob_log, World.record_log, Proc.ended, hd.keyed]
            exact List.mem_append_left _ List.mem_cons_self
        · refine .lost ?_ hover fun v => hlost rfl
          refine Bool.eq_false_iff.mpr fun hsucc => ?_
          rcases (ownSucceeds_own hd.found _ choice).mp hsucc with hok | ⟨_, _, -, hpick⟩
          · cases hok
          · obtain ⟨⟨events', next⟩, hx, hx'⟩ := Option.map_eq_some_iff.mp resume
            cases next with
            | goto c' => cases hx'
            | done outcome' => exact CreateSandbox.pick_goes hpick hx
    | killed _ effect requeue _ proc found world_eq drawn_eq procs =>
      refine .lost (Bool.eq_false_iff.mpr fun hsucc => ?_)
        (over_of_gone hi hf h hd.found (by simp [procs])) fun v he => ?_
      · rcases (ownSucceeds_own hd.found _ choice).mp hsucc with hok | ⟨_, _, hraise, -⟩
        · cases hok
        · cases hraise
      · exact (hnew he).1 effect requeue rfl
  · refine .continues pid c (ownSucceeds_of_other ?_) rfl
      ⟨hst.proc_stays hd.found fun how choice ha => hown ⟨how, choice, ha⟩, hd.keyed, hd.undecided,
        horiginal⟩
    rintro q how choice c' rfl hq hid
    obtain rfl := hi.unique q pid c' c hq hd.found hid
    exact hown ⟨how, choice, rfl⟩

/-! ## The whole request -/

def KeysAndEnds (s : State) : Prop := KeysSettled s ∧ OneEnd s

theorem keysAndEnds_step {settings : Settings} {s t : State} {a : Action} (hs : KeysAndEnds s)
    (hf : Fresh s a t) (h : step settings s a = some t) : KeysAndEnds t :=
  ⟨keysSettled_step hs.1 hf h, oneEnd_step hs.1.2.1 hs.2 hf h⟩

theorem keysAndEnds_run {settings : Settings} {now : Time} {containers : Containers}
    {nextObject : Nat} {t : State} {as : List Action}
    (hfresh : Along settings Fresh (State.init now containers nextObject) as)
    (h : run settings (State.init now containers nextObject) as = some t) : KeysAndEnds t := by
  refine LabelledRuns.invariant (I := KeysAndEnds) (P := Fresh)
    (fun _ _ _ hm hf h => keysAndEnds_step hm hf h) ⟨?_, ?_, ?_⟩ hfresh h
  · exact ⟨grounded_init now containers nextObject, freshIds_init now containers nextObject,
      answered_init now containers nextObject⟩
  · intro key sid outcome he
    cases he
  · intro p c hp
    cases hp

/-- The one end of the POST is a 202 with the sandbox `original`, marked as replayed. -/
def ReplayedOnly (s : State) (key : IdempotencyKey) (sid original : Uuid) : Prop :=
  ∃ a : SandboxAccepted, a.sandboxId = original ∧ a.replayed = true ∧
    ∀ outcome, .created (some key) sid outcome ∈ s.world.log ↔ outcome = .answered (.accepted a)

theorem duplicate_run {settings : Settings} {s t : State} {as : List Action} {pid : Nat}
    {c : CreateSandbox} {key : IdempotencyKey} {sid : Uuid} (hs : KeysAndEnds s)
    (hd : Duplicate s pid c key sid) (hf : Along settings Fresh s as)
    (ht : run settings s as = some t)
    (ended : ∀ p d, t.proc p = some (.create d) → d.sandboxId ≠ c.sandboxId) :
    ReplayedOnly t key c.sandboxId sid ↔
      Along settings (fun s a _ => ownSucceeds c.sandboxId s a = true) s as := by
  induction as generalizing s pid c with
  | nil =>
    cases ht
    exact absurd rfl (ended pid c hd.found)
  | cons a as ih =>
    obtain ⟨m, hm, ht⟩ := LabelledRuns.run_cons_eq_some.mp ht
    obtain ⟨hfm, hf⟩ := (LabelledRuns.along_cons hm).mp hf
    have hkm := keysAndEnds_step hs hfm hm
    refine Iff.trans ?_ (LabelledRuns.along_cons hm).symm
    cases duplicate_step hs.1.1.provenance hs.1.2.1 hs.2 hd hfm hm with
    | continues pid' c' own same next =>
      rw [← same] at ended own ⊢
      have hrest := ih hkm next hf ht ended
      exact ⟨fun hr => ⟨own, hrest.mp hr⟩, fun hr => hrest.mpr hr.2⟩
    | replayed r own id hover ends =>
      obtain ⟨hlog, hrest⟩ := over_run hover hf ht
      exact ⟨fun _ => ⟨own, hrest⟩, fun _ => ⟨accepted r true, id, rfl,
        fun outcome => (hlog _ outcome).trans (ends outcome)⟩⟩
    | lost own hover ends =>
      obtain ⟨hlog, -⟩ := over_run hover hf ht
      refine ⟨?_, fun hr => absurd hr.1 (by simp [own])⟩
      rintro ⟨b, -, -, hends⟩
      exact absurd ((hlog _ _).mp ((hends _).mpr rfl)) (ends b)

theorem check_step {settings : Settings} {s t : State} {pid : Nat} {c : CreateSandbox}
    {key : IdempotencyKey} {how : How} {choice : Choice} (hs : KeysAndEnds s)
    (hp : s.proc pid = some (.create c)) (hpc : c.pc = .capacity) (hf : Fresh s (.await pid how choice) t)
    (h : step settings s (.await pid how choice) = some t) :
    (how = .ok ∧ s.world.active < settings.sandboxMaxActive ∧
        t.proc pid = some (.create { c with pc := .pick })) ∨
      (¬ (s.world.active < settings.sandboxMaxActive ∧ how = .ok) ∧ Over c.sandboxId t ∧
        ∀ b, .created (some key) c.sandboxId (.answered (.accepted b)) ∉ t.world.log) := by
  have hst := stepped h
  have hnot : ∀ b, .created (some key) c.sandboxId (.answered (.accepted b)) ∉ t.world.log := by
    intro b he
    rcases hst.created he with hold | ⟨q, how', choice', c', ha, hq, -, -, lives, -, ends⟩
    · exact hs.2.pending pid c hp _ _ hold
    · cases ha
      cases hp.symm.trans hq
      generalize s.world.reply _ how choice _ = reply at ends
      rw [hpc] at ends
      cases ends
  cases hst with
  | spawned _ _ _ _ spawn => cases spawn
  | resumed _ _ _ proc proc' events found lives resume world_eq drawn_eq procs =>
    cases hp.symm.trans found
    have hgoes := Proc.goes_of_resume resume
    generalize hq : s.world.reply _ how choice _ = reply at hgoes
    cases hgoes with
    | create _ _ pc goes =>
      rw [hpc] at goes
      cases goes with
      | admitted active room =>
        rcases s.world.reply_eq .createSandbox how choice c.request lives with
          ⟨rfl, hreply⟩ | ⟨e, b, rfl, hreply⟩
        · have hcount := hreply.symm.trans hq
          simp only [CreateSandbox.request, hpc, World.perform, Reply.count.injEq] at hcount
          exact .inl ⟨rfl, by rw [World.active, hcount]; exact room, by simp [procs]⟩
        · cases hreply.symm.trans hq
  | ended _ _ _ proc outcome events found lives resume world_eq drawn_eq procs =>
    cases hp.symm.trans found
    refine .inr ⟨?_, over_of_gone hs.1.2.1 hf h hp (by simp [procs]), hnot⟩
    rintro ⟨hroom, rfl⟩
    have hends := Proc.ends_of_resume resume
    generalize hq : s.world.reply _ How.ok choice _ = reply at hends
    cases hends with
    | create _ _ _ ends =>
      rw [hpc] at ends
      simp only [World.reply, Proc.request, CreateSandbox.request, hpc, World.perform] at hq
      cases ends with
      | refused active full =>
        simp only [Reply.count.injEq] at hq
        rw [World.active, hq] at hroom
        omega
      | raised pc e => cases hq
  | killed _ effect requeue _ proc found world_eq drawn_eq procs =>
    refine .inr ⟨?_, over_of_gone hs.1.2.1 hf h hp (by simp [procs]), hnot⟩
    rintro ⟨-, hok⟩
    cases hok

/-- At its capacity check a keyed POST finds a committed row for its key. In every run it
ends with a 202 for that row, and only so, exactly when fewer rows than the cap are active
and no later call of its own fails. -/
theorem keyed_duplicate_replayed_iff (settings : Settings) (now : Time) (containers : Containers)
    (nextObject : Nat) (as bs : List Action) (s t : State) (pid : Nat) (c : CreateSandbox)
    (key : IdempotencyKey) (sid : Uuid) (r : Sandbox) (how : How) (choice : Choice)
    (hfresh : Along settings Fresh (State.init now containers nextObject)
      (as ++ .await pid how choice :: bs))
    (hs : run settings (State.init now containers nextObject) as = some s)
    (hp : s.proc pid = some (.create c)) (hpc : c.pc = .capacity) (hkey : c.key = some key)
    (hr : s.world.row sid = some r) (hrk : r.idempotencyKey = some key)
    (ht : run settings s (.await pid how choice :: bs) = some t)
    (ended : ∀ p d, t.proc p = some (.create d) → d.sandboxId ≠ c.sandboxId) :
    ReplayedOnly t key c.sandboxId sid ↔
      s.world.active < settings.sandboxMaxActive ∧
        Along settings (fun s a _ => ownSucceeds c.sandboxId s a = true) s
          (.await pid how choice :: bs) := by
  obtain ⟨hfas, hf⟩ := (LabelledRuns.along_append hs).mp hfresh
  have hks := keysAndEnds_run hfas hs
  obtain ⟨m, hm, hrun⟩ := LabelledRuns.run_cons_eq_some.mp ht
  obtain ⟨hfm, hfbs⟩ := (LabelledRuns.along_cons hm).mp hf
  have hown := ownSucceeds_own hp how choice
  refine Iff.trans ?_ (and_congr_right fun _ => (LabelledRuns.along_cons hm).symm)
  rcases check_step hks hp hpc hfm hm with ⟨rfl, hroom, hgoes⟩ | ⟨hcut, hover, hnone⟩
  · have hd : Duplicate m pid { c with pc := .pick } key sid := by
      refine ⟨hgoes, hkey, rfl, ?_⟩
      obtain ⟨r', hr', hfr⟩ := (stepped hm).forward sid r hr
      exact ⟨r', hr', hfr.key.trans hrk⟩
    have hrest := duplicate_run (keysAndEnds_step hks hfm hm) hd hfbs hrun ended
    exact ⟨fun h => ⟨hroom, hown.mpr (.inl rfl), hrest.mp h⟩, fun h => hrest.mpr h.2.2⟩
  · refine ⟨?_, ?_⟩
    · rintro ⟨b, -, -, hends⟩
      obtain ⟨hlog, -⟩ := over_run hover hfbs hrun
      exact absurd ((hlog _ _).mp ((hends _).mpr rfl)) (hnone b)
    · rintro ⟨hroom, hsucc, -⟩
      rcases hown.mp hsucc with hok | ⟨_, _, -, hpick⟩
      · exact absurd ⟨hroom, hok⟩ hcut
      · cases hpc.symm.trans hpick

/-- Two POSTs with one key have both looked for it; the first has committed its row. -/
def checkedTogether : List Action :=
  [.post 0 oneMinute (some someKey) 1, .post 1 oneMinute (some someKey) 2, .ok 0, .ok 1, .ok 0,
    .fails 0, .ok 0, .ok 0]

theorem keyed_duplicate_replayed_with_room : ∃ s t,
    run ⟨3, 4, "localhost"⟩ (State.init 0 KeyedTable.empty 0) checkedTogether = some s ∧
      run ⟨3, 4, "localhost"⟩ s [.ok 1, .fails 1, .ok 1, .ok 1, .ok 1, .ok 0] = some t ∧
      ReplayedOnly t someKey 2 1 := by
  have hrun : (run ⟨3, 4, "localhost"⟩ (State.init 0 KeyedTable.empty 0) checkedTogether).any
      (fun s => decide (s.proc 1 = some (.create ⟨oneMinute, some someKey, 2, .capacity⟩)) &&
        (s.world.row 1).any (fun r => decide (r.idempotencyKey = some someKey)) &&
        decide (s.world.active < 4) &&
        (run ⟨3, 4, "localhost"⟩ s [.ok 1, .fails 1, .ok 1, .ok 1, .ok 1, .ok 0]).any
          (fun t => decide (t.procs.rows = [])) &&
        LabelledRuns.check (step ⟨3, 4, "localhost"⟩) (fun s a _ => ownSucceeds 2 s a = true) s
          [.ok 1, .fails 1, .ok 1, .ok 1, .ok 1, .ok 0]) = true := by decide
  obtain ⟨s, hs, hp⟩ := LabelledRuns.exists_run hrun
  simp only [Bool.and_eq_true, Option.any_eq_true, decide_eq_true_eq] at hp
  obtain ⟨⟨⟨⟨hproc, r, hr, hrk⟩, hroom⟩, t, ht, hidle⟩, hown⟩ := hp
  refine ⟨s, t, hs, ht, ?_⟩
  refine (keyed_duplicate_replayed_iff _ 0 _ 0 checkedTogether
    [.fails 1, .ok 1, .ok 1, .ok 1, .ok 0] s t 1 _ someKey 1 r .ok {}
    (LabelledRuns.along_of_check (by decide)) hs hproc rfl rfl hr hrk ht ?_).mpr
    ⟨hroom, LabelledRuns.along_of_check hown⟩
  intro p d hd
  rw [State.idle_of_rows hidle] at hd
  cases hd

/-- The same with a cap of one: the row of the first POST is committed, and the second is
answered 429. -/
theorem keyed_duplicate_refused : ∃ s t r,
    run ⟨3, 1, "localhost"⟩ (State.init 0 KeyedTable.empty 0) checkedTogether = some s ∧
      s.world.row 1 = some r ∧ r.idempotencyKey = some someKey ∧
      s.proc 1 = some (.create ⟨oneMinute, some someKey, 2, .capacity⟩) ∧
      step ⟨3, 1, "localhost"⟩ s (.ok 1) = some t ∧
      .created (some someKey) 2 (.answered .capacityReached) ∈ t.world.log := by
  have hrun : (run ⟨3, 1, "localhost"⟩ (State.init 0 KeyedTable.empty 0) checkedTogether).any
      (fun s => (s.world.row 1).any (fun r => decide (r.idempotencyKey = some someKey)) &&
        decide (s.proc 1 = some (.create ⟨oneMinute, some someKey, 2, .capacity⟩)) &&
        (step ⟨3, 1, "localhost"⟩ s (.ok 1)).any (fun t =>
          decide (.created (some someKey) 2 (.answered .capacityReached) ∈ t.world.log))) =
      true := by decide
  obtain ⟨s, hs, hp⟩ := LabelledRuns.exists_run hrun
  simp only [Bool.and_eq_true, Option.any_eq_true, decide_eq_true_eq] at hp
  obtain ⟨⟨⟨r, hr, hrk⟩, hproc⟩, t, ht, hlog⟩ := hp
  exact ⟨s, t, r, hs, hr, hrk, hproc, ht, hlog⟩

end SandboxOrchestrator
