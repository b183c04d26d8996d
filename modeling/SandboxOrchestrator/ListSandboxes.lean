import SandboxOrchestrator.Labels
import SandboxOrchestrator.Reconcile

/-!
# Malformed containers

`list_sandboxes` skips a container whose labels raise a `KeyError` or a `ValueError`. A
number of seconds beyond the platform's range raises neither, and then the whole list
fails, and the sweep with it.
-/

namespace SandboxOrchestrator

set_option autoImplicit false

/-! ## What a container is listed as -/

def ListedContainer.label (c : ListedContainer) (key : String) : Option String :=
  (c.labels.getD []).lookup key

namespace Python

variable {py : Python}

/-- The entry of a container whose two labels decode to an id and an expiry. -/
def decoded (py : Python) (c : ListedContainer) : Option RuntimeSandbox := do
  let n ← (c.label labelExpires).bind fun s => (py.int s).toOption
  let expires ← (py.fromTimestamp n).toOption
  let sid ← (c.label labelId).bind fun s => (py.uuid s).toOption
  some ⟨sid, expires⟩

/-- The expiry label is a numeral, of a time the platform does not reach. -/
def outOfRange (py : Python) (c : ListedContainer) : Bool :=
  (c.label labelExpires).any fun s =>
    match py.int s with
    | .ok n => (py.beyond n).isSome
    | .error _ => false

theorem int_error {s : String} {e : PyExc} (h : py.int s = .error e) : e = .valueError := by
  unfold Python.int at h
  split at h
  · cases h
  · cases h
    rfl

theorem uuid_error {s : String} {e : PyExc} (h : py.uuid s = .error e) : e = .valueError := by
  unfold Python.uuid at h
  split at h
  · cases h
    rfl
  · split at h
    · split at h
      · cases h
      · cases h
        rfl
    · cases h
      rfl

theorem fromTimestamp_error {n : Int} {e : PyExc} (hn : py.beyond n = none)
    (h : py.fromTimestamp n = .error e) : e = .valueError := by
  rw [Python.fromTimestamp, hn] at h
  simp only at h
  split at h
  · cases h
  · cases h
    rfl

theorem label_eq (c : ListedContainer) (key : String) :
    Python.label (c.labels.getD []) key = ((c.label key).elim (.error .keyError) .ok) := by
  unfold Python.label ListedContainer.label
  cases (c.labels.getD []).lookup key <;> rfl

theorem readLabels_cases {c : ListedContainer} (h : py.outOfRange c = false) :
    (∃ entry, py.readLabels c = .ok entry ∧ py.decoded c = some entry) ∨
      ((py.readLabels c = .error .keyError ∨ py.readLabels c = .error .valueError) ∧
        py.decoded c = none) := by
  unfold Python.readLabels Python.decoded Python.outOfRange at *
  simp only [label_eq]
  cases hs : c.label labelExpires with
  | none => simp [bind, Except.bind]
  | some s =>
    cases hn : py.int s with
    | error e =>
      cases int_error hn
      simp [hn, bind, Except.bind, Except.toOption]
    | ok n =>
      have hbeyond : py.beyond n = none := by simpa [hs, hn] using h
      cases hexpires : py.fromTimestamp n with
      | error e =>
        cases fromTimestamp_error hbeyond hexpires
        simp [hn, hexpires, bind, Except.bind, Except.toOption]
      | ok expires =>
        cases hi : c.label labelId with
        | none => simp [hn, hexpires, bind, Except.bind, Except.toOption]
        | some i =>
          cases hsid : py.uuid i with
          | error e =>
            cases uuid_error hsid
            simp [hn, hexpires, hsid, bind, Except.bind, Except.toOption]
          | ok sid => simp [hn, hexpires, hsid, bind, Except.bind, Except.toOption]

theorem addListed_eq_ok {c : ListedContainer} (h : py.outOfRange c = false)
    (found : List RuntimeSandbox) :
    py.addListed found c = .ok (found ++ (py.decoded c).toList) := by
  unfold Python.addListed
  obtain ⟨entry, hread, hdecoded⟩ | ⟨hread | hread, hdecoded⟩ := readLabels_cases h
  · rw [hread, hdecoded]
    rfl
  · rw [hread, hdecoded]
    simp
  · rw [hread, hdecoded]
    simp

theorem addListed_eq_error {c : ListedContainer} (h : py.outOfRange c = true)
    (found : List RuntimeSandbox) : ∃ e, py.addListed found c = .error e := by
  unfold Python.outOfRange at h
  rw [Option.any_eq_true] at h
  obtain ⟨s, hs, h⟩ := h
  split at h
  · rename_i n hn
    obtain ⟨e, he⟩ := Option.isSome_iff_exists.mp h
    have hread : py.readLabels c = .error e := by
      unfold Python.readLabels
      simp only [label_eq, hs, Option.elim_some, hn, Python.fromTimestamp, he, bind, Except.bind]
    unfold Python.addListed
    rw [hread]
    rcases py.beyond_class n e he with rfl | rfl
    · exact ⟨.overflowError, rfl⟩
    · exact ⟨.osError, rfl⟩
  · cases h

theorem listSandboxes_eq_ok {cs : List ListedContainer} (h : ∀ c ∈ cs, py.outOfRange c = false)
    (found : List RuntimeSandbox) :
    cs.foldlM py.addListed found = .ok (found ++ cs.filterMap py.decoded) := by
  induction cs generalizing found with
  | nil => simp [pure, Except.pure]
  | cons c cs ih =>
    have hrest : ∀ c' ∈ cs, py.outOfRange c' = false := fun c' hc' => h c' (List.mem_cons_of_mem c hc')
    rw [List.foldlM_cons, addListed_eq_ok (h c List.mem_cons_self)]
    simp only [bind, Except.bind]
    rw [ih hrest, List.append_assoc]
    cases hc : py.decoded c <;> simp [hc]

theorem listSandboxes_eq_error {cs : List ListedContainer} {c : ListedContainer} (hc : c ∈ cs)
    (h : py.outOfRange c = true) (found : List RuntimeSandbox) :
    ∃ e, cs.foldlM py.addListed found = .error e := by
  induction cs generalizing found with
  | nil => cases hc
  | cons c' cs ih =>
    rw [List.foldlM_cons]
    by_cases hc' : py.outOfRange c' = true
    · obtain ⟨e, he⟩ := addListed_eq_error hc' found
      exact ⟨e, by rw [he]; rfl⟩
    · rw [addListed_eq_ok (by simpa using hc')]
      rcases List.mem_cons.mp hc with rfl | hc
      · exact absurd h hc'
      · exact ih hc _

end Python

/-! ## What a sweep does with the list -/

def PyExc.name : PyExc → String
  | .keyError => "KeyError"
  | .valueError => "ValueError"
  | .overflowError => "OverflowError"
  | .osError => "OSError"

def listReply : Except PyExc (List RuntimeSandbox) → Reply
  | .ok cs => .containers cs
  | .error e => .raised ⟨e.name, ""⟩

def Reply.raises : Reply → Bool
  | .raised _ => true
  | _ => false

/-- The sweep goes on to its end: its calls with their replies, and what it recorded. Other
handlers may do anything between two calls. -/
inductive Sweeps : ReconcileSandboxes → List (Request × Reply) → List Event → Prop where
  | ends (p : ReconcileSandboxes) (reply : Reply) (events : List Event) (outcome : End)
      (h : p.resume reply = some (events, .done outcome)) : Sweeps p [(p.request, reply)] events
  | goes (p p' : ReconcileSandboxes) (reply : Reply) (events later : List Event)
      (calls : List (Request × Reply)) (h : p.resume reply = some (events, .goto p'))
      (rest : Sweeps p' calls later) : Sweeps p ((p.request, reply) :: calls) (later ++ events)

/-- The calls of the first loop for one container are among these, and it was counted. -/
structure Reaps (calls : List (Request × Reply)) (events : List Event) (c : RuntimeSandbox)
    (reason : ReapReason) : Prop where
  removed : .remove c.sandboxId ∈ calls.map Prod.fst
  settled : .transition c.sandboxId activeStatuses { status := .stopped } ∈ calls.map Prod.fst
  counted : .reaped reason c.sandboxId ∈ events

variable {n : Reaped} {v : Snapshot} {p : ReconcileSandboxes} {reply : Reply}
  {calls : List (Request × Reply)} {events : List Event}
  {x : List Event × Next ReconcileSandboxes}

theorem Sweeps.after (h : Sweeps p calls events) {P : List Event → ReconcileSandboxes → Prop}
    (hnext : ∀ reply x, reply.raises = false → p.resume reply = some x →
      ∃ told q, x = (told, .goto q) ∧ P told q)
    (hok : ∀ x ∈ calls, x.2.raises = false) :
    ∃ reply rest told later q, calls = (p.request, reply) :: rest ∧ events = later ++ told ∧
      P told q ∧ Sweeps q rest later := by
  cases h with
  | ends _ reply _ outcome h =>
    obtain ⟨told, q, hx, -⟩ := hnext reply _ (hok _ List.mem_cons_self) h
    cases hx
  | goes _ p' reply told later calls h rest =>
    obtain ⟨told', q, hx, hp⟩ := hnext reply _ (hok _ List.mem_cons_self) h
    cases hx
    exact ⟨reply, calls, told, later, p', rfl, rfl, hp, rest⟩

theorem resume_remove {c : RuntimeSandbox} {reason : ReapReason} {rest : List RuntimeSandbox}
    (hok : reply.raises = false)
    (h : ReconcileSandboxes.resume ⟨n, .remove v c reason rest⟩ reply = some x) :
    x = ([], .goto ⟨n, .settle v c reason rest⟩) := by
  cases reply with
  | raised e => cases hok
  | removed b => exact (Option.some.inj h).symm
  | _ => cases h

theorem resume_settle {c : RuntimeSandbox} {reason : ReapReason} {rest : List RuntimeSandbox}
    (hok : reply.raises = false)
    (h : ReconcileSandboxes.resume ⟨n, .settle v c reason rest⟩ reply = some x) :
    x = ([.reaped reason c.sandboxId],
      .goto ⟨n.count reason, ReconcileSandboxes.nextContainer v rest⟩) := by
  cases reply with
  | raised e => cases hok
  | changed b => exact (Option.some.inj h).symm
  | _ => cases h

theorem resume_vanish {sid : Uuid} {rest : List Uuid} (hok : reply.raises = false)
    (h : ReconcileSandboxes.resume ⟨n, .vanish v sid rest⟩ reply = some x) :
    ∃ told m, x = (told, .goto ⟨m, ReconcileSandboxes.nextMissing v rest⟩) := by
  cases reply with
  | raised e => cases hok
  | changed b =>
    cases b with
    | true => exact ⟨_, _, (Option.some.inj h).symm⟩
    | false => exact ⟨_, _, (Option.some.inj h).symm⟩
  | _ => cases h

theorem resume_finishStops (hok : reply.raises = false)
    (h : ReconcileSandboxes.resume ⟨n, .finishStops v⟩ reply = some x) :
    x = ([.reconcileRuns true], .done (.swept n)) := by
  cases reply with
  | raised e => cases hok
  | done => exact (Option.some.inj h).symm
  | _ => cases h

theorem Sweeps.missing (l : List Uuid)
    (h : Sweeps ⟨n, ReconcileSandboxes.nextMissing v l⟩ calls events)
    (hok : ∀ x ∈ calls, x.2.raises = false) : .reconcileRuns true ∈ events := by
  induction l generalizing n calls events with
  | nil =>
    cases h with
    | ends _ reply _ outcome h =>
      cases resume_finishStops (hok _ List.mem_cons_self) h
      exact List.mem_cons_self
    | goes _ p' reply told later calls h rest =>
      cases resume_finishStops (hok _ List.mem_cons_self) h
  | cons sid l ih =>
    obtain ⟨reply, rest, told, later, q, rfl, rfl, ⟨m, rfl⟩, hrest⟩ :=
      h.after (P := fun _ q => ∃ m, q = ⟨m, ReconcileSandboxes.nextMissing v l⟩)
        (fun reply x hreply hx => by
          obtain ⟨told, m, rfl⟩ := resume_vanish hreply hx
          exact ⟨told, _, rfl, m, rfl⟩) hok
    have hdone := ih hrest fun x hx => hok x (List.mem_cons_of_mem _ hx)
    exact List.mem_append_left told hdone

theorem Sweeps.containers (l : List RuntimeSandbox)
    (h : Sweeps ⟨n, ReconcileSandboxes.nextContainer v l⟩ calls events)
    (hok : ∀ x ∈ calls, x.2.raises = false) :
    .reconcileRuns true ∈ events ∧
      ∀ c ∈ l, ∀ reason, v.reason c = some reason → Reaps calls events c reason := by
  induction l generalizing n calls events with
  | nil => exact ⟨h.missing v.missing hok, fun c hc => absurd hc List.not_mem_nil⟩
  | cons c l ih =>
    cases hreason : v.reason c with
    | none =>
      rw [ReconcileSandboxes.nextContainer, hreason] at h
      obtain ⟨hdone, hreaps⟩ := ih h hok
      refine ⟨hdone, fun c' hc' reason hc'r => ?_⟩
      rcases List.mem_cons.mp hc' with rfl | hc'
      · cases hreason.symm.trans hc'r
      · exact hreaps c' hc' reason hc'r
    | some reason =>
      rw [ReconcileSandboxes.nextContainer, hreason] at h
      obtain ⟨removed, calls, told, later, q, rfl, rfl, ⟨rfl, rfl⟩, h⟩ :=
        h.after (P := fun told q => told = [] ∧ q = ⟨n, .settle v c reason l⟩)
          (fun reply x hreply hx => ⟨_, _, resume_remove hreply hx, rfl, rfl⟩) hok
      have hok₁ : ∀ x ∈ calls, x.2.raises = false := fun x hx => hok x (List.mem_cons_of_mem _ hx)
      obtain ⟨settled, calls, told, later, q, rfl, rfl, ⟨rfl, rfl⟩, h⟩ :=
        h.after (P := fun told q => told = [.reaped reason c.sandboxId] ∧
            q = ⟨n.count reason, ReconcileSandboxes.nextContainer v l⟩)
          (fun reply x hreply hx => ⟨_, _, resume_settle hreply hx, rfl, rfl⟩) hok₁
      obtain ⟨hdone, hreaps⟩ := ih h fun x hx => hok₁ x (List.mem_cons_of_mem _ hx)
      refine ⟨by simp [hdone], fun c' hc' reason' hc'r => ?_⟩
      rcases List.mem_cons.mp hc' with rfl | hc'
      · cases hreason.symm.trans hc'r
        exact ⟨by simp [ReconcileSandboxes.request], by simp [ReconcileSandboxes.request], by simp⟩
      · obtain ⟨h₁, h₂, h₃⟩ := hreaps c' hc' reason' hc'r
        exact ⟨by simp [h₁], by simp [h₂], by simp [h₃]⟩

theorem exists_missing (v : Snapshot) (l : List Uuid) (n : Reaped) :
    ∃ calls events, (∀ x ∈ calls, x.2.raises = false) ∧
      Sweeps ⟨n, ReconcileSandboxes.nextMissing v l⟩ calls events := by
  induction l generalizing n with
  | nil => exact ⟨_, _, by simp [Reply.raises], .ends _ .done _ _ rfl⟩
  | cons sid l ih =>
    obtain ⟨calls, events, hok, h⟩ := ih n
    exact ⟨_, _, by simpa [Reply.raises] using hok, .goes _ _ (.changed false) _ _ _ rfl h⟩

theorem exists_containers (v : Snapshot) (l : List RuntimeSandbox) (n : Reaped) :
    ∃ calls events, (∀ x ∈ calls, x.2.raises = false) ∧
      Sweeps ⟨n, ReconcileSandboxes.nextContainer v l⟩ calls events := by
  induction l generalizing n with
  | nil => exact exists_missing v v.missing n
  | cons c l ih =>
    cases hreason : v.reason c with
    | none =>
      rw [ReconcileSandboxes.nextContainer, hreason]
      exact ih n
    | some reason =>
      obtain ⟨calls, events, hok, h⟩ := ih (n.count reason)
      rw [ReconcileSandboxes.nextContainer, hreason]
      exact ⟨_, _, by simpa [Reply.raises] using hok,
        .goes _ _ (.removed true) _ _ _ rfl (.goes _ _ (.changed true) _ _ _ rfl h)⟩

/-- The three reads of a sweep after its snapshot, with what it reads. -/
def reads (listed : Reply) (entries : List RuntimeSandbox) (rows : List (Uuid × SandboxStatus))
    (now : Time) : List (Request × Reply) :=
  [(.listSandboxes, listed), (.selectStatuses (entries.map (·.sandboxId)), .statuses rows),
    (.clock, .time now)]

/-- Whatever the other reads give, a sweep with this list can end, and one whose calls are all
answered is a success that removed and settled every entry it had a reason for. -/
structure Processed (listed : Reply) (entries : List RuntimeSandbox) : Prop where
  can_end : ∀ n running rows now, ∃ calls events, (∀ x ∈ calls, x.2.raises = false) ∧
    Sweeps ⟨n, .list running⟩ (reads listed entries rows now ++ calls) events
  reaps : ∀ n running rows now calls events, (∀ x ∈ calls, x.2.raises = false) →
    Sweeps ⟨n, .list running⟩ (reads listed entries rows now ++ calls) events →
      .reconcileRuns true ∈ events ∧ ∀ c ∈ entries, ∀ reason,
        Snapshot.reason ⟨running, entries, rows, now⟩ c = some reason → Reaps calls events c reason

theorem processed (entries : List RuntimeSandbox) : Processed (.containers entries) entries where
  can_end n running rows now := by
    obtain ⟨calls, events, hok, h⟩ :=
      exists_containers ⟨running, entries, rows, now⟩ entries n
    exact ⟨calls, _, hok, .goes _ _ _ _ _ _ rfl (.goes _ _ _ _ _ _ rfl (.goes _ _ _ _ _ _ rfl h))⟩
  reaps n running rows now calls events hok h := by
    cases h with
    | goes _ p₁ _ _ _ _ h₁ rest₁ =>
      cases h₁
      cases rest₁ with
      | goes _ p₂ _ _ _ _ h₂ rest₂ =>
        cases h₂
        cases rest₂ with
        | goes _ p₃ _ _ _ _ h₃ rest₃ =>
          cases h₃
          have hloop := rest₃.containers entries hok
          simp only [List.append_nil]
          exact hloop
        | ends _ _ _ _ h₃ => cases h₃

/-! ## The reaper and a malformed container -/

/-- The list is the decodable containers, and the sweep goes through all of them, exactly when
no expiry label is a time that the platform does not reach. -/
theorem list_sandboxes_skips_malformed (py : Python) (cs : List ListedContainer) :
    (py.listSandboxes cs = .ok (cs.filterMap py.decoded) ∧
      Processed (listReply (py.listSandboxes cs)) (cs.filterMap py.decoded)) ↔
        ∀ c ∈ cs, py.outOfRange c = false := by
  constructor
  · rintro ⟨hlist, -⟩ c hc
    by_contra hrange
    obtain ⟨e, he⟩ := Python.listSandboxes_eq_error hc (Bool.not_eq_false _ ▸ hrange) []
    cases hlist.symm.trans he
  · intro h
    have hlist : py.listSandboxes cs = .ok (cs.filterMap py.decoded) :=
      Python.listSandboxes_eq_ok h []
    refine ⟨hlist, ?_⟩
    rw [hlist]
    exact processed (cs.filterMap py.decoded)

/-- CPython on a 64-bit Linux, as far as ASCII labels go. -/
def linux64 : Python where
  unicode := ⟨fun _ => false, fun _ => none⟩
  maxStrDigits := 4300
  digits_bound := by decide
  beyond n :=
    if n < -2 ^ 63 ∨ 2 ^ 63 ≤ n then some .overflowError
    else if n < -67768040609740800 ∨ 67768036191676800 ≤ n then some .osError
    else none
  beyond_class n e h := by
    split at h
    · exact .inl (Option.some.inj h).symm
    · split at h
      · exact .inr (Option.some.inj h).symm
      · cases h

/-- A container of the program, and one with a numeral of twenty digits for its expiry. -/
def strayBeside : List ListedContainer :=
  [⟨some (sandboxLabels 5 1700000000000000)⟩,
    ⟨some [(labelId, "stray"), (labelExpires, "99999999999999999999")]⟩]

/-- The first container decodes, but the stray one ends the sweep before it is looked at. -/
theorem list_sandboxes_overflows :
    strayBeside.filterMap linux64.decoded = [⟨5, 1700000000000000⟩] ∧
      linux64.listSandboxes strayBeside = .error .overflowError ∧
      ReconcileSandboxes.resume ⟨{}, .list []⟩ (listReply (linux64.listSandboxes strayBeside)) =
        some ([.reconcileRuns false], .done (.swept {})) := by
  have hlist : linux64.listSandboxes strayBeside = .error .overflowError := rfl
  refine ⟨by decide, hlist, ?_⟩
  rw [hlist]
  rfl

end SandboxOrchestrator
