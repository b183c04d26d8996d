import SandboxOrchestrator.World
import SandboxOrchestrator.Library.PyInt

/-!
# Container labels

`_ensure_container` writes the id and the expiry of a sandbox as two strings, and
`list_sandboxes` reads them back from whatever containers the daemon lists. Three parsers
of the standard library decide what a label means and which exception a bad one raises.
-/

namespace SandboxOrchestrator

set_option autoImplicit false

inductive PyExc where
  | keyError
  | valueError
  | overflowError
  | osError
  deriving DecidableEq, Repr

/-- What the standard library leaves to its configuration and to the platform. -/
structure Python where
  unicode : PyInt.Unicode
  /-- `sys.get_int_max_str_digits()`, 0 for no limit. -/
  maxStrDigits : Nat
  digits_bound : maxStrDigits = 0 ∨ 640 ≤ maxStrDigits
  /-- What `gmtime` raises for a number of seconds beyond its range. -/
  beyond : Int → Option PyExc
  beyond_class : ∀ n e, beyond n = some e → e = .overflowError ∨ e = .osError

def labelId : String := "duvo.sandbox.id"

def labelExpires : String := "duvo.sandbox.expires_at"

def sandboxLabels (sid : Uuid) (expiresAt : Time) : List (String × String) :=
  [(labelId, uuidString sid), (labelExpires, toString (wholeSeconds expiresAt))]

structure ListedContainer where
  labels : Option (List (String × String))
  deriving DecidableEq

/-- `s.replace(old, "")`; the number counts what is left of a match to skip. -/
def removeAll (old : List Char) : Nat → List Char → List Char
  | _, [] => []
  | k + 1, _ :: cs => removeAll old k cs
  | 0, c :: cs =>
    if old.isPrefixOf (c :: cs) then removeAll old (old.length - 1) cs else c :: removeAll old 0 cs

def isBrace (c : Char) : Bool := decide (c = '{') || decide (c = '}')

def dropDashes (cs : List Char) : List Char := cs.filter fun c => decide (c ≠ '-')

def uuidHex (s : String) : List Char :=
  let hex := removeAll ['u', 'u', 'i', 'd', ':'] 0 (removeAll ['u', 'r', 'n', ':'] 0 s.toList)
  dropDashes ((hex.dropWhile isBrace).rdropWhile isBrace)

namespace Python

variable (py : Python)

def int (s : String) : Except PyExc Int :=
  match PyInt.int py.unicode py.maxStrDigits 10 s with
  | some n => .ok n
  | none => .error .valueError

def uuid (s : String) : Except PyExc Uuid :=
  if (uuidHex s).length ≠ 32 then .error .valueError
  else
    match PyInt.int py.unicode py.maxStrDigits 16 (String.ofList (uuidHex s)) with
    | some n => if 0 ≤ n ∧ n < 2 ^ 128 then .ok (BitVec.ofInt 128 n) else .error .valueError
    | none => .error .valueError

/-- `datetime.fromtimestamp(n, UTC)`: the platform first, then the years 1 to 9999. -/
def fromTimestamp (n : Int) : Except PyExc Time :=
  match py.beyond n with
  | some e => .error e
  | none => if -62135596800 ≤ n ∧ n < 253402300800 then .ok (n * 1000000) else .error .valueError

def label (labels : List (String × String)) (key : String) : Except PyExc String :=
  match labels.lookup key with
  | some s => .ok s
  | none => .error .keyError

/-- The body of the `try` in `list_sandboxes`: the expiry is decoded before the id. -/
def readLabels (c : ListedContainer) : Except PyExc RuntimeSandbox := do
  let labels := c.labels.getD []
  let n ← py.int (← label labels labelExpires)
  let expires ← py.fromTimestamp n
  let sid ← py.uuid (← label labels labelId)
  .ok ⟨sid, expires⟩

/-- `except (KeyError, ValueError)`: the container is skipped. -/
def addListed (found : List RuntimeSandbox) (c : ListedContainer) :
    Except PyExc (List RuntimeSandbox) :=
  match py.readLabels c with
  | .ok entry => .ok (found ++ [entry])
  | .error .keyError => .ok found
  | .error .valueError => .ok found
  | .error e => .error e

/-- `list_sandboxes`, from the containers the daemon has listed. -/
def listSandboxes (cs : List ListedContainer) : Except PyExc (List RuntimeSandbox) :=
  cs.foldlM py.addListed []

end Python

/-! ## An id is read back -/

theorem removeAll_eq_self {old cs : List Char} (h : ∀ c ∈ old.head?, c ∉ cs) (hne : old ≠ []) :
    removeAll old 0 cs = cs := by
  induction cs with
  | nil => rfl
  | cons c cs ih =>
    have hstart : old.isPrefixOf (c :: cs) = false := by
      cases old with
      | nil => exact absurd rfl hne
      | cons o old =>
        have hco : o ≠ c := fun he => h o rfl (he ▸ List.mem_cons_self)
        simp [List.isPrefixOf, hco]
    rw [removeAll, if_neg (by simp [hstart]), ih fun c' hc' hmem => h c' hc' (List.mem_cons_of_mem c hmem)]

theorem digit_hexDigit {n : Nat} (h : n < 16) : PyInt.digit 16 (hexDigit n) = some n := by
  have hall : ∀ n : Fin 16, PyInt.digit 16 (hexDigit n) = some n.val := by decide
  exact hall ⟨n, h⟩

theorem hexDigits_plain (sid : Uuid) :
    ∃ ds, PyInt.Plain 16 (hexDigits sid) ds ∧ PyInt.value 16 ds = sid.toNat := by
  refine ⟨(List.range 32).map fun i => sid.toNat / 16 ^ (32 - 1 - i) % 16, ?_, ?_⟩
  · rw [PyInt.Plain, hexDigits, List.forall₂_map_left_iff, List.forall₂_map_right_iff,
      List.forall₂_same]
    exact fun i _ => digit_hexDigit (Nat.mod_lt _ (by decide))
  · rw [PyInt.value_fixed]
    exact Nat.mod_eq_of_lt (by have := sid.isLt; omega)

theorem dropDashes_eq_self {cs : List Char} (h : '-' ∉ cs) : dropDashes cs = cs := by
  rw [dropDashes, List.filter_eq_self]
  intro c hc
  have hne : c ≠ '-' := fun he => h (he ▸ hc)
  simp [hne]

theorem dropDashes_append (cs cs' : List Char) :
    dropDashes (cs ++ cs') = dropDashes cs ++ dropDashes cs' := List.filter_append ..

theorem dropDashes_dash (cs : List Char) : dropDashes ('-' :: cs) = dropDashes cs := rfl

theorem hexDigits_ne {sid : Uuid} {c x : Char} (hc : c ∈ hexDigits sid)
    (hx : PyInt.digit 16 x = none) : c ≠ x := by
  obtain ⟨ds, hplain, -⟩ := hexDigits_plain sid
  obtain ⟨d, hd⟩ := hplain.mem hc
  rintro rfl
  cases hx.symm.trans hd

theorem dropDashes_uuidString (sid : Uuid) :
    dropDashes (uuidString sid).toList = hexDigits sid := by
  have hdash : '-' ∉ hexDigits sid := fun h => hexDigits_ne h (by decide) rfl
  have hstart : dropDashes ((hexDigits sid).take 8) = (hexDigits sid).take 8 :=
    dropDashes_eq_self fun h => hdash (List.mem_of_mem_take h)
  have hgroup : ∀ n, dropDashes (((hexDigits sid).drop n).take 4) = ((hexDigits sid).drop n).take 4 :=
    fun n => dropDashes_eq_self fun h => hdash (List.mem_of_mem_drop (List.mem_of_mem_take h))
  have hend : dropDashes ((hexDigits sid).drop 20) = (hexDigits sid).drop 20 :=
    dropDashes_eq_self fun h => hdash (List.mem_of_mem_drop h)
  have hjoin : ∀ n, ((hexDigits sid).drop n).take 4 ++ (hexDigits sid).drop (n + 4) =
      (hexDigits sid).drop n := by
    intro n
    rw [← List.drop_drop, List.take_append_drop]
  rw [uuidString, String.toList_ofList]
  simp only [dropDashes_append, dropDashes_dash, hstart, hgroup, hend, List.append_assoc]
  rw [hjoin 16, hjoin 12, hjoin 8, List.take_append_drop]

theorem mem_uuidString {sid : Uuid} {c : Char} (hc : c ∈ (uuidString sid).toList) :
    c ∈ hexDigits sid ∨ c = '-' := by
  by_cases hdash : c = '-'
  · exact .inr hdash
  · refine .inl ?_
    rw [← dropDashes_uuidString]
    exact List.mem_filter.mpr ⟨hc, decide_eq_true hdash⟩

theorem uuidHex_uuidString (sid : Uuid) : uuidHex (uuidString sid) = hexDigits sid := by
  have hne : ∀ x, PyInt.digit 16 x = none → x ≠ '-' → x ∉ (uuidString sid).toList := by
    intro x hx hdash hmem
    rcases mem_uuidString hmem with hmem | hmem
    · exact hexDigits_ne hmem hx rfl
    · exact hdash hmem
  have hbrace : ∀ c ∈ (uuidString sid).toList, isBrace c = false := by
    intro c hc
    have hopen : c ≠ '{' := fun he => hne '{' (by decide) (by decide) (he ▸ hc)
    have hclose : c ≠ '}' := fun he => hne '}' (by decide) (by decide) (he ▸ hc)
    simp [isBrace, hopen, hclose]
  have hremove : ∀ old, removeAll ('u' :: old) 0 (uuidString sid).toList = (uuidString sid).toList := by
    intro old
    apply removeAll_eq_self
    · intro c hc
      rw [← Option.some.inj hc]
      exact hne 'u' (by decide) (by decide)
    · simp
  simp only [uuidHex, hremove, PyInt.strip_eq_self hbrace, dropDashes_uuidString]

theorem Python.uuid_uuidString (py : Python) (sid : Uuid) : py.uuid (uuidString sid) = .ok sid := by
  obtain ⟨ds, hplain, hvalue⟩ := hexDigits_plain sid
  have hlength : (hexDigits sid).length = 32 := by simp [hexDigits]
  have hint : PyInt.int py.unicode py.maxStrDigits 16 (String.ofList (hexDigits sid)) =
      some (sid.toNat : Int) := by
    rw [hplain.int_eq (List.ne_nil_of_length_pos (by omega)), hvalue, if_neg (by simp)]
  have hrange : (0 : Int) ≤ sid.toNat ∧ (sid.toNat : Int) < 2 ^ 128 := by
    have := sid.isLt
    omega
  simp only [Python.uuid, uuidHex_uuidString, hlength, hint, if_pos hrange, BitVec.ofInt_natCast,
    BitVec.ofNat_toNat, BitVec.setWidth_eq, ne_eq, not_true_eq_false, if_false]

theorem uuidString_injective : Function.Injective uuidString := by
  intro a b h
  have hdigits : hexDigits a = hexDigits b := by
    rw [← dropDashes_uuidString, h, dropDashes_uuidString]
  obtain ⟨ds, hplain, hvalue⟩ := hexDigits_plain a
  obtain ⟨ds', hplain', hvalue'⟩ := hexDigits_plain b
  rw [hdigits] at hplain
  obtain rfl : ds = ds' := Option.some.inj (hplain.mapM.symm.trans hplain'.mapM)
  exact BitVec.eq_of_toNat_eq (hvalue.symm.trans hvalue')

/-- The id of a job names its function and its sandbox. -/
theorem sandboxJobId_inj {task task' : Task} {sid sid' : Uuid} :
    sandboxJobId task sid = sandboxJobId task' sid' ↔ task = task' ∧ sid = sid' := by
  refine ⟨fun h => ?_, by rintro ⟨rfl, rfl⟩; rfl⟩
  have hlist := congrArg String.toList h
  simp only [sandboxJobId, String.toList_append] at hlist
  obtain rfl : task = task' := by
    cases task <;> cases task' <;> first | rfl | (exfalso; simp [Task.name] at hlist)
  exact ⟨rfl, uuidString_injective (String.toList_inj.mp (List.append_cancel_left hlist))⟩

/-! ## A number of seconds is read back -/

theorem Python.int_toString (py : Python) {n : Nat} (h : (Nat.toDigits 10 n).length ≤ 640) :
    py.int (toString (n : Int)) = .ok (n : Int) := by
  obtain ⟨ds, hplain, hvalue⟩ := PyInt.plain_toDigits n
  have hlimit : ¬((10 : Nat) = 10 ∧ py.maxStrDigits ≠ 0 ∧ py.maxStrDigits < ds.length) := by
    have hlength := hplain.length_eq
    have hbound := py.digits_bound
    omega
  have hrepr : toString (n : Int) = String.ofList (Nat.toDigits 10 n) := Nat.repr_eq_ofList_toDigits
  rw [Python.int, hrepr, hplain.int_eq Nat.toDigits_ne_nil, hvalue, if_neg hlimit]

theorem Python.readLabels_sandboxLabels (py : Python) (sid : Uuid) {t : Time} {n : Nat}
    (hn : wholeSeconds t = n) (hlength : (Nat.toDigits 10 n).length ≤ 640) :
    py.readLabels ⟨some (sandboxLabels sid t)⟩ =
      (py.fromTimestamp n).map fun expires => ⟨sid, expires⟩ := by
  have hexpires : (sandboxLabels sid t).lookup labelExpires = some (toString (n : Int)) := by
    rw [← hn]
    rfl
  have hid : (sandboxLabels sid t).lookup labelId = some (uuidString sid) := rfl
  simp only [Python.readLabels, Option.getD_some, Python.label, hexpires, hid, py.int_toString hlength,
    py.uuid_uuidString, bind, Except.bind]
  cases py.fromTimestamp n with
  | ok expires => rfl
  | error e => rfl

end SandboxOrchestrator
