import Mathlib.Data.Nat.Digits.Lemmas
import Mathlib.Logic.Function.Basic
import OpenCorvus.Id.Identifier

/-!
# The generator of ids

For each kind and direction `create` keeps a clock.  It advances the clock before it checks that the timestamp fits
its digits, so a call that throws at this check has moved the clock beyond its end.  All other calls that throw
leave the generator as it is.
-/

namespace OpenCorvus.Identifier

open Transaction

def prefixes : List (String × String) :=
  [("session", "ses"), ("message", "msg"), ("permission", "per"), ("question", "que"), ("user", "usr"),
    ("project", "prj"), ("part", "prt"), ("pty", "pty"), ("tool", "tool"), ("workspace", "wrk"), ("memory", "mem"),
    ("memchunk", "mck"), ("automation", "atm"), ("automation_run", "atr"), ("event_job", "evt"), ("task", "tsk"),
    ("plan", "pln"), ("goal", "gol"), ("interaction", "int"), ("artifact", "art"), ("attachment", "att"),
    ("acceptance", "dlv"), ("acceptance_round", "dlr"), ("evaluation", "evl"), ("binding", "bnd"), ("progress", "prg"),
    ("note", "nte"), ("brief", "brf"), ("milestone", "mst"), ("spec", "spc"), ("specitem", "spi"),
    ("goal_snapshot", "gls"), ("plan_node", "pln_node"), ("requirement", "req"), ("call", "cal"),
    ("protocol_event", "pev"), ("protocol_inbox", "pib"), ("session_control", "sctl"), ("worker_turn_descriptor", "wtd"),
    ("decision_log", "dlog"), ("metric_spec", "mts"), ("metric_result", "mtr"), ("activity", "act"),
    ("provider_usage", "pvu")]

structure Kind where
  name : String
  prefixText : String
  listed : (name, prefixText) ∈ prefixes

/-- The clocks, by the name of the kind and the direction; a clock that has not been used has no state. -/
abbrev Generator := String × Bool → Option State

def DESCENDING_FORMAT_MARKER : Char := '-'

def COMPACT_TASK_TIMESTAMP_LENGTH : ℕ := 9

def COMPACT_TASK_RANDOM_LENGTH : ℕ := 8

/-- `base62Fixed`, of integers: for a negative digit the alphabet has no character. -/
def base62FixedInt (value : ℤ) (length : ℕ) : Except String (List Char) :=
  if 0 ≤ value then base62Fixed value.toNat length
  else
    let output := if value % 62 = 0 then ['0'] else "undefined".toList
    if length < output.length then .error ("Directory key overflow: " ++ String.ofList output)
    else .ok (List.replicate (length - output.length) '0' ++ output)

/-- The id of a state of the clock; Task ids have a longer timestamp. -/
def Kind.encode (kind : Kind) (descending : Bool) (state : State) (bytes : ℕ → UInt8) : Except String String := do
  let isTask := kind.name = "task"
  throwWhen (¬isTask ∧ COMPACT_TIMESTAMP_MAX < state.timestamp)
    ("ID timestamp exceeds compact field: " ++ toString state.timestamp)
  let fixedLength := kind.prefixText.length + 1 + 1 + COMPACT_TIMESTAMP_LENGTH + COMPACT_SEQUENCE_LENGTH
  throwWhen (¬isTask ∧ MAX_LENGTH < fixedLength + 1)
    ("ID prefix " ++ kind.prefixText ++ " cannot fit the compact identifier contract")
  let limit := if isTask then MAX_FIELD_VALUE else COMPACT_TIMESTAMP_MAX
  let timestampDigits ← base62FixedInt (if descending then limit - state.timestamp else state.timestamp)
    (if isTask then COMPACT_TASK_TIMESTAMP_LENGTH else COMPACT_TIMESTAMP_LENGTH)
  let sequenceDigits ← base62Fixed (if descending then COMPACT_SEQUENCE_MAX - state.sequence else state.sequence)
    COMPACT_SEQUENCE_LENGTH
  return String.ofList (kind.prefixText.toList ++
    '_' :: (if descending then DESCENDING_FORMAT_MARKER else ASCENDING_FORMAT_MARKER) :: timestampDigits ++
    sequenceDigits ++ randomBase62 bytes (if isTask then COMPACT_TASK_RANDOM_LENGTH else MAX_LENGTH - fixedLength))

/-- `create`, with the generator that it leaves; the timestamp `none` is a number that is no integer. -/
def Generator.create (generator : Generator) (kind : Kind) (descending : Bool) (timestamp : Option ℤ)
    (bytes : ℕ → UInt8) : Generator × Except String String :=
  match timestamp with
  | none => (generator, .error "ID timestamp must be a non-negative safe integer")
  | some timestamp =>
    if timestamp < 0 ∨ MAX_SAFE_INTEGER < timestamp then
      (generator, .error ("ID timestamp must be a non-negative safe integer: " ++ toString timestamp))
    else if MAX_FIELD_VALUE < timestamp then
      (generator, .error ("ID timestamp exceeds the 48-bit field: " ++ toString timestamp))
    else
      let state := State.next (generator (kind.name, descending)) timestamp.toNat
      (Function.update generator (kind.name, descending) (some state), kind.encode descending state bytes)

/-- The timestamp of the state does not fit its digits. -/
def Kind.Exceeded (kind : Kind) (descending : Bool) (state : State) : Prop :=
  if kind.name = "task" then descending = false ∧ 62 ^ COMPACT_TASK_TIMESTAMP_LENGTH ≤ state.timestamp
  else COMPACT_TIMESTAMP_MAX < state.timestamp

/-- The timestamp is accepted, and the clock that it advances does not fit its digits. -/
def Generator.Overflows (generator : Generator) (kind : Kind) (descending : Bool) (timestamp : Option ℤ) : Prop :=
  ∃ accepted ∈ timestamp, (0 ≤ accepted ∧ accepted ≤ MAX_FIELD_VALUE) ∧
    kind.Exceeded descending (State.next (generator (kind.name, descending)) accepted.toNat)

lemma base62_length_le_iff {value length : ℕ} (hlength : 0 < length) :
    (base62 value).length ≤ length ↔ value < 62 ^ length := by
  unfold base62
  split
  case isTrue h => simp [h, Nat.one_le_iff_ne_zero, hlength.ne']
  case isFalse => rw [List.length_reverse, List.length_map, Nat.digits_length_le_iff (by decide)]

lemma exists_base62Fixed_iff {value length : ℕ} (hlength : 0 < length) :
    (∃ digits, base62Fixed value length = .ok digits) ↔ value < 62 ^ length := by
  rw [← base62_length_le_iff hlength, base62Fixed]
  split
  case isTrue h => simpa using h
  case isFalse h => simpa using not_lt.mp h

/-- What a negative value gives has at most nine characters. -/
lemma exists_base62FixedInt_iff {value : ℤ} {length : ℕ} (hlength : 0 < length) (h : 0 ≤ value ∨ 9 ≤ length) :
    (∃ digits, base62FixedInt value length = .ok digits) ↔ value < 62 ^ length := by
  unfold base62FixedInt
  split
  case isTrue hvalue =>
    lift value to ℕ using hvalue
    rw [Int.toNat_natCast, exists_base62Fixed_iff hlength]
    norm_cast
  case isFalse hvalue =>
    have hnine : 9 ≤ length := h.resolve_left hvalue
    refine iff_of_true ?_ ((not_le.mp hvalue).trans (by positivity))
    have hshort : ¬length < (if value % 62 = 0 then ['0'] else "undefined".toList).length := by
      split_ifs
      · exact Nat.not_lt.mpr hlength
      · exact Nat.not_lt.mpr hnine
    exact ⟨_, if_neg hshort⟩

lemma State.next_sequence_le (state : Option State) (timestamp : ℕ) :
    (State.next state timestamp).sequence ≤ COMPACT_SEQUENCE_MAX := by
  unfold State.next
  split
  · exact Nat.zero_le _
  · split_ifs with _ hsequence
    · exact Nat.zero_le _
    · exact Nat.zero_le _
    · exact not_lt.mp hsequence

/-- The clock always moves. -/
lemma State.next_ne (state : Option State) (timestamp : ℕ) : some (State.next state timestamp) ≠ state := by
  unfold State.next
  intro h
  split at h
  · cases h
  · split_ifs at h <;> grind

lemma length_prefixText_le (kind : Kind) : kind.prefixText.length ≤ 8 :=
  (by decide : ∀ entry ∈ prefixes, entry.2.length ≤ 8) _ kind.listed

lemma exists_encode_iff (kind : Kind) (descending : Bool) {state : State} (hsequence : state.sequence ≤ COMPACT_SEQUENCE_MAX)
    (bytes : ℕ → UInt8) : (∃ id, kind.encode descending state bytes = .ok id) ↔ ¬kind.Exceeded descending state := by
  have hlength := length_prefixText_le kind
  have hdigits : ∃ digits, base62Fixed (if descending then COMPACT_SEQUENCE_MAX - state.sequence else state.sequence)
      COMPACT_SEQUENCE_LENGTH = .ok digits := by
    refine (exists_base62Fixed_iff (by decide)).mpr ?_
    have hmax : COMPACT_SEQUENCE_MAX < 62 ^ COMPACT_SEQUENCE_LENGTH := by decide
    split_ifs <;> omega
  obtain ⟨sequenceDigits, hdigits⟩ := hdigits
  have hsteps : (∃ id, kind.encode descending state bytes = .ok id) ↔
      ¬(¬kind.name = "task" ∧ COMPACT_TIMESTAMP_MAX < state.timestamp) ∧ ∃ digits, base62FixedInt
        (if descending then (if kind.name = "task" then MAX_FIELD_VALUE else COMPACT_TIMESTAMP_MAX) - state.timestamp
          else state.timestamp)
        (if kind.name = "task" then COMPACT_TASK_TIMESTAMP_LENGTH else COMPACT_TIMESTAMP_LENGTH) = .ok digits := by
    have hfits : ¬MAX_LENGTH < kind.prefixText.length + 1 + 1 + COMPACT_TIMESTAMP_LENGTH + COMPACT_SEQUENCE_LENGTH + 1 := by
      unfold MAX_LENGTH COMPACT_TIMESTAMP_LENGTH COMPACT_SEQUENCE_LENGTH
      omega
    unfold Kind.encode
    simp [bind_eq_ok, hdigits, hfits]
  have htaskLimit : (MAX_FIELD_VALUE : ℤ) < 62 ^ COMPACT_TASK_TIMESTAMP_LENGTH := by decide
  have hlimit : (COMPACT_TIMESTAMP_MAX : ℤ) < 62 ^ COMPACT_TIMESTAMP_LENGTH := by decide
  rw [hsteps, Kind.Exceeded]
  by_cases htask : kind.name = "task"
  · simp only [htask, not_true_eq_false, false_and, not_false_eq_true, true_and, if_true]
    rw [exists_base62FixedInt_iff (by decide) (.inr (by decide))]
    cases descending
    · simp only [Bool.false_eq_true, if_false, true_and, not_le]
      norm_cast
    · exact iff_of_true (by simp; omega) (by simp)
  · simp only [htask, not_false_eq_true, true_and, if_false]
    refine and_iff_left_of_imp fun hle => (exists_base62FixedInt_iff (by decide) (.inl ?_)).mpr ?_
    · split_ifs <;> omega
    · split_ifs <;> omega

/-- A call that throws leaves the generator as it was. -/
def Harmless (generator : Generator) (kind : Kind) (descending : Bool) (timestamp : Option ℤ) (bytes : ℕ → UInt8) : Prop :=
  ∀ message, (generator.create kind descending timestamp bytes).2 = .error message →
    (generator.create kind descending timestamp bytes).1 = generator

/-- A call is harmless unless it advances the clock beyond its digits. -/
theorem harmless_iff (generator : Generator) (kind : Kind) (descending : Bool) (timestamp : Option ℤ) (bytes : ℕ → UInt8) :
    Harmless generator kind descending timestamp bytes ↔ ¬generator.Overflows kind descending timestamp := by
  unfold Harmless Generator.create Generator.Overflows
  cases timestamp with
  | none => simp
  | some timestamp =>
    have hsafe : MAX_FIELD_VALUE ≤ MAX_SAFE_INTEGER := by decide
    simp only [Option.mem_def, Option.some.injEq, exists_eq_left']
    split_ifs with hunsafe hfield
    · exact iff_of_true (fun _ _ => rfl) (by omega)
    · exact iff_of_true (fun _ _ => rfl) (by omega)
    · have hmoved : Function.update generator (kind.name, descending)
          (some (State.next (generator (kind.name, descending)) timestamp.toNat)) ≠ generator := fun heq =>
        State.next_ne _ timestamp.toNat (by simpa using congrFun heq (kind.name, descending))
      rw [and_iff_right (by omega : 0 ≤ timestamp ∧ timestamp ≤ MAX_FIELD_VALUE),
        ← exists_encode_iff kind descending (State.next_sequence_le _ _) bytes]
      constructor
      · intro h
        cases hencode : kind.encode descending (State.next (generator (kind.name, descending)) timestamp.toNat) bytes with
        | error message => exact absurd (h message hencode) hmoved
        | ok id => exact ⟨id, rfl⟩
      · rintro ⟨id, hid⟩ message herror
        rw [hid] at herror
        cases herror

def session : Kind := ⟨"session", "ses", by decide⟩

/-- The largest accepted timestamp does not fit, and after it no id of the kind is created. -/
theorem not_harmless_session : ¬Harmless (fun _ => none) session false (some MAX_FIELD_VALUE) (fun _ => 0) ∧
    ∃ message, ((Generator.create (fun _ => none) session false (some MAX_FIELD_VALUE) fun _ => 0).1.create session false
      (some 1) fun _ => 0).2 = .error message := by
  refine ⟨fun h => ?_, _, rfl⟩
  have hclock := congrFun (h _ rfl) ("session", false)
  exact absurd hclock (by simp [Generator.create, session, MAX_FIELD_VALUE, MAX_SAFE_INTEGER])

end OpenCorvus.Identifier
