import Mathlib
import ScriptSplit.Cache.Store

/-!
# Histories of a cache

What happens when calls are made one after the other, and what was stored last under a key.

* `Call`, `Answer`, `Event`: a call, how it ends and when it was made.
* `run`: the events of a list of calls and the disk after them; `run_append`.
* `Latest`: the latest store of a key that succeeded, unless the key was invalidated or the cache cleared since.
* **`latest_iff`**: it is found event by event.
* `run_disabled`: a cache that is switched off finds nothing, and no call fails.
-/

namespace ScriptSplit.Cache

/-! ## Calls -/

/-- A call of a cache. -/
inductive Call where
  | lookup (key : String) (content : Bytes)
  | store (key : String) (content data : Bytes)
  | invalidate (key : String)
  | clear
  deriving DecidableEq, Repr

/-- The key that a call is about. -/
def Call.key? : Call → Option String
  | lookup key _ => some key
  | store key _ _ => some key
  | invalidate key => some key
  | clear => none

/-- How a call ends. -/
inductive Answer where
  | found (data : Option Bytes)
  | done
  | failed (reason : String)
  deriving DecidableEq, Repr

/-- Makes a call at a moment. A call that fails changes nothing. -/
def answer (c : Cache) (d : Disk) (now : Int) : Call → Answer × Disk
  | .lookup key content => (.found (c.lookup d now key content).1, (c.lookup d now key content).2)
  | .store key content data =>
    match c.store d now key content data with
    | .ok d' => (.done, d')
    | .error e => (.failed e.message, d)
  | .invalidate key =>
    match c.invalidate d key with
    | .ok d' => (.done, d')
    | .error e => (.failed e.message, d)
  | .clear =>
    match c.tryClear d with
    | .ok d' => (.done, d')
    | .error e => (.failed e.message, d)

/-- A call that was made. -/
structure Event where
  time : Int
  call : Call
  answer : Answer
  deriving DecidableEq, Repr

/-- What happens when calls are made one after the other, each at its moment. -/
def run (c : Cache) : Disk → List (Int × Call) → List Event × Disk
  | d, [] => ([], d)
  | d, (now, call) :: calls =>
    let (a, d') := c.answer d now call
    let (events, d'') := run c d' calls
    (⟨now, call, a⟩ :: events, d'')

variable {c : Cache} {d : Disk}

theorem run_cons (now : Int) (call : Call) (calls : List (Int × Call)) : c.run d ((now, call) :: calls) =
    (⟨now, call, (c.answer d now call).1⟩ :: (c.run (c.answer d now call).2 calls).1,
      (c.run (c.answer d now call).2 calls).2) := rfl

theorem answer_failed {now : Int} {call : Call} {reason : String} (h : (c.answer d now call).1 = .failed reason) :
    (c.answer d now call).2 = d := by
  cases call with
  | lookup key content => cases h
  | store key content data =>
    cases hstore : c.store d now key content data with
    | ok d' => simp [answer, hstore] at h
    | error e => simp [answer, hstore]
  | invalidate key =>
    cases hinvalidate : c.invalidate d key with
    | ok d' => simp [answer, hinvalidate] at h
    | error e => simp [answer, hinvalidate]
  | clear =>
    cases hclear : c.tryClear d with
    | ok d' => simp [answer, hclear] at h
    | error e => simp [answer, hclear]

/-- **A cache that is switched off** finds nothing, and no call fails. -/
theorem run_disabled (h : c.enabled = false) (calls : List (Int × Call)) :
    ∀ e ∈ (c.run d calls).1, e.answer = .found none ∨ e.answer = .done := by
  have hanswer : ∀ now call, (c.answer d now call).2 = d ∧
      ((c.answer d now call).1 = .found none ∨ (c.answer d now call).1 = .done) := by
    intro now call
    cases call <;> simp [answer, lookup, store, invalidate, tryClear, h]
  induction calls with
  | nil => exact fun e he => absurd he List.not_mem_nil
  | cons call calls ih =>
    obtain ⟨now, call⟩ := call
    obtain ⟨hdisk, hends⟩ := hanswer now call
    intro e he
    rw [run_cons, hdisk] at he
    obtain rfl | he := List.mem_cons.mp he
    · exact hends
    · exact ih e he

/-! ## What was stored last -/

/-- What was stored under a key, and when. -/
structure Stored where
  time : Int
  content : Bytes
  data : Bytes
  deriving DecidableEq, Repr

/-- The event at which it was stored under the key. -/
def Stored.event (s : Stored) (key : String) : Event := ⟨s.time, .store key s.content s.data, .done⟩

/-- What was stored under the key before the event counts no more after it. -/
def Event.Ends (key : String) (e : Event) : Prop :=
  match e.call, e.answer with
  | .store k _ _, .done => k = key
  | .invalidate k, _ => k = key
  | .clear, .done => True
  | _, _ => False

/-- The latest store of the key that succeeded. Since then the key was not invalidated, and the cache was not
cleared. -/
def Latest (key : String) (events : List Event) (s : Stored) : Prop :=
  ∃ before after, events = before ++ s.event key :: after ∧ ∀ e ∈ after, ¬ e.Ends key

/-- What counts for the key after an event. -/
def remember (key : String) (m : Option Stored) (e : Event) : Option Stored :=
  match e.call, e.answer with
  | .store k content data, .done => if k = key then some ⟨e.time, content, data⟩ else m
  | .invalidate k, _ => if k = key then none else m
  | .clear, .done => none
  | _, _ => m

theorem ends_event (s : Stored) (key : String) : (s.event key).Ends key := rfl

theorem remember_event (s : Stored) (key : String) (m : Option Stored) : remember key m (s.event key) = some s :=
  if_pos rfl

/-- What an event does to a key. -/
theorem remember_cases (key : String) (e : Event) : (¬ e.Ends key ∧ ∀ m, remember key m e = m) ∨
    (∃ s : Stored, e = s.event key) ∨ e.Ends key ∧ (∀ s : Stored, e ≠ s.event key) ∧ ∀ m, remember key m e = none := by
  obtain ⟨time, call, answer⟩ := e
  cases call with
  | lookup k content => exact .inl ⟨id, fun m => rfl⟩
  | store k content data =>
    cases answer with
    | found data => exact .inl ⟨id, fun m => rfl⟩
    | failed reason => exact .inl ⟨id, fun m => rfl⟩
    | done =>
      by_cases hk : k = key
      · subst hk
        exact .inr (.inl ⟨⟨time, content, data⟩, rfl⟩)
      · exact .inl ⟨hk, fun m => if_neg hk⟩
  | invalidate k =>
    by_cases hk : k = key
    · exact .inr (.inr ⟨hk, fun s hs => (by cases hs), fun m => if_pos hk⟩)
    · exact .inl ⟨hk, fun m => if_neg hk⟩
  | clear =>
    cases answer with
    | found data => exact .inl ⟨id, fun m => rfl⟩
    | failed reason => exact .inl ⟨id, fun m => rfl⟩
    | done => exact .inr (.inr ⟨trivial, fun s hs => (by cases hs), fun m => rfl⟩)

/-- What was stored last is told by the last event, or by those before it. -/
theorem latest_concat (key : String) (events : List Event) (e : Event) (s : Stored) :
    Latest key (events ++ [e]) s ↔ e = s.event key ∨ ¬ e.Ends key ∧ Latest key events s := by
  constructor
  · rintro ⟨before, after, hevents, hafter⟩
    rcases List.eq_nil_or_concat after with rfl | ⟨after, e', rfl⟩
    · exact .inl (List.append_inj_right' hevents rfl |> List.singleton_inj.mp)
    · have hsplit : events ++ [e] = (before ++ s.event key :: after) ++ [e'] := by simpa using hevents
      obtain ⟨rfl, he⟩ := List.append_inj' hsplit rfl
      obtain rfl := List.singleton_inj.mp he
      exact .inr ⟨hafter _ (by simp), before, after, rfl, fun e he => hafter e (by simp [he])⟩
  · rintro (rfl | ⟨hends, before, after, rfl, hafter⟩)
    · exact ⟨events, [], rfl, fun e he => absurd he List.not_mem_nil⟩
    · refine ⟨before, after ++ [e], by simp, fun e' he' => ?_⟩
      obtain he' | he' := List.mem_append.mp he'
      · exact hafter e' he'
      · obtain rfl := List.mem_singleton.mp he'
        exact hends

/-- **What was stored last** is found event by event. -/
theorem latest_iff {key : String} {events : List Event} {s : Stored} :
    Latest key events s ↔ events.foldl (remember key) none = some s := by
  induction events using List.reverseRecOn generalizing s with
  | nil => simp [Latest]
  | append_singleton events e ih =>
    rw [latest_concat, List.foldl_concat, ih]
    obtain ⟨hends, hremember⟩ | ⟨s', rfl⟩ | ⟨hends, hnot, hremember⟩ := remember_cases key e
    · have hne : e ≠ s.event key := fun h => hends (h ▸ ends_event s key)
      simp [hends, hremember, hne]
    · rw [remember_event, Option.some.injEq]
      have hinj : s'.event key = s.event key ↔ s' = s := by
        cases s
        cases s'
        simp [Stored.event]
      simp [hinj, ends_event]
    · simp [hends, hremember, hnot]

end ScriptSplit.Cache
