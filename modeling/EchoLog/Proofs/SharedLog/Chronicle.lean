import EchoLog.Proofs.SharedLog.Queue
import EchoLog.Proofs.Store.Faults
/-!
# What a run has done

The state of a shared log forgets: a session that has sent an echo knows nothing of it any more.  A
`Chronicle` keeps what the theory speaks about, as lists in the order of the events: the bytes that
sessions received, the packets and records that tasks had ready to be stored, the appends that asked
for the lock, the appends that were committed, each with the log as it stood right after it, and the
logs that the store gave back.

A `Traced` log carries its chronicle along; the chronicle never has a say in what happens
(`Traced.run?_now`).  What holds in the beginning and is kept by every move holds after every run
(`Traced.run_induction`), also if only moves of some kind are asked about (`Along`).
-/

namespace EchoLog

/-! ## Lists with an owner for each entry -/

/-- The entries that belong to a place. -/
def share {α : Type} (i : Nat) (l : List (Nat × α)) : List α :=
  l.filterMap fun p => if p.1 = i then some p.2 else none

section Share

variable {α : Type} (i : Nat)

@[simp] theorem share_nil : share i ([] : List (Nat × α)) = [] := rfl

@[simp] theorem share_append (l m : List (Nat × α)) : share i (l ++ m) = share i l ++ share i m :=
  List.filterMap_append ..

theorem share_self (l : List α) : share i (l.map (i, ·)) = l := by
  induction l with
  | nil => rfl
  | cons a l ih =>
      rw [share, List.map_cons, List.filterMap_cons]
      simp only [if_true]
      exact congrArg _ ih

theorem share_other {i j : Nat} (h : i ≠ j) (l : List α) : share j (l.map (i, ·)) = [] := by
  rw [share, List.filterMap_map, List.filterMap_eq_nil_iff]
  intro a _
  exact if_neg h

theorem mem_share {i : Nat} {a : α} {l : List (Nat × α)} : a ∈ share i l ↔ (i, a) ∈ l := by
  rw [share, List.mem_filterMap]
  constructor
  · rintro ⟨⟨j, b⟩, hm, h⟩
    split at h
    · rename_i hj
      cases h
      cases hj
      exact hm
    · cases h
  · intro hm
    exact ⟨_, hm, if_pos rfl⟩

theorem share_of_owner {i : Nat} {l : List (Nat × α)} (h : ∀ p ∈ l, p.1 = i) :
    share i l = l.map (·.2) := by
  induction l with
  | nil => rfl
  | cons p l ih =>
      rw [List.forall_mem_cons] at h
      rw [List.map_cons, ← ih h.2, share, List.filterMap_cons, if_pos h.1]
      rfl

end Share

/-! ## Chronicles -/

/-- An append that was committed. -/
structure Commit where
  bytes : Bytes
  /-- The log as it stood right after it. -/
  log : Bytes
deriving DecidableEq, Repr

namespace Work

/-- The append that is committed when work goes on to other work: one or none. -/
def landing (w w' : Work) : List Bytes :=
  if w'.isPast then w.bytes?.toList else []

theorem landing_of_isPast {w w' : Work} (h : w'.isPast = true) : w.landing w' = w.bytes?.toList :=
  if_pos h

theorem landing_of_not_isPast {w w' : Work} (h : w'.isPast = false) : w.landing w' = [] := by
  rw [landing, h, if_neg (by simp)]

/-- The commit of it, with the log right after it. -/
def commits (w w' : Work) (log : Bytes) : List Commit :=
  (w.landing w').map (⟨·, log⟩)

theorem bytes_commits (w w' : Work) (log : Bytes) :
    (w.commits w' log).map (·.bytes) = w.landing w' := by
  rw [commits, List.map_map]
  exact List.map_id _

/-- One append is committed, when the work has come past its write phase, or none. -/
theorem commits_cases (w w' : Work) (log : Bytes) : w.commits w' log = [] ∨
    (w'.isPast = true ∧ ∃ bytes, w.bytes? = some bytes ∧ w.commits w' log = [⟨bytes, log⟩]) := by
  cases hpast : w'.isPast with
  | false => exact .inl (by rw [commits, landing_of_not_isPast hpast, List.map_nil])
  | true =>
      rw [commits, landing_of_isPast hpast]
      cases w.bytes? with
      | none => exact .inl rfl
      | some bytes => exact .inr ⟨rfl, bytes, rfl, rfl⟩

end Work

/-- What has happened, each entry with the place of its task. -/
structure Chronicle where
  /-- What sessions received, chunk by chunk. -/
  received : List (Nat × Bytes) := []
  /-- The packets and records that tasks had ready to be stored. -/
  offered : List (Nat × Bytes) := []
  /-- The appends, in the order in which they asked for the lock. -/
  queued : List (Nat × Bytes) := []
  /-- The appends, in the order in which they were committed. -/
  commits : List (Nat × Commit) := []
  /-- The logs that the store gave back. -/
  returned : List (Nat × Bytes) := []
deriving DecidableEq, Repr

/-- The packet or record that a task has ready to be stored: one or none. -/
def Task.ready (t : Task) : List Bytes :=
  (t.request?.bind Request.bytes?).toList

namespace Task

theorem ready_receive (s : Session) (input : Except IoError Bytes) :
    (session (s.receive input)).ready = [] := by
  rcases input with _ | bytes
  · rfl
  · cases bytes <;> rfl

theorem ready_echo (s : Session) (left : Bytes) : (session (s.echo left)).ready = [] := by
  simp only [Session.echo, ready, request?]
  cases left.isEmpty <;> rfl

theorem ready_sent (s : Session) (left : Bytes) (result : Except IoError Nat) :
    (session (s.sent left result)).ready = [] := by
  rcases result with _ | n
  · rfl
  · cases n with
    | zero => rfl
    | succ n => exact ready_echo s (left.drop (n + 1))

theorem ready_flushed (s : Session) (result : Except IoError Unit) :
    (session (s.flushed result)).ready = [] := by
  cases result <;> rfl

/-- A task that waits for its peer or for the next tick has nothing ready. -/
theorem ready_of_canLeave {t : Task} (h : t.canLeave = true) : t.ready = [] := by
  rw [ready, request?_of_canLeave h]
  rfl

theorem ready_poll {s : Session} (h : (session s).canLeave = true) : (session s.poll).ready = [] :=
  ready_of_canLeave (t := .session s) h

theorem ready_leave {t : Task} (h : t.canLeave = true) : t.leave.ready = [] := by
  cases t with
  | session s => rfl
  | writer w => rfl
  | caller c => cases h

/-- A task that got its answer has nothing ready. -/
theorem ready_answered (t : Task) (answer : Answer) : (t.answered answer).ready = [] := by
  cases t with
  | session s =>
      simp only [answered]
      cases logOf answer with
      | error f => rfl
      | ok log => exact ready_echo ..
  | writer w =>
      simp only [answered]
      cases logOf answer <;> rfl
  | caller c => rfl

end Task

/-- The bytes that arrive with an event. -/
def Event.arrival : Event → List (Nat × Bytes)
  | .receive i (.ok chunk) => [(i, chunk)]
  | _ => []

namespace SharedLog

/-- What the log file holds, nothing if it is missing. -/
def content (g : SharedLog) : Bytes :=
  (g.disk.content? g.store.path).getD []

/-- The append that the task at a place has ready. -/
def wanted (g : SharedLog) (i : Nat) : List (Nat × Bytes) :=
  ((g.request? i).bind Request.bytes?).toList.map (i, ·)

theorem wanted_eq {g : SharedLog} {i : Nat} {t : Task} (h : g.task? i = some t) :
    g.wanted i = t.ready.map (i, ·) := by
  rw [wanted, request?, h]
  rfl

/-- The append that is committed when the holder's work goes on from one to the other. -/
def committed (g : SharedLog) : Option (Nat × Work) → Option (Nat × Work) → List (Nat × Commit)
  | some (i, w), some (_, w') => (w.commits w' g.content).map (i, ·)
  | _, _ => []

/-- The log that the holder gets. -/
def reply (g : SharedLog) : List (Nat × Bytes) :=
  match g.holder with
  | some (i, .finished (.ok (.log content))) => [(i, content)]
  | _ => []

theorem holder_of_mem_reply {g : SharedLog} {r : Nat × Bytes} (h : r ∈ g.reply) :
    g.holder = some (r.1, .finished (.ok (.log r.2))) := by
  unfold reply at h
  split at h
  · rename_i hw
    rw [List.mem_singleton.1 h]
    exact hw
  · cases h

end SharedLog

open SharedLog

/-- What an event from one state to another adds to a chronicle. -/
def Chronicle.note (c : Chronicle) (g : SharedLog) (e : Event) (g' : SharedLog) : Chronicle :=
  match e with
  | .receive _ _ => { c with received := c.received ++ e.arrival }
  | .frame i => { c with offered := c.offered ++ g'.wanted i }
  | .tick i _ _ => { c with offered := c.offered ++ g'.wanted i }
  | .ask i => { c with queued := c.queued ++ g.wanted i }
  | .file _ => { c with commits := c.commits ++ g'.committed g.holder g'.holder }
  | .release => { c with returned := c.returned ++ g.reply }
  | _ => c

/-- A move of one task notes what it received and what it has ready now. -/
theorem Chronicle.note_own {g g' : SharedLog} {c : Chronicle} {i : Nat} {cancelled : Bool} {e : Event}
    {t t' : Task} (hown : Task.Own i cancelled e t t') (h : g'.task? i = some t') :
    c.note g e g' =
      { c with received := c.received ++ e.arrival
               offered := c.offered ++ t'.ready.map (i, ·) } := by
  cases hown with
  | poll hwaits =>
      simp only [note, Task.ready_poll hwaits, Event.arrival, List.map_nil, List.append_nil]
  | receive => simp only [note, Task.ready_receive, List.map_nil, List.append_nil]
  | frame => simp only [note, wanted_eq h, Event.arrival, List.append_nil]
  | send => simp only [note, Task.ready_sent, Event.arrival, List.map_nil, List.append_nil]
  | flush => simp only [note, Task.ready_flushed, Event.arrival, List.map_nil, List.append_nil]
  | leave hleave =>
      simp only [note, Task.ready_leave hleave, Event.arrival, List.map_nil, List.append_nil]
  | tick => simp only [note, wanted_eq h, Event.arrival, List.append_nil]

/-- What a session receives is noted after what it had received. -/
theorem Chronicle.received_note (c : Chronicle) (g : SharedLog) (e : Event) (g' : SharedLog) (i : Nat) :
    share i (c.note g e g').received = share i c.received ++ share i e.arrival := by
  cases e with
  | receive j input => exact share_append i _ _
  | _ => exact (List.append_nil _).symm

/-- A shared log and what has happened to it. -/
structure Traced where
  now : SharedLog
  past : Chronicle := {}

namespace Traced

/-- What an event does, and what there is to say of it. -/
def step? (t : Traced) (e : Event) : Option Traced :=
  (t.now.step? e).map fun g => ⟨g, t.past.note t.now e g⟩

/-- A run with its chronicle. -/
def run? : Traced → List Event → Option Traced
  | t, [] => some t
  | t, e :: es => (t.step? e).bind fun t => t.run? es

/-- **Every run has a chronicle**, and having one does not change it. -/
theorem run?_now (t : Traced) (es : List Event) : (t.run? es).map (·.now) = t.now.run? es := by
  induction es generalizing t with
  | nil => rfl
  | cons e es ih =>
      rw [run?, SharedLog.run?, step?]
      cases t.now.step? e with
      | none => rfl
      | some g => exact ih ⟨g, _⟩

end Traced

/-! ## Runs of some kind -/

namespace SharedLog

/-- Whether every event of a run, in the state where it happens, is of some kind. -/
def Along (kind : SharedLog → Event → Bool) : SharedLog → List Event → Bool
  | _, [] => true
  | g, e :: es => kind g e && (g.step? e).all fun g => Along kind g es

/-- Events other than changes by other processes and rollbacks that fail. -/
def isUndisturbed (g : SharedLog) : Event → Bool
  | .outside _ => false
  | .file fault =>
    g.holder.all fun (_, w) => (w.step fault g.store g.disk).notices.all (!·.isFailedRollback)
  | _ => true

/-- Events other than changes by other processes and file steps that fail. -/
def isCalm (g : SharedLog) : Event → Bool
  | .outside _ => false
  | .file fault => g.holder.all fun (_, w) => !(w.step fault g.store g.disk).work.isFailing
  | _ => true

/-- Events other than file steps that fail. -/
def isFlawless (g : SharedLog) : Event → Bool
  | .file fault => g.holder.all fun (_, w) => !(w.step fault g.store g.disk).work.isFailing
  | _ => true

theorem isFlawless_of_isCalm {g : SharedLog} {e : Event} (h : g.isCalm e = true) :
    g.isFlawless e = true := by
  cases e with
  | file fault => exact h
  | _ => rfl

/-- Where nothing fails no rollback fails. -/
theorem isUndisturbed_of_isCalm {g : SharedLog} {e : Event} (h : g.isCalm e = true) :
    g.isUndisturbed e = true := by
  cases e with
  | outside change => cases h
  | file fault =>
      simp only [isCalm, isUndisturbed] at h ⊢
      cases hw : g.holder with
      | none => rfl
      | some p =>
          rw [hw] at h
          simp only [Option.all_some] at h ⊢
          rcases Work.notices_step fault g.store g.disk p.2 with hfail | hnone
          · rw [hfail] at h
            cases h
          · rw [hnone]
            rfl
  | _ => rfl

end SharedLog

/-- **What every move of a kind keeps, a run of that kind keeps.** -/
theorem Traced.run_induction {kind : SharedLog → Event → Bool} {P : SharedLog → Chronicle → Prop}
    (hmove : ∀ {g g' : SharedLog} {c : Chronicle} {e : Event}, kind g e = true → P g c →
      SharedLog.Move g e g' → P g' (c.note g e g'))
    {t t' : Traced} {es : List Event} (h : P t.now t.past) (hkind : t.now.Along kind es = true)
    (hrun : t.run? es = some t') : P t'.now t'.past := by
  induction es generalizing t with
  | nil =>
      cases hrun
      exact h
  | cons e es ih =>
      rw [SharedLog.Along, Bool.and_eq_true] at hkind
      rw [run?, step?, Option.bind_eq_some_iff] at hrun
      obtain ⟨u, hu, hrun⟩ := hrun
      obtain ⟨g, hg, rfl⟩ := Option.map_eq_some_iff.1 hu
      obtain ⟨hfirst, hrest⟩ := hkind
      rw [hg, Option.all_some] at hrest
      exact ih (hmove hfirst h (SharedLog.move_of_step? hg)) hrest hrun

end EchoLog
