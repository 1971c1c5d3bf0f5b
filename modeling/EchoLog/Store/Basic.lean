import EchoLog.Disk.Basic
import EchoLog.Notice
/-!
# The log store

A store knows the path of the log file and how many bytes it has committed.  Every request is a short
sequence of file steps, taken one at a time while the store's lock is held: `Work` is what the holder
does next and `Work.step` takes one step.  Each step does what the disk allows, or fails as a given
fault says, so that a run can be asked about under every pattern of failures.

An append opens the file without creating it, writes, flushes and, if so configured, syncs.  If any of
these fails after the opening, the file is cut to the committed length.  Only when all have succeeded
are the bytes counted; an append that asks for an echo then reads the whole file.
-/

namespace EchoLog

/-- A log store. -/
structure Store where
  path : Path
  sync : Bool := false
  /-- The bytes counted so far. -/
  committed : Nat := 0
deriving DecidableEq, Repr

/-- What a task asks of the store. -/
inductive Request where
  /-- Append, and read the log back. -/
  | echo (bytes : Bytes)
  /-- Append. -/
  | append (bytes : Bytes)
  /-- Read the log. -/
  | snapshot
  /-- Remove the log file. -/
  | remove
  /-- Tell the committed length. -/
  | size
deriving DecidableEq, Repr

/-- What the store answers. -/
inductive Reply where
  | log (content : Bytes)
  | done
  | size (bytes : Nat)
deriving DecidableEq, Repr

/-- An answer or a failure. -/
abbrev Answer := Except Failure Reply

/-- The file steps that can fail. -/
inductive FileStep where
  | opening
  | writing
  | flushing
  | syncing
  | cutting
  | reading
  | unlinking
deriving DecidableEq, Repr

/-- A failure of a file step.  A write that fails may have stored some of its bytes. -/
structure Fault where
  error : IoError
  stored : Nat := 0
deriving DecidableEq, Repr

/-- The faults of a run of file steps. -/
abbrev Faults := FileStep → Option Fault

/-- No fault beyond what the disk refuses. -/
def Faults.none : Faults := fun _ => Option.none

/-- What the holder of the lock does next; `echo` says that the log is read back after an append. -/
inductive Work where
  | opening (bytes : Bytes) (echo : Bool)
  | writing (file : Handle) (bytes : Bytes) (echo : Bool)
  | flushing (file : Handle) (bytes : Bytes) (echo : Bool)
  | syncing (file : Handle) (bytes : Bytes) (echo : Bool)
  | cutting (file : Handle) (cause : IoError)
  | reading
  | unlinking
  | finished (answer : Answer)

/-- The holder, the store and the disk after a step, and what was reported. -/
structure Progress where
  work : Work
  store : Store
  disk : Disk
  notices : List Notice := []

namespace Work

/-- The first step of a request. -/
def ofRequest (store : Store) : Request → Work
  | .echo bytes => .opening bytes true
  | .append bytes => .opening bytes false
  | .snapshot => .reading
  | .remove => .unlinking
  | .size => .finished (.ok (.size store.committed))

/-- The file step that comes next. -/
def fileStep? : Work → Option FileStep
  | .opening _ _ => some .opening
  | .writing _ _ _ => some .writing
  | .flushing _ _ _ => some .flushing
  | .syncing _ _ _ => some .syncing
  | .cutting _ _ => some .cutting
  | .reading => some .reading
  | .unlinking => some .unlinking
  | .finished _ => none

/-- Changes the handle of the open file, if there is one. -/
def withHandle (f : Handle → Handle) : Work → Work
  | .writing file bytes echo => .writing (f file) bytes echo
  | .flushing file bytes echo => .flushing (f file) bytes echo
  | .syncing file bytes echo => .syncing (f file) bytes echo
  | .cutting file cause => .cutting (f file) cause
  | w => w

/-- A failed request. -/
def failed (cause : IoError) : Work :=
  .finished (.error (.storage cause))

/-- Counts appended bytes and goes on to the echo, if one is asked for. -/
def commit (store : Store) (disk : Disk) (bytes : Bytes) (echo : Bool) : Progress :=
  { work := if echo then .reading else .finished (.ok .done)
    store := { store with committed := store.committed + bytes.length }
    disk := disk }

/-- Takes the next step. -/
def step (fault : Option Fault) (store : Store) (disk : Disk) : Work → Progress
  | .opening bytes echo =>
    match fault with
    | some f => ⟨failed f.error, store, disk, []⟩
    | none =>
      match disk.openToAppend store.path with
      | .error cause => ⟨failed cause, store, disk, []⟩
      | .ok place => ⟨.writing (.linked place) bytes echo, store, disk, []⟩
  | .writing file bytes echo =>
    match fault with
    | some f =>
      let (file, disk, _) := file.change disk (Node.append disk.limit (bytes.take f.stored))
      ⟨.cutting file f.error, store, disk, []⟩
    | none =>
      match file.change disk (Node.append disk.limit bytes) with
      | (file, disk, some cause) => ⟨.cutting file cause, store, disk, []⟩
      | (file, disk, none) => ⟨.flushing file bytes echo, store, disk, []⟩
  | .flushing file bytes echo =>
    match fault with
    | some f => ⟨.cutting file f.error, store, disk, []⟩
    | none =>
      if store.sync then ⟨.syncing file bytes echo, store, disk, []⟩
      else commit store disk bytes echo
  | .syncing file bytes echo =>
    match fault.map (·.error) <|> (file.node? disk).bind Node.syncError with
    | some cause => ⟨.cutting file cause, store, disk, []⟩
    | none => commit store disk bytes echo
  | .cutting file cause =>
    match fault with
    | some f => ⟨failed cause, store, disk, [.notCutBack f.error store.committed]⟩
    | none =>
      match file.change disk (Node.resize disk.limit store.committed) with
      | (_, disk, some error) => ⟨failed cause, store, disk, [.notCutBack error store.committed]⟩
      | (_, disk, none) => ⟨failed cause, store, disk, [.cutBack cause store.committed]⟩
  | .reading =>
    match fault with
    | some f => ⟨failed f.error, store, disk, []⟩
    | none =>
      match disk.read store.path with
      | .error cause => ⟨failed cause, store, disk, []⟩
      | .ok content => ⟨.finished (.ok (.log content)), store, disk, []⟩
  | .unlinking =>
    let removed : Except IoError Disk := match fault with
      | some f => .error f.error
      | none => disk.unlink store.path
    match removed with
    | .ok disk => ⟨.finished (.ok .done), store, disk, []⟩
    | .error cause =>
      if cause.kind = .notFound then ⟨.finished (.ok .done), store, disk, []⟩
      else ⟨failed cause, store, disk, []⟩
  | .finished answer => ⟨.finished answer, store, disk, []⟩

/-- An upper bound on the steps that are left. -/
def stepsLeft : Work → Nat
  | .opening _ _ => 6
  | .writing _ _ _ => 5
  | .flushing _ _ _ => 4
  | .syncing _ _ _ => 3
  | .cutting _ _ => 1
  | .reading => 1
  | .unlinking => 1
  | .finished _ => 0

/-- The answer of a request that has come to its end. -/
def answer? : Work → Option Answer
  | .finished answer => some answer
  | _ => none

/-- Every step before the end brings the end nearer. -/
theorem stepsLeft_step {w : Work} (fault : Option Fault) (store : Store) (disk : Disk)
    (h : w.answer? = none) : (w.step fault store disk).work.stepsLeft < w.stepsLeft := by
  cases w <;> simp only [answer?, reduceCtorEq] at h <;> simp only [step, commit, failed]
  all_goals (repeat' split)
  all_goals simp [stepsLeft]

end Work

/-- The end of a request: its answer, and the store and the disk after it. -/
structure Outcome where
  answer : Answer
  store : Store
  disk : Disk
  notices : List Notice := []

namespace Work

/-- Takes all steps that are left, under given faults. -/
def run (faults : Faults) (store : Store) (disk : Disk) (w : Work) : Outcome :=
  match h : w.answer? with
  | some answer => ⟨answer, store, disk, []⟩
  | none =>
    have := stepsLeft_step (w.fileStep?.bind faults) store disk h
    let p := w.step (w.fileStep?.bind faults) store disk
    let o := p.work.run faults p.store p.disk
    { o with notices := p.notices ++ o.notices }
termination_by w.stepsLeft

end Work

namespace Store

/-- Creates the log file, or empties it, and starts counting. -/
def create (disk : Disk) (path : Path) (sync : Bool) : Except Failure (Store × Disk) :=
  match disk.create path with
  | .error cause => .error (.storage cause)
  | .ok disk => .ok ({ path := path, sync := sync }, disk)

/-- A request from its first step to its answer, with nobody in between. -/
def perform (store : Store) (disk : Disk) (request : Request) (faults : Faults := .none) : Outcome :=
  (Work.ofRequest store request).run faults store disk

end Store

end EchoLog
