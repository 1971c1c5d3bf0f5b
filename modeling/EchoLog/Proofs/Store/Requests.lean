import EchoLog.Proofs.Store.WritePhase
/-!
# Requests and histories of a store

An append with an echo is the append without it and then, if that has not failed, a read under the
same lock (`Store.perform_echo`).  So the write phase of an append is the append without an echo, and
an echo can fail in two ways: in its write phase, or only in reading back.

A history is what a store has gone through under any faults: the requests one after another, with the
appends that came through their write phase (`landed`) and everything that was reported.  Requests to
remove the log are left out; the others either write (`History.call_write`) or change nothing
(`History.call_read`).
-/

namespace EchoLog

/-- One file step fails and no other. -/
def Faults.only (step : FileStep) (fault : Fault) : Faults :=
  fun s => if s = step then some fault else Option.none

/-- A store is created when its file is, and has counted nothing. -/
theorem Store.create_eq_ok_iff {disk fresh : Disk} {path : Path} {sync : Bool} {store : Store} :
    Store.create disk path sync = .ok (store, fresh) ↔
      disk.create path = .ok fresh ∧ store = { path := path, sync := sync } := by
  unfold Store.create
  cases disk.create path with
  | error cause => exact ⟨nofun, nofun⟩
  | ok made =>
      constructor
      · intro h
        cases h
        exact ⟨rfl, rfl⟩
      · rintro ⟨hmade, rfl⟩
        cases hmade
        rfl

/-! ## Single requests -/

/-- The bytes that a request appends. -/
def Request.bytes? : Request → Option Bytes
  | .echo bytes => some bytes
  | .append bytes => some bytes
  | _ => none

/-- The answer to a request to read the log. -/
def Store.readBack (store : Store) (disk : Disk) (faults : Faults) : Answer :=
  match faults .reading with
  | some f => .error (.storage f.error)
  | none =>
    match disk.read store.path with
    | .error cause => .error (.storage cause)
    | .ok content => .ok (.log content)

/-- An outcome followed by reading the log, unless it is a failure. -/
def Outcome.thenRead (o : Outcome) (faults : Faults) : Outcome :=
  match o.answer with
  | .error _ => o
  | .ok _ => { o with answer := o.store.readBack o.disk faults }

namespace Outcome

variable (o : Outcome) (faults : Faults)

theorem thenRead_store : (o.thenRead faults).store = o.store := by
  unfold thenRead
  split <;> rfl

theorem thenRead_disk : (o.thenRead faults).disk = o.disk := by
  unfold thenRead
  split <;> rfl

theorem thenRead_notices : (o.thenRead faults).notices = o.notices := by
  unfold thenRead
  split <;> rfl

end Outcome

namespace Work

variable (faults : Faults) (store : Store) (disk : Disk)

theorem run_reading :
    reading.run faults store disk = ⟨store.readBack disk faults, store, disk, []⟩ := by
  rw [run_step faults store disk rfl, Store.readBack]
  simp only [fileStep?, Option.bind_some, step]
  cases faults .reading with
  | some f => exact run_finished ..
  | none =>
      cases disk.read store.path with
      | error cause => exact run_finished ..
      | ok content => exact run_finished ..

theorem finish_commit_echo (bytes : Bytes) :
    (commit store disk bytes true).finish faults =
      ((commit store disk bytes false).finish faults).thenRead faults := by
  simp only [commit, Progress.finish, if_true, Bool.false_eq_true, if_false, run_reading, run_finished,
    Outcome.thenRead]

/-- After cutting, the request has failed, and nothing is read back. -/
theorem run_cutting_thenRead (file : Handle) (cause : IoError) :
    ((cutting file cause).run faults store disk).thenRead faults =
      (cutting file cause).run faults store disk := by
  rw [run_step faults store disk rfl]
  simp only [fileStep?, Option.bind_some, step]
  split
  · simp only [Progress.finish, failed, run_finished, Outcome.thenRead]
  · split
    all_goals simp only [Progress.finish, failed, run_finished, Outcome.thenRead]

theorem run_syncing_echo (file : Handle) (bytes : Bytes) :
    (syncing file bytes true).run faults store disk =
      ((syncing file bytes false).run faults store disk).thenRead faults := by
  rw [run_step faults store disk rfl, run_step faults store disk rfl]
  simp only [fileStep?, Option.bind_some, step]
  split
  · exact (run_cutting_thenRead ..).symm
  · exact finish_commit_echo ..

theorem run_flushing_echo (file : Handle) (bytes : Bytes) :
    (flushing file bytes true).run faults store disk =
      ((flushing file bytes false).run faults store disk).thenRead faults := by
  rw [run_step faults store disk rfl, run_step faults store disk rfl]
  simp only [fileStep?, Option.bind_some, step]
  split
  · exact (run_cutting_thenRead ..).symm
  · split
    · exact run_syncing_echo ..
    · exact finish_commit_echo ..

theorem run_writing_echo (file : Handle) (bytes : Bytes) :
    (writing file bytes true).run faults store disk =
      ((writing file bytes false).run faults store disk).thenRead faults := by
  rw [run_step faults store disk rfl, run_step faults store disk rfl]
  simp only [fileStep?, Option.bind_some, step]
  split
  · exact (run_cutting_thenRead ..).symm
  · split
    · exact (run_cutting_thenRead ..).symm
    · exact run_flushing_echo ..

theorem run_opening_echo (bytes : Bytes) :
    (opening bytes true).run faults store disk =
      ((opening bytes false).run faults store disk).thenRead faults := by
  rw [run_step faults store disk rfl, run_step faults store disk rfl]
  simp only [fileStep?, Option.bind_some, step]
  split
  · simp only [Progress.finish, failed, run_finished, Outcome.thenRead]
  · split
    · simp only [Progress.finish, failed, run_finished, Outcome.thenRead]
    · exact run_writing_echo ..

end Work

/-- How an append to a file ends, and what it leaves there. -/
inductive AppendEnd (store : Store) (bytes base : Bytes) : Outcome → Prop where
  | committed {disk : Disk} : disk.content? store.path = some (base ++ bytes) →
      AppendEnd store bytes base
        ⟨.ok .done, { store with committed := store.committed + bytes.length }, disk, []⟩
  | refused {disk : Disk} {failure : Failure} : disk.content? store.path = some base →
      AppendEnd store bytes base ⟨.error failure, store, disk, []⟩
  | cutBack {disk : Disk} {failure : Failure} {cause : IoError} (n : Nat) :
      disk.content? store.path = some (resized store.committed (base ++ bytes.take n)) →
      AppendEnd store bytes base ⟨.error failure, store, disk, [.cutBack cause store.committed]⟩
  | notCutBack {disk : Disk} {failure : Failure} {error : IoError} (n : Nat) :
      disk.content? store.path = some (base ++ bytes.take n) →
      AppendEnd store bytes base ⟨.error failure, store, disk, [.notCutBack error store.committed]⟩

namespace Store

variable (store : Store) (disk : Disk) (faults : Faults)

/-- **An append with an echo is an append and then a read.** -/
theorem perform_echo (bytes : Bytes) :
    store.perform disk (.echo bytes) faults =
      (store.perform disk (.append bytes) faults).thenRead faults :=
  Work.run_opening_echo ..

/-- What a request that writes leaves is what its append leaves. -/
theorem perform_write {request : Request} {bytes : Bytes} (h : request.bytes? = some bytes) :
    (store.perform disk request faults).store = (store.perform disk (.append bytes) faults).store ∧
      (store.perform disk request faults).disk = (store.perform disk (.append bytes) faults).disk ∧
      (store.perform disk request faults).notices =
        (store.perform disk (.append bytes) faults).notices := by
  cases request with
  | echo _ =>
      cases h
      rw [perform_echo]
      exact ⟨Outcome.thenRead_store .., Outcome.thenRead_disk .., Outcome.thenRead_notices ..⟩
  | append _ =>
      cases h
      exact ⟨rfl, rfl, rfl⟩
  | snapshot | remove | size => cases h

theorem perform_snapshot :
    store.perform disk .snapshot faults = ⟨store.readBack disk faults, store, disk, []⟩ :=
  Work.run_reading ..

theorem perform_size :
    store.perform disk .size faults = ⟨.ok (.size store.committed), store, disk, []⟩ :=
  Work.run_finished ..

/-- **An append to a file that is there ends as its write phase does.** -/
theorem perform_append {base : Bytes} (bytes : Bytes) (h : disk.content? store.path = some base) :
    AppendEnd store bytes base (store.perform disk (.append bytes) faults) := by
  have hphase : WritePhase store.path disk bytes false base (.opening bytes false) := .opening h
  obtain ⟨p, hp, hrun⟩ := WritePhase.run faults hphase
  -- without an echo nothing is read, so the outcome is what the phase has come to
  rw [show store.perform disk (.append bytes) faults = p.finish faults from hrun]
  cases hp with
  | committed h =>
      simp only [Work.commit, Progress.finish, Bool.false_eq_true, if_false, Work.run_finished]
      exact .committed h
  | refused h =>
      simp only [Work.failed, Progress.finish, Work.run_finished]
      exact .refused h
  | cutBack n h =>
      simp only [Work.failed, Progress.finish, Work.run_finished]
      exact .cutBack n h
  | notCutBack n h =>
      simp only [Work.failed, Progress.finish, Work.run_finished]
      exact .notCutBack n h

/-- An append to a missing file fails and leaves everything as it is. -/
theorem perform_append_missing (bytes : Bytes) (h : disk.content? store.path = none) :
    ∃ failure, store.perform disk (.append bytes) faults = ⟨.error failure, store, disk, []⟩ := by
  have hopen : ∃ cause, disk.openToAppend store.path = .error cause := by
    unfold Disk.content? at h
    unfold Disk.openToAppend
    cases hf : disk.findFile store.path with
    | error cause => exact ⟨cause, rfl⟩
    | ok found =>
        rw [hf] at h
        cases h
  obtain ⟨cause, hcause⟩ := hopen
  unfold perform Work.ofRequest
  rw [Work.run_step faults store disk rfl]
  simp only [Work.fileStep?, Option.bind_some, Work.step, hcause]
  cases faults .opening
  all_goals
    simp only [Progress.finish, Work.failed, Work.run_finished]
    exact ⟨_, rfl⟩

variable {store disk faults}

/-- What is read back is what the file holds. -/
theorem content?_of_readBack {reply : Reply} (h : store.readBack disk faults = .ok reply) :
    ∃ content, reply = .log content ∧ disk.content? store.path = some content := by
  unfold readBack at h
  split at h
  · cases h
  · split at h
    · cases h
    · rename_i content hread
      cases h
      exact ⟨content, rfl, Disk.content?_of_read hread⟩

end Store

/-! ## Histories -/

/-- A request that does not remove the log, and the faults it meets. -/
structure Call where
  request : Request
  faults : Faults
  stays : request ≠ .remove

/-- An append that came through its write phase. -/
structure Landing where
  /-- The length of the file when the append began. -/
  start : Nat
  bytes : Bytes
  /-- Whether the caller was told so. -/
  acknowledged : Bool
deriving DecidableEq, Repr

/-- The store and the disk, and what has happened to them. -/
structure History where
  store : Store
  disk : Disk
  landed : List Landing := []
  notices : List Notice := []

namespace History

/-- A log that was just created on an empty disk. -/
def created : History :=
  { store := { path := ⟨[], "data"⟩ }
    disk := { nodes := [(["data"], .file [])] } }

variable (s : History) (c : Call)

/-- What the log file holds, nothing if it is missing. -/
def content : Bytes :=
  (s.disk.content? s.store.path).getD []

/-- How a call ends. -/
def outcome : Outcome :=
  s.store.perform s.disk c.request c.faults

/-- How the write phase of a call ends, which is that of an append without an echo. -/
def writeOutcome (bytes : Bytes) : Outcome :=
  s.store.perform s.disk (.append bytes) c.faults

/-- The appends that come through their write phase in a call: one or none. -/
def landing : List Landing :=
  match c.request.bytes? with
  | none => []
  | some bytes =>
    if (s.writeOutcome c bytes).answer.toBool then
      [⟨s.content.length, bytes, (s.outcome c).answer.toBool⟩]
    else []

/-- The history after one more call. -/
def call : History :=
  { store := (s.outcome c).store
    disk := (s.outcome c).disk
    landed := s.landed ++ s.landing c
    notices := s.notices ++ (s.outcome c).notices }

/-- The history after some more calls. -/
def after (calls : List Call) : History :=
  calls.foldl call s

theorem after_append (calls more : List Call) : s.after (calls ++ more) = (s.after calls).after more :=
  List.foldl_append

/-- What a call that writes leaves is what its write phase leaves. -/
theorem outcome_write {bytes : Bytes} (h : c.request.bytes? = some bytes) :
    (s.outcome c).store = (s.writeOutcome c bytes).store ∧
      (s.outcome c).disk = (s.writeOutcome c bytes).disk ∧
      (s.outcome c).notices = (s.writeOutcome c bytes).notices :=
  Store.perform_write s.store s.disk c.faults h

theorem outcome_read (h : c.request.bytes? = none) :
    (s.outcome c).store = s.store ∧ (s.outcome c).disk = s.disk ∧ (s.outcome c).notices = [] := by
  unfold outcome
  cases hr : c.request with
  | echo b => rw [hr] at h; cases h
  | append b => rw [hr] at h; cases h
  | snapshot => rw [Store.perform_snapshot]; exact ⟨rfl, rfl, rfl⟩
  | remove => exact absurd hr c.stays
  | size => rw [Store.perform_size]; exact ⟨rfl, rfl, rfl⟩

/-- **A call that writes leaves the store, the disk and the reports of its write phase.** -/
theorem call_write {bytes : Bytes} (h : c.request.bytes? = some bytes) :
    s.call c =
      { store := (s.writeOutcome c bytes).store
        disk := (s.writeOutcome c bytes).disk
        landed := s.landed ++ s.landing c
        notices := s.notices ++ (s.writeOutcome c bytes).notices } := by
  obtain ⟨hstore, hdisk, hnotices⟩ := s.outcome_write c h
  rw [call, hstore, hdisk, hnotices]

/-- **Any other call leaves everything as it is.** -/
theorem call_read (h : c.request.bytes? = none) : s.call c = s := by
  obtain ⟨hstore, hdisk, hnotices⟩ := s.outcome_read c h
  have hlanding : s.landing c = [] := by rw [landing, h]
  rw [call, hstore, hdisk, hnotices, hlanding, List.append_nil, List.append_nil]

end History

end EchoLog
