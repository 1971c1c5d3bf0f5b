import EchoLog.Proofs.Disk.Changes
import EchoLog.Proofs.Service.Writers
import EchoLog.Service.Start
/-!
# Starts that fail

Creating the log file loses the log of an earlier run, so it has to come after everything else that can
fail.  That is so: what comes before it leaves the disk alone (`Startup.Spares`), what comes after it
cannot fail (`Startup.Certain`), and it changes nothing when it fails itself (`Startup.Careful`).

Two things are asked of the host: that it changes nothing when it refuses to open the log file, and that it
can tell the address of a listener that it has bound.
-/

namespace EchoLog

/-! ## Parts of a start -/

namespace Startup

variable {α β : Type} {x : Startup α} {k : α → Startup β} {disk left : Disk} {f : Failure} {b : β}

/-- It leaves the disk as it was. -/
def Spares (x : Startup α) : Prop :=
  ∀ disk, (∀ a left, x.run disk = .ok a left → left = disk) ∧
    ∀ f left, x.run disk = .error f left → left = disk

/-- It leaves the disk as it was if it fails. -/
def Careful (x : Startup α) : Prop :=
  ∀ disk f left, x.run disk = .error f left → left = disk

/-- It does not fail. -/
def Certain (x : Startup α) : Prop :=
  ∀ disk f left, x.run disk ≠ .error f left

theorem run_bind_eq_ok : (x >>= k).run disk = .ok b left ↔
    ∃ a mid, x.run disk = .ok a mid ∧ (k a).run mid = .ok b left := by
  rw [EStateM.run_bind]
  cases x.run disk with
  | ok a mid =>
      constructor
      · intro h
        exact ⟨a, mid, rfl, h⟩
      · rintro ⟨a', mid', hok, h⟩
        cases hok
        exact h
  | error f mid =>
      constructor
      · intro h
        cases h
      · rintro ⟨a, mid', hok, -⟩
        cases hok

theorem of_run_bind_eq_error (h : (x >>= k).run disk = .error f left) :
    x.run disk = .error f left ∨ ∃ a mid, x.run disk = .ok a mid ∧ (k a).run mid = .error f left := by
  rw [EStateM.run_bind] at h
  cases hx : x.run disk with
  | ok a mid =>
      rw [hx] at h
      exact .inr ⟨a, mid, rfl, h⟩
  | error f' mid =>
      rw [hx] at h
      cases h
      exact .inl rfl

theorem run_ofExcept_eq_ok {e : Except Failure α} {a : α} :
    (MonadExcept.ofExcept e : Startup α).run disk = .ok a left ↔ e = .ok a ∧ left = disk := by
  cases e with
  | ok a' =>
      constructor
      · intro h
        cases h
        exact ⟨rfl, rfl⟩
      · rintro ⟨hok, rfl⟩
        cases hok
        rfl
  | error f =>
      constructor
      · intro h
        cases h
      · rintro ⟨hok, -⟩
        cases hok

/-- What needs no disk leaves it alone. -/
theorem spares_ofExcept (e : Except Failure α) : Spares (MonadExcept.ofExcept e : Startup α) := by
  intro disk
  refine ⟨fun a left h => (run_ofExcept_eq_ok.1 h).2, ?_⟩
  intro f left h
  cases e with
  | ok a => cases h
  | error f =>
      cases h
      rfl

/-- Care taken after the disk was left alone. -/
theorem Spares.then_careful (hx : x.Spares) (hk : ∀ a, (k a).Careful) : Careful (x >>= k) := by
  intro disk f left h
  rcases of_run_bind_eq_error h with hfails | ⟨a, mid, hok, hfails⟩
  · exact (hx disk).2 f left hfails
  · rw [← (hx disk).1 a mid hok]
    exact hk a mid f left hfails

/-- **Nothing after a change of the disk may fail.** -/
theorem Careful.then_certain (hx : x.Careful) (hk : ∀ a, (k a).Certain) : Careful (x >>= k) := by
  intro disk f left h
  rcases of_run_bind_eq_error h with hfails | ⟨a, mid, -, hfails⟩
  · exact hx disk f left hfails
  · exact absurd hfails (hk a mid f left)

end Startup

/-! ## The steps -/

section Except

variable {α β : Type}

theorem mapError_eq_ok_iff {e : Except ConfigFault α} {a : α} :
    e.mapError Failure.config = .ok a ↔ e = .ok a := by
  cases e with
  | error fault => exact ⟨nofun, nofun⟩
  | ok a' =>
      constructor
      · intro h
        cases h
        rfl
      · intro h
        cases h
        rfl

theorem bind_eq_ok_iff {x : Except Failure α} {k : α → Except Failure β} {b : β} :
    (x >>= k) = .ok b ↔ ∃ a, x = .ok a ∧ k a = .ok b := by
  cases x with
  | error f => exact ⟨nofun, fun ⟨_, hfails, _⟩ => nomatch hfails⟩
  | ok a =>
      constructor
      · intro h
        exact ⟨a, rfl, h⟩
      · rintro ⟨a', hok, h⟩
        cases hok
        exact h

theorem allow_eq_ok_iff {refusal : Option IoError} {failure : IoError → Failure} {u : Unit} :
    allow refusal failure = .ok u ↔ refusal = none := by
  cases refusal with
  | none => exact ⟨fun _ => rfl, fun _ => rfl⟩
  | some cause => exact ⟨nofun, nofun⟩

theorem allow_then_ok {refusal : Option IoError} {failure : IoError → Failure}
    {next : Except Failure α} {a : α} :
    (do allow refusal failure; next) = .ok a ↔ refusal = none ∧ next = .ok a := by
  rw [bind_eq_ok_iff]
  simp only [allow_eq_ok_iff, exists_const]

end Except

namespace Host

variable {host : Host} {path : Path} {sync : Bool} {disk left : Disk} {store : Store}

/-- It changes nothing when it refuses to open the log file. -/
def KeepsRefused (host : Host) : Prop :=
  ∀ path disk cause left, host.openLog path disk = some (cause, left) → left = disk

/-- The endpoint to listen on is the first that the address leads to. -/
theorem resolve_eq_ok_iff {address : String} {endpoint : Endpoint} :
    host.resolve address = .ok endpoint ↔ ∃ others, host.lookup address = .ok (endpoint :: others) := by
  unfold resolve
  cases host.lookup address with
  | error cause => exact ⟨nofun, fun ⟨_, h⟩ => nomatch h⟩
  | ok found =>
      cases found with
      | nil => exact ⟨nofun, fun ⟨_, h⟩ => nomatch h⟩
      | cons first others =>
          constructor
          · intro h
            cases h
            exact ⟨others, rfl⟩
          · rintro ⟨others', h⟩
            cases h
            rfl

theorem openListener_eq_ok_iff {endpoint : Endpoint} {backlog : Int} :
    host.openListener endpoint backlog = .ok () ↔
      host.socket endpoint = none ∧ host.reuse endpoint = none ∧ host.bind endpoint = none ∧
        host.listen endpoint backlog = none ∧ host.unblock endpoint = none := by
  simp only [openListener, allow_then_ok, allow_eq_ok_iff]

theorem run_createLog_eq_ok : (host.createLog path sync).run disk = .ok store left ↔
    host.openLog path disk = none ∧ Store.create disk path sync = .ok (store, left) := by
  change host.createLog path sync disk = _ ↔ _
  unfold createLog
  cases host.openLog path disk with
  | some refusal => exact ⟨nofun, nofun⟩
  | none =>
      rw [and_iff_right rfl]
      cases Store.create disk path sync with
      | error f => exact ⟨nofun, nofun⟩
      | ok made =>
          constructor
          · intro h
            cases h
            rfl
          · intro h
            cases h
            rfl

theorem careful_createLog (hkeeps : host.KeepsRefused) (path : Path) (sync : Bool) :
    (host.createLog path sync).Careful := by
  intro disk f left h
  change host.createLog path sync disk = _ at h
  unfold createLog at h
  split at h
  · rename_i cause after hrefused
    cases h
    exact hkeeps path disk cause _ hrefused
  · split at h
    · cases h
      rfl
    · cases h

end Host

/-- Accepted settings ask for no more worker slots than a roster can have. -/
theorem Settings.roster_of_check {settings : Settings} (h : settings.check = .ok ()) :
    Roster.start? settings.server.maxConnections = some { free := settings.server.maxConnections } := by
  simp only [check, demand_then_ok] at h
  obtain ⟨-, hslots, -⟩ := h
  rw [Bool.and_eq_true, decide_eq_true_iff, decide_eq_true_iff] at hslots
  rw [Roster.start?, if_pos hslots.2]

namespace Service

variable {host : Host} {settings : Settings} {directory : Location} {disk left : Disk} {store : Store}
  {result : Option Service}

/-- The service over a log file that was just created. -/
def anew (settings : Settings) (store : Store) (disk : Disk) : Service where
  settings := settings
  log := { disk := disk, store := store }
  force := { roster := { free := settings.server.maxConnections } }

theorem run_build_eq_ok (hcheck : settings.check = .ok ()) :
    (build host settings store).run disk = .ok result left ↔
      host.localAddress = none ∧ left = disk ∧ result = some (anew settings store disk) := by
  rw [build, Settings.roster_of_check hcheck]
  dsimp only
  rw [Startup.run_bind_eq_ok]
  constructor
  · rintro ⟨u, mid, hasked, h⟩
    obtain ⟨hallowed, rfl⟩ := Startup.run_ofExcept_eq_ok.1 hasked
    cases h
    exact ⟨allow_eq_ok_iff.1 hallowed, rfl, rfl⟩
  · rintro ⟨haddress, rfl, rfl⟩
    exact ⟨(), left, Startup.run_ofExcept_eq_ok.2 ⟨allow_eq_ok_iff.2 haddress, rfl⟩, rfl⟩

theorem certain_build (haddress : host.localAddress = none) (settings : Settings) (store : Store) :
    (build host settings store).Certain := by
  intro disk f left h
  unfold build at h
  split at h
  · cases h
  · rw [haddress] at h
    cases h

/-- **When a service can be started on a listener, and what it is then.** -/
theorem run_assemble_eq_ok : (assemble host settings directory).run disk = .ok result left ↔
    settings.check = .ok () ∧ host.adopt = none ∧
      host.openLog ⟨directory, settings.storage.dataFile⟩ disk = none ∧ host.localAddress = none ∧
      ∃ store, Store.create disk ⟨directory, settings.storage.dataFile⟩
          settings.storage.syncWrites = .ok (store, left) ∧
        result = some (anew settings store left) := by
  unfold assemble
  simp only [Startup.run_bind_eq_ok, Startup.run_ofExcept_eq_ok, Host.run_createLog_eq_ok,
    mapError_eq_ok_iff]
  constructor
  · rintro ⟨_, _, ⟨hcheck, rfl⟩, _, _, ⟨hadopt, rfl⟩, store, _, ⟨hopen, hcreate⟩, hbuild⟩
    obtain ⟨haddress, rfl, rfl⟩ := (run_build_eq_ok hcheck).1 hbuild
    exact ⟨hcheck, allow_eq_ok_iff.1 hadopt, hopen, haddress, store, hcreate, rfl⟩
  · rintro ⟨hcheck, hadopt, hopen, haddress, store, hcreate, rfl⟩
    exact ⟨(), _, ⟨hcheck, rfl⟩, (), _, ⟨allow_eq_ok_iff.2 hadopt, rfl⟩, store, left, ⟨hopen, hcreate⟩,
      (run_build_eq_ok hcheck).2 ⟨haddress, rfl, rfl⟩⟩

/-- **A listener is opened** at the first endpoint of its address if nothing on the way is refused. -/
theorem listen_eq_ok_iff {endpoint : Endpoint} : listen host settings = .ok endpoint ↔
    (∃ others, host.lookup settings.listenAddress = .ok (endpoint :: others)) ∧
      host.socket endpoint = none ∧ host.reuse endpoint = none ∧ host.bind endpoint = none ∧
      host.listen endpoint settings.server.backlog = none ∧ host.unblock endpoint = none := by
  rw [← Host.resolve_eq_ok_iff, ← Host.openListener_eq_ok_iff, listen]
  simp only [bind_eq_ok_iff]
  constructor
  · rintro ⟨first, hfirst, _, hopened, hreturned⟩
    cases hreturned
    exact ⟨hfirst, hopened⟩
  · rintro ⟨hfirst, hopened⟩
    exact ⟨endpoint, hfirst, (), hopened, rfl⟩

/-- **A start is careful**: only building the service comes after the log file, and that cannot fail. -/
theorem careful_assemble (hkeeps : host.KeepsRefused) (haddress : host.localAddress = none)
    (settings : Settings) (directory : Location) : (assemble host settings directory).Careful := by
  unfold assemble
  refine (Startup.spares_ofExcept _).then_careful fun _ => ?_
  refine (Startup.spares_ofExcept _).then_careful fun _ => ?_
  refine (Host.careful_createLog hkeeps _ _).then_certain fun store => ?_
  exact certain_build haddress settings store

theorem careful_launch (hkeeps : host.KeepsRefused) (haddress : host.localAddress = none)
    (settings : Settings) (directory : Location) : (launch host settings directory).Careful :=
  (Startup.spares_ofExcept _).then_careful fun _ => careful_assemble hkeeps haddress settings directory

theorem run_launch_eq_ok : (launch host settings directory).run disk = .ok result left ↔
    (∃ endpoint, listen host settings = .ok endpoint) ∧
      (assemble host settings directory).run disk = .ok result left := by
  unfold launch
  simp only [Startup.run_bind_eq_ok, Startup.run_ofExcept_eq_ok]
  constructor
  · rintro ⟨endpoint, _, ⟨hlisten, rfl⟩, h⟩
    exact ⟨⟨endpoint, hlisten⟩, h⟩
  · rintro ⟨⟨endpoint, hlisten⟩, h⟩
    exact ⟨endpoint, disk, ⟨hlisten, rfl⟩, h⟩

/-- **A start succeeds if and only if nothing is refused.** -/
theorem exists_started_iff :
    (∃ s, Start.ofResult ((launch host settings directory).run disk) = .started s) ↔
      (∃ endpoint, listen host settings = .ok endpoint) ∧ settings.check = .ok () ∧
        host.adopt = none ∧ host.openLog ⟨directory, settings.storage.dataFile⟩ disk = none ∧
        host.localAddress = none ∧
        ∃ fresh, disk.create ⟨directory, settings.storage.dataFile⟩ = .ok fresh := by
  constructor
  · rintro ⟨s, hstarted⟩
    cases hrun : (launch host settings directory).run disk with
    | error f left =>
        rw [hrun] at hstarted
        cases hstarted
    | ok result left =>
        obtain ⟨hlisten, hassembled⟩ := run_launch_eq_ok.1 hrun
        obtain ⟨hcheck, hadopt, hopen, haddress, store, hcreate, -⟩ := run_assemble_eq_ok.1 hassembled
        exact ⟨hlisten, hcheck, hadopt, hopen, haddress, left, (Store.create_eq_ok_iff.1 hcreate).1⟩
  · rintro ⟨hlisten, hcheck, hadopt, hopen, haddress, fresh, hmade⟩
    have hcreate : Store.create disk ⟨directory, settings.storage.dataFile⟩
        settings.storage.syncWrites = .ok (_, fresh) := Store.create_eq_ok_iff.2 ⟨hmade, rfl⟩
    have hrun := run_launch_eq_ok.2 ⟨hlisten,
      run_assemble_eq_ok.2 ⟨hcheck, hadopt, hopen, haddress, _, hcreate, rfl⟩⟩
    exact ⟨_, congrArg Start.ofResult hrun⟩

/-- The start on a listener of a host that refuses nothing. -/
theorem ofListener_eq (settings : Settings) (directory : Location) (disk : Disk) :
    ofListener settings directory disk = .ofResult ((assemble {} settings directory).run disk) := by
  unfold ofListener assemble
  cases settings.check with
  | error fault => rfl
  | ok u =>
      change _ = Start.ofResult ((Host.createLog {} _ _ >>= build {} settings).run disk)
      rw [EStateM.run_bind, EStateM.run, Host.createLog]
      dsimp only
      cases Store.create disk ⟨directory, settings.storage.dataFile⟩ settings.storage.syncWrites with
      | error f => rfl
      | ok made =>
          dsimp only
          rw [build]
          cases Roster.start? settings.server.maxConnections <;> rfl

/-- A service by accepted settings that has just begun an empty log, with nothing else changed on the disk. -/
structure BeginsAnew (settings : Settings) (directory : Location) (disk : Disk) (s : Service) : Prop where
  accepted : settings.check = .ok ()
  settings_eq : s.settings = settings
  path_eq : s.log.store.path = ⟨directory, settings.storage.dataFile⟩
  /-- The full device can be had for a log, and stays what it is. -/
  empty : s.log.disk.read s.log.store.path = .ok [] ∨
    ∃ place, disk.findFile s.log.store.path = .ok (place, .full) ∧ s.log.disk = disk
  elsewhere : ∀ other, other ≠ s.log.store.path.place → s.log.disk.node? other = disk.node? other
  uncounted : s.log.store.committed = 0
  slots : Roster.start? settings.server.maxConnections = some s.force.roster

theorem beginsAnew_of_create (hcheck : settings.check = .ok ())
    (hcreate : Store.create disk ⟨directory, settings.storage.dataFile⟩ settings.storage.syncWrites =
      .ok (store, left)) : (anew settings store left).BeginsAnew settings directory disk := by
  obtain ⟨hmade, rfl⟩ := Store.create_eq_ok_iff.1 hcreate
  exact
    { accepted := hcheck
      settings_eq := rfl
      path_eq := rfl
      empty := Disk.read_create hmade
      elsewhere := fun _ hother => Disk.node?_create_other hmade hother
      uncounted := rfl
      slots := Settings.roster_of_check hcheck }

/-- **A failed start keeps the log of an earlier run.**  Whatever the host answers, whatever the settings are
and whatever stands at the path of the data file, this holds of a start on a bound listener and of one that
binds its own: if it fails, the disk is as it was; it never breaks off; and a service that was started has
accepted settings, an empty log, nothing counted, and as many worker slots as a roster can have. -/
theorem failed_start_keeps_log (hkeeps : host.KeepsRefused) (haddress : host.localAddress = none)
    (settings : Settings) (directory : Location) (disk : Disk) :
    ∀ start ∈ [assemble host settings directory, launch host settings directory],
      match Start.ofResult (start.run disk) with
      | .failed _ left => left = disk
      | .broken _ => False
      | .started s => s.BeginsAnew settings directory disk := by
  intro start hstart
  have hstarts : start.Careful ∧ ∀ result left, start.run disk = .ok result left →
      (assemble host settings directory).run disk = .ok result left := by
    simp only [List.mem_cons, List.not_mem_nil, or_false] at hstart
    rcases hstart with rfl | rfl
    · exact ⟨careful_assemble hkeeps haddress settings directory, fun _ _ h => h⟩
    · exact ⟨careful_launch hkeeps haddress settings directory, fun _ _ h => (run_launch_eq_ok.1 h).2⟩
  obtain ⟨hcareful, hassembled⟩ := hstarts
  cases hrun : start.run disk with
  | error f left => exact hcareful disk f left hrun
  | ok result left =>
      obtain ⟨hcheck, -, -, -, store, hcreate, rfl⟩ := run_assemble_eq_ok.1 (hassembled result left hrun)
      exact beginsAnew_of_create hcheck hcreate

/-- The log of an earlier run on three hosts: on one somebody else listens already, on one the log file may
not be written, and one refuses nothing. -/
theorem failed_start_keeps_log_of_earlier_run :
    let free : Host := { lookup := fun _ => .ok [.quad 127 0 0 1 9000] }
    let busy : Host := { free with listen := fun _ _ => some .addressInUse }
    let guarded : Host := { free with openLog := fun _ disk => some (.os 13, disk) }
    let settings : Settings := { storage := { dataFile := "data" } }
    let earlier : Disk := { nodes := [(["data"], .file (utf8 "old\n"))] }
    (busy.KeepsRefused ∧ ∃ left, Start.ofResult ((launch busy settings []).run earlier) =
      .failed (.server (.listen (.quad 127 0 0 1 9000) .addressInUse)) left ∧ left = earlier) ∧
    (guarded.KeepsRefused ∧ ∃ left, Start.ofResult ((assemble guarded settings []).run earlier) =
      .failed (.storage (.os 13)) left ∧ left = earlier) ∧
    free.KeepsRefused ∧ ∃ s, Start.ofResult ((launch free settings []).run earlier) = .started s ∧
      s.BeginsAnew settings [] earlier := by
  intro free busy guarded settings earlier
  have hbusy : busy.KeepsRefused := fun _ _ _ _ h => nomatch h
  have hguarded : guarded.KeepsRefused := by
    intro path disk cause left h
    cases h
    rfl
  have hfree : free.KeepsRefused := fun _ _ _ _ h => nomatch h
  have hlistens : Start.ofResult ((launch busy settings []).run earlier) =
      .failed (.server (.listen (.quad 127 0 0 1 9000) .addressInUse)) earlier := rfl
  have hcheck : settings.check = .ok () := by decide +kernel
  have hopens : Start.ofResult ((assemble guarded settings []).run earlier) =
      .failed (.storage (.os 13)) earlier := by
    rw [assemble, hcheck]
    rfl
  have hlisten : listen free settings = .ok (.quad 127 0 0 1 9000) :=
    listen_eq_ok_iff.2 ⟨⟨[], rfl⟩, rfl, rfl, rfl, rfl, rfl⟩
  have hmade : earlier.create ⟨[], "data"⟩ = .ok { nodes := [(["data"], .file [])] } := rfl
  have hstarts : ∃ s, Start.ofResult ((launch free settings []).run earlier) = .started s :=
    exists_started_iff.2 ⟨⟨_, hlisten⟩, hcheck, rfl, rfl, rfl, _, hmade⟩
  obtain ⟨s, hstarted⟩ := hstarts
  have hkept := failed_start_keeps_log hbusy rfl settings [] earlier (launch busy settings []) (by simp)
  have hspared :=
    failed_start_keeps_log hguarded rfl settings [] earlier (assemble guarded settings []) (by simp)
  have hanew := failed_start_keeps_log hfree rfl settings [] earlier (launch free settings []) (by simp)
  rw [hlistens] at hkept
  rw [hopens] at hspared
  rw [hstarted] at hanew
  exact ⟨⟨hbusy, earlier, hlistens, hkept⟩, ⟨hguarded, earlier, hopens, hspared⟩, hfree, s, hstarted, hanew⟩

end Service

end EchoLog
