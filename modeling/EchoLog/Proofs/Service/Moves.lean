import EchoLog.Proofs.Roster.Moves
import EchoLog.Proofs.SharedLog.Removal
import EchoLog.Service.Start
/-!
# The moves of a service

`Service.step?` says when an event can happen and what it does.  `Service.Move` says the same as a
relation, by the parts that take part: the log with its tasks, the workforce, the coordinator.  What a
move comes to for the log alone is one of four things (`Service.Handling`): a move of the log, reports, a
task more, or everybody's token.

What has happened is kept in `Annals`: the events, the chronicle of the log, and who has tried to remove
the log file.  What holds in the beginning and is kept by every move holds after every run
(`Service.run_induction`).
-/

namespace EchoLog

/-- The step of the workforce that an event is, if it is one. -/
def ServiceEvent.workStep? : ServiceEvent → Option WorkStep
  | .look => some .look
  | .takeSlot => some .takeSlot
  | .accept peer now => some (.accept peer now)
  | .acceptFails cause => some (.acceptFails cause)
  | .stopAccepting => some .leave
  | .finish task => some (.finish task)
  | .retire task => some (.retire task)
  | _ => none

/-- The event of the log that an event of the service is, if it is one. -/
def ServiceEvent.log? : ServiceEvent → Option Event
  | .log e => some e
  | _ => none

/-- Whether an event sets the stop flag and fires all tokens. -/
def ServiceEvent.isStop : ServiceEvent → Bool
  | .requestStop => true
  | .stop _ => true
  | _ => false

/-- Everybody's token fires. -/
def SharedLog.fired (g : SharedLog) : SharedLog :=
  { g with seats := g.seats.map fun seat => { seat with cancelled := true } }

theorem SharedLog.report_nil (g : SharedLog) : g.report [] = g := by
  unfold report
  rw [List.append_nil]

namespace Service

variable {s s' : Service} {e : ServiceEvent}

/-! ## Steps -/

/-- The session that serves a connection. -/
def sessionFor (s : Service) (peer : Endpoint) : Task :=
  .session (.start peer (.ofSettings s.settings))

/-- Every way in which the parts of a service take part in a step. -/
inductive Move (s : Service) : ServiceEvent → Service → Prop where
  | begin (uptime now : Nat) : s.coordinator = .idle → Move s (.begin uptime now) (s.begin uptime now)
  | log {e : Event} {g : SharedLog} : (∀ i, e ≠ .fire i) → SharedLog.Move s.log e g →
      Move s (.log e) { s with log := g }
  | call (request : Request) :
      Move s (.call request) { s with log := s.log.join (.caller { request := request }) }
  /-- The acceptor goes on without accepting. -/
  | acceptor {e : ServiceEvent} {step : WorkStep} {force : Workforce} (more : List Notice) :
      s.coordinator = .selecting → e.workStep? = some step →
      step = .look ∨ step = .takeSlot ∨ (∃ cause, step = .acceptFails cause) ∨ step = .leave →
      Workforce.Move s.force step force → Move s e (({ s with force := force } : Service).note more)
  | accept {peer : Endpoint} {now : Nat} {force : Workforce} : s.coordinator = .selecting →
      Workforce.Move s.force (.accept peer now) force →
      Move s (.accept peer now)
        { s with
          force := force
          log := s.log.join (s.sessionFor peer) force.roster.cancelled
          members := s.members ++ [⟨s.force.roster.nextTask, s.log.seats.length⟩] }
  | finish {m : Member} {t : Task} {result : Except Failure Unit} {force : Workforce} :
      s.members.find? (·.task = m.task) = some m → s.log.task? m.seat = some t →
      ending? t = some result → Workforce.Move s.force (.finish m.task) force →
      Move s (.finish m.task) { s.report result with force := force }
  | retire {task : Nat} {force : Workforce} : Workforce.Move s.force (.retire task) force →
      Move s (.retire task) { s with force := force }
  | signal : Move s .signal { s with signalled := true }
  | requestStop : Move s .requestStop s.requestStop
  | stop {reason : Reason} {outcome : Except Failure Unit} {faults : List Failure} :
      s.coordinator = .selecting → s.outcome? reason = some (outcome, faults) →
      Move s (.stop reason) (s.stop outcome faults)
  | drained {outcome : Except Failure Unit} : s.coordinator = .draining outcome →
      s.force.roster.isDrained = true → Move s .drained (s.afterDrain outcome [])
  | timedOut {outcome : Except Failure Unit} : s.coordinator = .draining outcome →
      s.force.roster.isDrained = false →
      Move s .timedOut (s.afterDrain outcome
        (.tasksRunning s.force.roster.tasks.length :: s.force.roster.stragglers))
  | removed {outcome : Except Failure Unit} {seat : Nat} {answer : Answer} :
      s.coordinator = .removing outcome seat → s.answerAt? seat = some answer →
      Move s .removed (s.afterRemoval outcome answer)

theorem note_nil (s : Service) : s.note [] = s := by
  unfold note
  rw [List.append_nil]

theorem withForce_eq_some {step : WorkStep} (h : s.withForce step = some s') :
    s.coordinator = .selecting ∧ ∃ force, Workforce.Move s.force step force ∧
      s' = { s with force := force } := by
  unfold withForce at h
  split at h
  · rename_i hselecting
    obtain ⟨force, hforce, rfl⟩ := Option.map_eq_some_iff.1 h
    exact ⟨hselecting, force, Workforce.move_of_step? hforce, rfl⟩
  · cases h

/-- A step of the acceptor that reports nothing and accepts nothing. -/
theorem move_of_withForce {step : WorkStep} (he : e.workStep? = some step)
    (hstep : step = .look ∨ step = .takeSlot ∨ step = .leave) (h : s.withForce step = some s') :
    Move s e s' := by
  obtain ⟨hselecting, force, hforce, rfl⟩ := withForce_eq_some h
  have hmove := Move.acceptor [] hselecting he
    (by rcases hstep with h | h | h <;> simp only [h, true_or, or_true]) hforce
  rwa [note_nil] at hmove

/-- **Every step is a move.** -/
theorem move_of_step? (h : s.step? e = some s') : Move s e s' := by
  cases e with
  | begin uptime now =>
      simp only [step?] at h
      split at h
      · rename_i hidle
        cases h
        exact .begin uptime now hidle
      · cases h
  | log e =>
      have hlog : (∀ i, e ≠ .fire i) ∧ (s.log.step? e).map (fun g => { s with log := g }) = some s' := by
        unfold step? at h
        split at h <;> simp_all
      obtain ⟨g, hg, rfl⟩ := Option.map_eq_some_iff.1 hlog.2
      exact .log hlog.1 (SharedLog.move_of_step? hg)
  | call request =>
      cases h
      exact .call request
  | look => exact move_of_withForce rfl (.inl rfl) h
  | takeSlot => exact move_of_withForce rfl (.inr (.inl rfl)) h
  | accept peer now =>
      obtain ⟨after, hafter, rfl⟩ := Option.map_eq_some_iff.1 h
      obtain ⟨hselecting, force, hforce, rfl⟩ := withForce_eq_some hafter
      exact .accept hselecting hforce
  | acceptFails cause =>
      obtain ⟨after, hafter, rfl⟩ := Option.map_eq_some_iff.1 h
      obtain ⟨hselecting, force, hforce, rfl⟩ := withForce_eq_some hafter
      have hmove : ∀ more,
          Move s (.acceptFails cause) (({ s with force := force } : Service).note more) := fun more =>
        .acceptor more hselecting rfl (.inr (.inr (.inl ⟨cause, rfl⟩))) hforce
      split
      · exact hmove _
      · have hquiet := hmove []
        rwa [note_nil] at hquiet
  | stopAccepting => exact move_of_withForce rfl (.inr (.inr rfl)) h
  | finish task =>
      simp only [step?, Option.bind_eq_bind, Option.bind_eq_some_iff] at h
      obtain ⟨m, hm, t, ht, result, hresult, force, hforce, h⟩ := h
      cases h
      have hid : m.task = task := by simpa using List.find?_some hm
      subst hid
      exact .finish hm ht hresult (Workforce.move_of_step? hforce)
  | retire task =>
      obtain ⟨force, hforce, rfl⟩ := Option.map_eq_some_iff.1 h
      exact .retire (Workforce.move_of_step? hforce)
  | signal =>
      cases h
      exact .signal
  | requestStop =>
      cases h
      exact .requestStop
  | stop reason =>
      simp only [step?] at h
      split at h
      · rename_i hselecting
        obtain ⟨⟨outcome, faults⟩, hreason, rfl⟩ := Option.map_eq_some_iff.1 h
        exact .stop hselecting hreason
      · cases h
  | drained =>
      simp only [step?] at h
      split at h
      · rename_i outcome hdraining
        split at h
        · rename_i hgone
          cases h
          exact .drained hdraining hgone
        · cases h
      · cases h
  | timedOut =>
      simp only [step?] at h
      split at h
      · rename_i outcome hdraining
        split at h
        · cases h
        · rename_i hleft
          cases h
          exact .timedOut hdraining (Bool.not_eq_true _ ▸ hleft)
      · cases h
  | removed =>
      simp only [step?] at h
      split at h
      · rename_i outcome seat hremoving
        obtain ⟨answer, hanswer, rfl⟩ := Option.map_eq_some_iff.1 h
        exact .removed hremoving hanswer
      · cases h

/-- A report is about what is noted and what is left to be seen. -/
theorem report_same (s : Service) (result : Except Failure Unit) :
    (s.report result).settings = s.settings ∧ (s.report result).members = s.members ∧
      (s.report result).coordinator = s.coordinator ∧
      ∃ more, (s.report result).log = s.log.report more := by
  cases result with
  | ok _ => exact ⟨rfl, rfl, rfl, [], (SharedLog.report_nil _).symm⟩
  | error f =>
      simp only [report]
      split <;> exact ⟨rfl, rfl, rfl, _, rfl⟩

/-- After the drain nothing is different for tasks and workers. -/
theorem afterDrain_same (s : Service) (outcome : Except Failure Unit) (notices : List Notice) :
    (s.afterDrain outcome notices).settings = s.settings ∧
      (s.afterDrain outcome notices).members = s.members ∧
      (s.afterDrain outcome notices).force = s.force := by
  unfold afterDrain
  dsimp only
  split <;> exact ⟨rfl, rfl, rfl⟩

theorem afterRemoval_same (s : Service) (outcome : Except Failure Unit) (answer : Answer) :
    (s.afterRemoval outcome answer).settings = s.settings ∧
      (s.afterRemoval outcome answer).members = s.members ∧
      (s.afterRemoval outcome answer).force = s.force := by
  cases answer <;> exact ⟨rfl, rfl, rfl⟩

/-- The settings are for good. -/
theorem Move.settings (h : Move s e s') : s'.settings = s.settings := by
  cases h with
  | begin uptime now _ =>
      unfold Service.begin
      dsimp only
      split <;> rfl
  | finish _ _ _ _ => exact (s.report_same _).1
  | drained _ _ => exact (s.afterDrain_same _ _).1
  | timedOut _ _ => exact (s.afterDrain_same _ _).1
  | removed _ _ => exact (s.afterRemoval_same _ _).1
  | _ => rfl

/-! ## The log -/

/-- A task that joins the log, with its token. -/
inductive Joins (s : Service) : ServiceEvent → Task → Bool → Prop where
  | writer (uptime now : Nat) : Joins s (.begin uptime now)
      (.writer (.start uptime now (1000 * s.settings.timestamp.intervalSeconds)
        s.settings.timestamp.format)) s.force.roster.cancelled
  | session (peer : Endpoint) (now : Nat) : s.force.roster.cancelled = false →
      Joins s (.accept peer now) (s.sessionFor peer) false
  | outsider (request : Request) : Joins s (.call request) (.caller { request := request }) false
  /-- The coordinator has the log removed. -/
  | remover {e : ServiceEvent} {outcome : Except Failure Unit} :
      s.settings.storage.removeOnShutdown = true → s.coordinator = .draining outcome →
      e = .drained ∨ e = .timedOut → Joins s e (.caller { request := .remove }) false

/-- What a step of a service comes to for its log. -/
inductive Handling (s : Service) : ServiceEvent → SharedLog → Prop where
  | moves {e : Event} {g : SharedLog} : (∀ i, e ≠ .fire i) → SharedLog.Move s.log e g →
      Handling s (.log e) g
  | reports {e : ServiceEvent} (more : List Notice) : e.log? = none → e.isStop = false →
      Handling s e (s.log.report more)
  | seats {e : ServiceEvent} {t : Task} {token : Bool} (more : List Notice) : s.Joins e t token →
      Handling s e ((s.log.report more).join t token)
  | fires {e : ServiceEvent} (more : List Notice) : e.isStop = true →
      Handling s e (s.log.report more).fired

/-- The log stays as it is. -/
theorem Handling.same (he : e.log? = none) (hstop : e.isStop = false) : Handling s e s.log := by
  have h := Handling.reports (s := s) [] he hstop
  rwa [SharedLog.report_nil] at h

/-- A task joins, and nothing is reported. -/
theorem Handling.seats_quiet {t : Task} {token : Bool} (h : s.Joins e t token) :
    Handling s e (s.log.join t token) := by
  have h := Handling.seats [] h
  rwa [SharedLog.report_nil] at h

theorem handling_afterDrain {outcome : Except Failure Unit} (hdraining : s.coordinator = .draining outcome)
    (he : e = .drained ∨ e = .timedOut) (notices : List Notice) :
    Handling s e (s.afterDrain outcome notices).log := by
  unfold afterDrain
  dsimp only
  split
  · rename_i hremove
    exact .seats _ (.remover hremove hdraining he)
  · rcases he with rfl | rfl <;> exact .reports _ rfl rfl

/-- **What a move comes to for the log.** -/
theorem Move.handling (h : Move s e s') : Handling s e s'.log := by
  cases h with
  | begin uptime now _ =>
      unfold Service.begin
      dsimp only
      split
      · exact .seats_quiet (.writer uptime now)
      · exact .same rfl rfl
  | log hfire hm => exact .moves hfire hm
  | call request => exact .seats_quiet (.outsider request)
  | acceptor more _ he _ _ =>
      cases e <;> first | exact .reports more rfl rfl | cases he
  | @accept peer now force _ hforce =>
      cases hforce with
      | accept _ _ _ hfree =>
          have hjoins := Joins.session peer now hfree
          have hsame := Handling.seats_quiet hjoins
          rw [← hfree] at hsame
          exact hsame
  | @finish m t result force _ _ _ _ =>
      obtain ⟨more, hmore⟩ := (s.report_same result).2.2.2
      rw [hmore]
      exact .reports more rfl rfl
  | retire _ => exact .same rfl rfl
  | signal => exact .same rfl rfl
  | requestStop =>
      have h := Handling.fires (s := s) [] (Eq.refl ServiceEvent.requestStop.isStop)
      rwa [SharedLog.report_nil] at h
  | stop _ _ => exact .fires _ rfl
  | drained hdraining _ => exact handling_afterDrain hdraining (.inl rfl) _
  | timedOut hdraining _ => exact handling_afterDrain hdraining (.inr rfl) _
  | @removed outcome seat answer _ _ =>
      cases answer with
      | ok _ => exact .same rfl rfl
      | error f => exact .reports _ rfl rfl

/-! ## The beginning -/

/-- What a service is when it starts. -/
theorem eq_of_started {settings : Settings} {directory : Location} {disk : Disk} {s₀ : Service}
    (h : ofListener settings directory disk = .started s₀) : ∃ store fresh roster,
      Store.create disk ⟨directory, settings.storage.dataFile⟩ settings.storage.syncWrites =
        .ok (store, fresh) ∧ Roster.start? settings.server.maxConnections = some roster ∧
      s₀ = { settings := settings, log := { disk := fresh, store := store }
             force := { roster := roster } } := by
  unfold ofListener at h
  split at h
  · cases h
  · split at h
    · cases h
    · rename_i store fresh hcreate
      split at h
      · cases h
      · rename_i roster hroster
        cases h
        exact ⟨store, fresh, roster, hcreate, hroster, rfl⟩

end Service

/-! ## What has happened -/

/-- What has happened to a service. -/
structure Annals where
  /-- The events, in order. -/
  events : List ServiceEvent := []
  /-- What has happened to the log. -/
  chronicle : Chronicle := {}
  /-- The places of those who have tried to remove the log file, one for each time. -/
  unlinks : List Nat := []

/-- What an event from one state to another adds to the annals. -/
def Annals.note (a : Annals) (s : Service) (e : ServiceEvent) (s' : Service) : Annals where
  events := a.events ++ [e]
  chronicle := e.log?.elim a.chronicle fun inner => a.chronicle.note s.log inner s'.log
  unlinks := a.unlinks ++ (e.log?.bind s.log.unlinker?).toList

namespace Service

variable {s s' s₀ : Service} {e : ServiceEvent} {es : List ServiceEvent} {a : Annals}

/-- The annals of a run that comes after other events. -/
def annalsFrom (a : Annals) : Service → List ServiceEvent → Annals
  | _, [] => a
  | s, e :: es => (s.step? e).elim a fun s' => annalsFrom (a.note s e s') s' es

/-- The annals of a run. -/
def annals (s : Service) (es : List ServiceEvent) : Annals :=
  s.annalsFrom {} es

/-- Whether every event of a run, in the state where it happens, is of some kind. -/
def Along (kind : Service → ServiceEvent → Bool) : Service → List ServiceEvent → Bool
  | _, [] => true
  | s, e :: es => kind s e && (s.step? e).all fun s => Along kind s es

theorem run?_append (s : Service) (es more : List ServiceEvent) :
    s.run? (es ++ more) = (s.run? es).bind (·.run? more) := by
  induction es generalizing s with
  | nil => rfl
  | cons e es ih =>
      rw [List.cons_append, run?, run?, Option.bind_assoc]
      exact congrArg _ (funext fun s' => ih s')

theorem annalsFrom_append {s' : Service} (h : s.run? es = some s') (a : Annals)
    (more : List ServiceEvent) :
    s.annalsFrom a (es ++ more) = s'.annalsFrom (s.annalsFrom a es) more := by
  induction es generalizing s a with
  | nil =>
      cases h
      rfl
  | cons e es ih =>
      obtain ⟨u, hu, hrest⟩ := Option.bind_eq_some_iff.1 h
      rw [List.cons_append, annalsFrom, annalsFrom, hu]
      exact ih hrest _

/-- **What holds in the beginning and is kept by every move of a kind holds after every run of that
kind.**  `P` may speak about what has happened. -/
theorem run_induction {kind : Service → ServiceEvent → Bool} {P : Annals → Service → Prop}
    (hmove : ∀ {a : Annals} {s s' : Service} {e : ServiceEvent}, kind s e = true → P a s → Move s e s' →
      P (a.note s e s') s')
    (h : P a s₀) (hkind : s₀.Along kind es = true) (hrun : s₀.run? es = some s) :
    P (s₀.annalsFrom a es) s := by
  induction es generalizing s₀ a with
  | nil =>
      cases hrun
      exact h
  | cons e es ih =>
      obtain ⟨u, hu, hrest⟩ := Option.bind_eq_some_iff.1 hrun
      rw [Along, hu, Option.all_some, Bool.and_eq_true] at hkind
      rw [annalsFrom, hu]
      exact ih (hmove hkind.1 h (move_of_step? hu)) hkind.2 hrest

theorem along_any (s : Service) (es : List ServiceEvent) : s.Along (fun _ _ => true) es = true := by
  induction es generalizing s with
  | nil => rfl
  | cons e es ih =>
      rw [Along, Bool.true_and]
      cases s.step? e with
      | none => rfl
      | some u => exact ih u

/-- What every move keeps, every run keeps. -/
theorem run_moves {P : Annals → Service → Prop}
    (hmove : ∀ {a : Annals} {s s' : Service} {e : ServiceEvent}, P a s → Move s e s' →
      P (a.note s e s') s')
    (h : P a s₀) (hrun : s₀.run? es = some s) : P (s₀.annalsFrom a es) s :=
  run_induction (fun _ => hmove) h (along_any s₀ es) hrun

/-- What every move keeps of a state, every run keeps. -/
theorem run_states {P : Service → Prop} (hmove : ∀ {s s' : Service} {e : ServiceEvent}, P s → Move s e s' →
    P s') (h : P s₀) (hrun : s₀.run? es = some s) : P s :=
  run_moves (P := fun _ => P) (a := {}) hmove h hrun

theorem annals_events (hrun : s₀.run? es = some s) : (s₀.annals es).events = es := by
  have hgrows : ∀ {es : List ServiceEvent} {s₀ : Service} {a : Annals}, s₀.run? es = some s →
      (s₀.annalsFrom a es).events = a.events ++ es := by
    intro es
    induction es with
    | nil => exact fun _ => (List.append_nil _).symm
    | cons e es ih =>
        intro s₀ a hrun
        obtain ⟨u, hu, hrest⟩ := Option.bind_eq_some_iff.1 hrun
        rw [annalsFrom, hu, List.append_cons]
        exact ih hrest
  exact hgrows hrun

end Service

end EchoLog
