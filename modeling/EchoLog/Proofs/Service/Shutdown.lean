import EchoLog.Proofs.Roster.Staffing
import EchoLog.Proofs.Service.Crew
import EchoLog.Proofs.Service.Departure
/-!
# Orderly shutdown

A run of the service that has returned has gone one way, whatever made it stop and however its events came
together: before, the stop, the waiting for the tasks, its end, and what is left (`Course`).  `Orderly` says
what can be relied on then.  Everybody has been told to stop, and nothing begins any more.  Until the waiting
was over the service did not try to remove the log; after it the service tried once, if that is what the
settings say, and else the log holds all that was committed.  If the tasks were gone in time there is
nobody left of the service who could change the log.  And what is returned is the outcome with which the
coordinator stopped everybody, but for a removal that failed.
-/

namespace EchoLog

open SharedLog

namespace Workforce

variable {w w' : Workforce} {e : WorkStep}

/-- Where no tracked task is left, none comes but with a connection. -/
theorem Move.tasks_eq_nil (h : Move w e w') (he : e.connection? = none) (hgone : w.roster.tasks = []) :
    w'.roster.tasks = [] := by
  have hnone : ∀ id, w.roster.task? id = none := by
    intro id
    rw [Roster.task?, hgone]
    rfl
  cases h with
  | look _ => exact hgone
  | takeSlot _ _ _ => exact hgone
  | accept _ _ _ _ => cases he
  | acceptFails _ _ _ => exact (w.settleOn_same _).1.trans hgone
  | leave _ _ => exact (w.settleOn_same _).1.trans hgone
  | abandon => exact (w.settleOn_same _).1.trans hgone
  | finish ht _ => cases (hnone _).symm.trans ht
  | giveBack ht _ _ => cases (hnone _).symm.trans ht
  | go ht _ _ => cases (hnone _).symm.trans ht
  | requestStop => exact hgone

/-- An acceptor that was abandoned does nothing any more. -/
theorem Move.acceptor_eq_dropped (h : Move w e w') (hdropped : w.acceptor = .dropped) :
    w'.acceptor = .dropped := by
  cases h with
  | look hacceptor => cases hacceptor.symm.trans hdropped
  | takeSlot hacceptor _ _ => cases hacceptor.symm.trans hdropped
  | accept _ _ hacceptor _ => cases hacceptor.symm.trans hdropped
  | acceptFails _ hacceptor _ => cases hacceptor.symm.trans hdropped
  | leave hacceptor _ =>
      rcases hacceptor with hacceptor | ⟨permit, hacceptor⟩ <;> cases hacceptor.symm.trans hdropped
  | abandon => exact w.acceptor_settleOn _
  | _ => exact hdropped

end Workforce

namespace Service

variable {s s' s₀ : Service} {e : ServiceEvent} {es : List ServiceEvent} {r : Except Failure Unit}

/-! ## Everybody is stopped -/

/-- Everybody has been stopped, and the acceptor abandoned. -/
structure Halted (s : Service) : Prop where
  late : 2 ≤ s.coordinator.phase
  stopping : s.force.roster.stopping = true
  acceptor : s.force.acceptor = .dropped

theorem halted_stop (s : Service) (outcome : Except Failure Unit) (faults : List Failure) :
    (s.stop outcome faults).Halted :=
  ⟨Nat.le_refl 2, (Workforce.settleOn_flags _ _).1, Workforce.acceptor_settleOn _ _⟩

/-- Every move leaves everybody stopped, and brings no task. -/
theorem Halted.move (h : Halted s) (hm : Move s e s') :
    Halted s' ∧ (s.force.roster.tasks = [] → s'.force.roster.tasks = []) := by
  have hlate : 2 ≤ s'.coordinator.phase := Nat.le_trans h.late hm.phase_le
  have hstopping : s'.force.roster.stopping = true := by
    rcases hm.flags with ⟨-, hset, -⟩ | ⟨-, hsame, -⟩
    · exact hset
    · exact hsame.trans h.stopping
  have hengages := hm.engages
  have hearly := hm.isEarly_eq_false h.late
  have hforce : s'.force.acceptor = .dropped ∧
      (s.force.roster.tasks = [] → s'.force.roster.tasks = []) := by
    generalize s'.force = force at hengages
    cases hengages with
    | stays _ _ => exact ⟨h.acceptor, id⟩
    | @steps _ step _ he _ haccepts hforce =>
        have hnone : step.connection? = none := by
          refine Option.not_isSome_iff_eq_none.1 fun hsome => ?_
          have hlate := h.late
          rw [haccepts hsome] at hlate
          exact absurd hlate (by simp [Coordinator.phase])
        exact ⟨hforce.acceptor_eq_dropped h.acceptor, hforce.tasks_eq_nil hnone⟩
    | tracks _ _ _ => cases hearly
    | requests hforce => exact ⟨hforce.acceptor_eq_dropped h.acceptor, hforce.tasks_eq_nil rfl⟩
    | stops _ _ => cases hearly
  exact ⟨⟨hlate, hstopping, hforce.1⟩, hforce.2⟩

/-- **A run of a service that was stopped.** -/
theorem Halted.run (h : Halted s₀) (hrun : s₀.run? es = some s) :
    Halted s ∧ (s₀.force.roster.tasks = [] → s.force.roster.tasks = []) := by
  refine run_states (P := fun s => Halted s ∧ (s₀.force.roster.tasks = [] → s.force.roster.tasks = []))
    ?_ ⟨h, id⟩ hrun
  rintro s s' e ⟨hhalted, hgone⟩ hm
  exact ⟨(hhalted.move hm).1, fun h₀ => (hhalted.move hm).2 (hgone h₀)⟩

/-- Only what is early cannot happen after the stop. -/
theorem Halted.step?_eq_none (h : Halted s) (hearly : e.isEarly = true) : s.step? e = none := by
  rw [Option.eq_none_iff_forall_ne_some]
  intro s' hstep
  cases ((move_of_step? hstep).isEarly_eq_false h.late).symm.trans hearly

/-- What happens after the stop is late. -/
theorem isEarly_of_run (hlate : 2 ≤ s₀.coordinator.phase) (hrun : s₀.run? es = some s) :
    ∀ e ∈ es, e.isEarly = false := by
  induction es generalizing s₀ with
  | nil => exact fun e he => absurd he List.not_mem_nil
  | cons e es ih =>
      obtain ⟨u, hu, hrest⟩ := Option.bind_eq_some_iff.1 hrun
      have hm := move_of_step? hu
      rw [List.forall_mem_cons]
      exact ⟨hm.isEarly_eq_false hlate, ih (Nat.le_trans hlate hm.phase_le) hrest⟩

/-! ## What can be relied on -/

/-- The place of the caller through which the coordinator has the log removed, if it does. -/
def Course.place (c : Course s₀ s) : Nat :=
  c.atEnd.log.seats.length

/-- What can be relied on when a service has returned. -/
structure Orderly (c : Course s₀ s) (r : Except Failure Unit) : Prop where
  /-- The stop flag is set, and every token has fired. -/
  stopped : s.force.roster.stopping = true ∧ s.force.roster.cancelled = true ∧
    ∀ i t, s.log.task? i = some t → t.isOwn = true → s.log.isCancelled i = true
  /-- No session, and nothing else, has begun since the stop, or can begin. -/
  closed : (∀ e ∈ c.waiting ++ c.last :: c.after, e.isEarly = false) ∧
    ∀ e : ServiceEvent, e.isEarly = true → s.step? e = none
  /-- Until the tasks were gone or their time was over the log was not removed. -/
  patient : .call .remove ∉ c.prior → (s₀.annals c.prior).unlinks = [] ∧
    (s₀.Along isUndisturbed c.prior = true → ∃ rest, c.atEnd.log.disk.content? c.atEnd.log.store.path =
      some (wholeLog (s₀.annals c.prior).chronicle.commits ++ rest))
  /-- If the tasks were gone in time, no tracked task and no registration is left, and nobody of the
  service changes the disk any more. -/
  drained : c.last = .drained → s.force.roster.tasks = [] ∧ s.force.roster.sessions = [] ∧
    ∀ e s', s.step? e = some s' → s'.log.disk ≠ s.log.disk → Foreign s c.events e
  /-- If the log is to be removed, that was tried once, and worked if all is well. -/
  removed : s₀.settings.storage.removeOnShutdown = true →
    (s₀.annals c.events).unlinks.count c.place = 1 ∧
    (.call .remove ∉ c.events → (s₀.annals c.events).unlinks = [c.place]) ∧
    (r = .ok () → c.left.Along isTruthful c.after = true →
      s.log.disk.isMissing s.log.store.path = true)
  /-- If it is not, the log holds all that was committed. -/
  kept : s₀.settings.storage.removeOnShutdown = false → .call .remove ∉ c.events →
    (s₀.annals c.events).unlinks = [] ∧
    (s₀.Along isUndisturbed c.events = true → ∃ rest, s.log.disk.content? s.log.store.path =
      some (wholeLog (s₀.annals c.events).chronicle.commits ++ rest))
  /-- The outcome with which everybody was stopped is returned, but for a removal that fails. -/
  outcome : (∀ f, c.outcome = .error f → r = .error f) ∧
    (s₀.settings.storage.removeOnShutdown = true →
      ∃ answer, s.answerAt? c.place = some answer ∧ r = settled c.outcome answer) ∧
    (s₀.settings.storage.removeOnShutdown = false → r = c.outcome)

theorem settings_of_run (hrun : s₀.run? es = some s) : s.settings = s₀.settings :=
  run_states (P := fun s => s.settings = s₀.settings) (fun h hm => hm.settings.trans h) rfl hrun

section Started

variable {settings : Settings} {directory : Location} {disk : Disk}

/-- The annals of a course, from the end of the waiting on. -/
theorem Course.annals_events (c : Course s₀ s) : s₀.annals c.events =
    c.left.annalsFrom ((s₀.annals c.prior).note c.atEnd c.last c.left) c.after := by
  rw [annals, events, annalsFrom_append c.reaches_end, annalsFrom, c.ends]
  rfl

theorem Course.run?_events (c : Course s₀ s) : s₀.run? c.events = some s := by
  rw [events, run?_append, c.reaches_end, Option.bind_some, run?, c.ends]
  exact c.leaves

theorem Course.halted (c : Course s₀ s) : Halted s ∧ Halted c.left ∧
    (c.atEnd.force.roster.tasks = [] → s.force.roster.tasks = []) := by
  obtain ⟨hend, -⟩ := (halted_stop c.atStop c.outcome c.faults).run c.waits
  obtain ⟨hleft, hgone⟩ := hend.move (move_of_step? c.ends)
  obtain ⟨hs, hgone'⟩ := hleft.run c.leaves
  exact ⟨hs, hleft, fun h => hgone' (hgone h)⟩

theorem Course.isEnd_last (c : Course s₀ s) : c.last.isEnd = true := by
  have hover := c.waited
  generalize c.last = e at hover
  cases hover <;> rfl

theorem Course.phase_atEnd (c : Course s₀ s) : ¬ 3 ≤ c.atEnd.coordinator.phase := by
  rw [c.drains]
  exact Nat.lt_irrefl 2

theorem Course.called_prior (hstart : ofListener settings directory disk = .started s₀)
    (c : Course s₀ s) : Called none (s₀.annals c.prior) c.atEnd :=
  called_of_run (called_start hstart) c.reaches_end (.inr c.phase_atEnd)

/-- Right after the waiting the coordinator asks to have the log removed, if it is to be. -/
theorem Course.removing (hstart : ofListener settings directory disk = .started s₀) (c : Course s₀ s)
    (hremove : s₀.settings.storage.removeOnShutdown = true) :
    c.left.coordinator = .removing c.outcome c.place ∧
      c.left.log.task? c.place = some (.caller { request := .remove }) ∧
      Removing c.left.log c.place { request := .remove } 0 ∧
      ((s₀.annals c.prior).note c.atEnd c.last c.left).unlinks.count c.place = 0 := by
  refine (c.called_prior hstart).removing c.drains ?_ (move_of_step? c.ends) c.isEnd_last
  rw [settings_of_run c.reaches_end]
  exact hremove

theorem Course.queue_left (hstart : ofListener settings directory disk = .started s₀) (c : Course s₀ s) :
    c.left.log.Queue :=
  (move_of_step? c.ends).handling.queue (c.called_prior hstart).queue

/-- When the service has returned, the log has been removed once. -/
theorem Course.exists_answer (hstart : ofListener settings directory disk = .started s₀)
    (c : Course s₀ s) (hreturned : s.coordinator = .returned r)
    (hremove : s₀.settings.storage.removeOnShutdown = true) : ∃ caller answer,
    s.log.task? c.place = some (.caller caller) ∧ caller.request = .remove ∧
      caller.answer = some answer ∧ r = settled c.outcome answer ∧
      (s₀.annals c.events).unlinks.count c.place = 1 := by
  obtain ⟨hremoving, ht, hwaits, hnone⟩ := c.removing hstart hremove
  have hleaving := (Leaving.removing hremoving ht rfl (hnone ▸ hwaits)).run (c.queue_left hstart) c.leaves
  rw [← c.annals_events] at hleaving
  cases hleaving with
  | removing hremoving _ _ _ => cases hremoving.symm.trans hreturned
  | removed hsettled ht hr hanswer hone =>
      cases hsettled.symm.trans hreturned
      exact ⟨_, _, ht, hr, hanswer, rfl, hone⟩

/-- The coordinator's own place is the one that it takes right after the waiting, if it takes one. -/
theorem Course.called (hstart : ofListener settings directory disk = .started s₀) (c : Course s₀ s) :
    Called (if s₀.settings.storage.removeOnShutdown then some c.place else none)
      (s₀.annals c.events) s := by
  have hm := move_of_step? c.ends
  have hleft : Called (if s₀.settings.storage.removeOnShutdown then some c.place else none)
      ((s₀.annals c.prior).note c.atEnd c.last c.left) c.left := by
    refine (c.called_prior hstart).move hm nofun ?_
    intro _ hremove
    rw [settings_of_run c.reaches_end] at hremove
    exact if_pos hremove
  rw [c.annals_events]
  exact called_after hleft (hm.of_isEnd c.isEnd_last).2 c.leaves

theorem Course.events_annals (c : Course s₀ s) : (s₀.annals c.events).events = c.events :=
  Service.annals_events c.run?_events

/-- **Until the waiting is over the log is not removed.** -/
theorem Course.patient (hstart : ofListener settings directory disk = .started s₀) (c : Course s₀ s)
    (hspared : .call .remove ∉ c.prior) : (s₀.annals c.prior).unlinks = [] ∧
    (s₀.Along isUndisturbed c.prior = true → ∃ rest, c.atEnd.log.disk.content? c.atEnd.log.store.path =
      some (wholeLog (s₀.annals c.prior).chronicle.commits ++ rest)) := by
  refine ⟨?_, ?_⟩
  · have hcalled := c.called_prior hstart
    refine List.eq_nil_iff_forall_not_mem.2 fun i hi => ?_
    cases hcalled.unlinks_eq (by rwa [Service.annals_events c.reaches_end]) i hi
  · intro hkind
    exact (recorded_of_run hstart hkind c.reaches_end (.inr c.phase_atEnd) hspared).file.exists_rest

/-- **After the waiting the log is kept**, if it is not to be removed. -/
theorem Course.kept (hstart : ofListener settings directory disk = .started s₀) (c : Course s₀ s)
    (hkeep : s₀.settings.storage.removeOnShutdown = false) (hspared : .call .remove ∉ c.events) :
    (s₀.annals c.events).unlinks = [] ∧
    (s₀.Along isUndisturbed c.events = true → ∃ rest, s.log.disk.content? s.log.store.path =
      some (wholeLog (s₀.annals c.events).chronicle.commits ++ rest)) := by
  refine ⟨?_, ?_⟩
  · have hcalled := c.called hstart
    rw [hkeep] at hcalled
    refine List.eq_nil_iff_forall_not_mem.2 fun i hi => ?_
    cases hcalled.unlinks_eq (by rwa [c.events_annals]) i hi
  · intro hkind
    have hkept : HasKept s := .inl (by rw [settings_of_run c.run?_events]; exact hkeep)
    exact (recorded_of_run hstart hkind c.run?_events hkept hspared).file.exists_rest

/-- **When nobody of the service is left, nobody of the service changes the disk.** -/
theorem Course.drained (hstart : ofListener settings directory disk = .started s₀) (c : Course s₀ s)
    (hreturned : s.coordinator = .returned r) (hdrained : c.last = .drained) :
    s.force.roster.tasks = [] ∧ s.force.roster.sessions = [] ∧
      ∀ e s', s.step? e = some s' → s'.log.disk ≠ s.log.disk → Foreign s c.events e := by
  have hstaff := staff_of_run hstart c.run?_events
  obtain ⟨hhalted, -, hgone⟩ := c.halted
  have htasks : s.force.roster.tasks = [] := by
    refine hgone ?_
    have hover := c.waited
    rw [hdrained] at hover
    cases hover with
    | drained h =>
        rw [Roster.isDrained, Bool.and_eq_true] at h
        exact List.isEmpty_iff.1 h.2
  obtain ⟨first, hbooks⟩ := hstaff.booked.books
  refine ⟨htasks, (hbooks.all_back (.inr hhalted.acceptor) htasks).2.2, ?_⟩
  intro e s' hstep hchange
  have hforeign := (c.called hstart).foreign (fun i w hw => hstaff.crew.holder_of_gone htasks hw) ?_
    (move_of_step? hstep) hchange
  · rwa [c.events_annals] at hforeign
  · intro i hown
    split at hown
    · rename_i hremove
      cases hown
      obtain ⟨caller, answer, ht, -, hanswer, -⟩ := c.exists_answer hstart hreturned hremove
      exact ⟨caller, answer, ht, hanswer⟩
    · cases hown

/-- **After the waiting the log is removed once**, if it is to be, and the answer to that decides with the
outcome of the stop what is returned. -/
theorem Course.removed (hstart : ofListener settings directory disk = .started s₀) (c : Course s₀ s)
    (hreturned : s.coordinator = .returned r)
    (hremove : s₀.settings.storage.removeOnShutdown = true) :
    (s₀.annals c.events).unlinks.count c.place = 1 ∧
    (.call .remove ∉ c.events → (s₀.annals c.events).unlinks = [c.place]) ∧
    (r = .ok () → c.left.Along isTruthful c.after = true →
      s.log.disk.isMissing s.log.store.path = true) := by
  obtain ⟨caller, answer, ht, hr, hanswer, rfl, hone⟩ := c.exists_answer hstart hreturned hremove
  refine ⟨hone, ?_, ?_⟩
  · intro hspared
    have hcalled := c.called hstart
    rw [if_pos hremove] at hcalled
    have hown : ∀ i ∈ (s₀.annals c.events).unlinks, i = c.place := fun i hi =>
      (Option.some.inj (hcalled.unlinks_eq (by rwa [c.events_annals]) i hi)).symm
    rw [List.eq_replicate_of_mem hown, List.count_replicate_self] at hone
    rw [List.eq_replicate_of_mem hown, hone]
    rfl
  · intro hok htrue
    obtain ⟨-, ht₀, hwaits, -⟩ := c.removing hstart hremove
    have hcleared := cleared_of_run (c.queue_left hstart) ht₀ (hwaits.cleared ht₀) htrue c.leaves
    cases answer with
    | ok reply => exact (hcleared caller reply ht hr (.inl hanswer)).missing
    | error f => exact absurd hok (settled_error_ne_ok c.outcome f)

/-- What is returned if the log is not to be removed. -/
theorem Course.result_of_keep (c : Course s₀ s) (hreturned : s.coordinator = .returned r)
    (hkeep : s₀.settings.storage.removeOnShutdown = false) : r = c.outcome := by
  have hleft : c.left.coordinator = .returned c.outcome := by
    rcases (move_of_step? c.ends).of_draining c.drains with ⟨hnot, -⟩ | ⟨-, hnext⟩
    · cases hnot.symm.trans c.isEnd_last
    · rw [hnext, settings_of_run c.reaches_end, hkeep]
      rfl
  have hs := run_states (P := fun s => s.coordinator = .returned c.outcome)
    (fun h hm => hm.of_returned h) hleft c.leaves
  cases hreturned.symm.trans hs
  rfl

/-- **A failure with which everybody was stopped is returned**, whatever comes of the removal. -/
theorem Course.result_of_error (hstart : ofListener settings directory disk = .started s₀)
    (c : Course s₀ s) (hreturned : s.coordinator = .returned r) (f : Failure)
    (hf : c.outcome = .error f) : r = .error f := by
  cases hremove : s₀.settings.storage.removeOnShutdown with
  | true =>
      obtain ⟨_, answer, -, -, -, rfl, -⟩ := c.exists_answer hstart hreturned hremove
      rw [hf]
      cases answer <;> rfl
  | false => rw [c.result_of_keep hreturned hremove, hf]

end Started

theorem coordinator_of_result? (h : s.result? = some r) : s.coordinator = .returned r := by
  unfold result? at h
  split at h
  · rename_i hreturned
    cases h
    exact hreturned
  · cases h

/-- **Orderly shutdown.**  However a run of the service went and whatever made it stop, when it has returned
it has gone one way, and all of `Orderly` can be relied on. -/
theorem shutdown_is_orderly {settings : Settings} {directory : Location} {disk : Disk}
    (hstart : ofListener settings directory disk = .started s₀) (hrun : s₀.run? es = some s)
    (hresult : s.result? = some r) : ∃ c : Course s₀ s, c.events = es ∧ Orderly c r := by
  have hidle : s₀.coordinator.phase ≤ 1 := by
    obtain ⟨_, _, _, -, -, rfl⟩ := eq_of_started hstart
    exact Nat.zero_le 1
  have hreturned := coordinator_of_result? hresult
  obtain ⟨c, rfl⟩ := exists_course hidle hrun hresult
  obtain ⟨hhalted, -, -⟩ := c.halted
  have htokens := (staff_of_run hstart hrun).tokens
  have hfired : s.force.roster.cancelled = true := htokens.flag ▸ hhalted.stopping
  have hanswer : s₀.settings.storage.removeOnShutdown = true →
      ∃ answer, s.answerAt? c.place = some answer ∧ r = settled c.outcome answer := by
    intro hremove
    obtain ⟨caller, answer, ht, -, hanswer, hr, -⟩ := c.exists_answer hstart hreturned hremove
    refine ⟨answer, ?_, hr⟩
    rw [answerAt?, ht]
    exact hanswer
  refine ⟨c, rfl, ?_⟩
  exact
    { stopped := ⟨hhalted.stopping, hfired, fun i t ht hown => (htokens.own i t ht hown).trans hfired⟩
      closed := ⟨isEarly_of_run (halted_stop ..).late c.late, fun _ hearly => hhalted.step?_eq_none hearly⟩
      patient := c.patient hstart
      drained := c.drained hstart hreturned
      removed := c.removed hstart hreturned
      kept := c.kept hstart
      outcome := ⟨c.result_of_error hstart hreturned, hanswer, c.result_of_keep hreturned⟩ }

/-- Settings of a service that writes no timestamps. -/
def plain : Settings where
  storage := { dataFile := "data" }
  timestamp := { enabled := false }

/-- A service by these settings, as it starts. -/
def opened : Service where
  settings := plain
  log := { disk := { nodes := [(["data"], .file [])] }, store := { path := ⟨[], "data"⟩ } }
  force := { roster := { free := 128 } }

theorem plain_starts_opened : ofListener plain [] {} = .started opened := by
  have hcheck : plain.check = .ok () := by decide +kernel
  have hcreate : Store.create {} ⟨[], plain.storage.dataFile⟩ plain.storage.syncWrites =
      .ok (opened.log.store, opened.log.disk) := rfl
  have hroster : Roster.start? plain.server.maxConnections = some opened.force.roster := by
    decide +kernel
  unfold ofListener
  rw [hcheck]
  dsimp only
  rw [hcreate]
  dsimp only
  rw [hroster]
  rfl

/-- One client; the signal comes while its packet is being stored, and the packet is stored all the same. -/
def visit : List ServiceEvent :=
  [.begin 0 0, .look, .takeSlot, .accept (.quad 127 0 0 1 1) 0, .look, .takeSlot,
    .log (.receive 0 (.ok (utf8 "a\nb"))), .log (.frame 0), .log (.ask 0), .log .grant,
    .log (.file none), .signal, .log (.file none), .stop .signal, .log (.file none), .log (.file none),
    .log .release, .log (.leave 0), .finish 0, .retire 0, .retire 0, .retire 0, .drained,
    .log (.ask 1), .log .grant, .log (.file none), .log .release, .removed]

/-- The theorem at one client and a signal: its packet is committed, and the log removed once. -/
theorem visit_is_orderly : ∃ s, opened.run? visit = some s ∧ s.result? = some (.ok ()) ∧
    (opened.annals visit).chronicle.commits.map (·.2.bytes) = [utf8 "a\n"] ∧
    (opened.annals visit).unlinks = [1] ∧ ∃ c : Course opened s, c.events = visit ∧ Orderly c (.ok ()) := by
  have hresult : (opened.run? visit).map (·.result?) = some (some (.ok ())) := by decide +kernel
  have hcommits : (opened.annals visit).chronicle.commits.map (·.2.bytes) = [utf8 "a\n"] := by
    decide +kernel
  have hunlinks : (opened.annals visit).unlinks = [1] := by decide +kernel
  obtain ⟨s, hrun, hresult⟩ := Option.map_eq_some_iff.1 hresult
  exact ⟨s, hrun, hresult, hcommits, hunlinks, shutdown_is_orderly plain_starts_opened hrun hresult⟩

end Service

end EchoLog
