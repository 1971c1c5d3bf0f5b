import EchoLog.Proofs.Service.Crew
import EchoLog.Proofs.Service.Faults
import EchoLog.Proofs.Service.Packets
import EchoLog.Proofs.Service.Shutdown
/-!
# What clients can do to a service

A client can end its own session and no more.  As long as no file step fails, or if the settings say that
failures of the store are not fatal, nothing is ever reported to the coordinator, so it stops only because
of the signal, a request, or a listener that fails for good (`Blameless`).  Whatever a session does, or the
lock and the file do for it, changes nothing else of the service but the file (`Aside`); and what goes on
between it and its client does not even change that (`Apart`).
-/

namespace EchoLog

open SharedLog

/-- What a service returns when clients and the store are not to blame. -/
inductive Excused (es : List ServiceEvent) : Except Failure Unit → Prop where
  | done : Excused es (.ok ())
  | listener {cause : IoError} : cause.isTransient = false → .acceptFails cause ∈ es →
      Excused es (.error (.server (.accept cause)))

theorem Excused.append {es : List ServiceEvent} {r : Except Failure Unit} (h : Excused es r)
    (more : List ServiceEvent) : Excused (es ++ more) r := by
  cases h with
  | done => exact .done
  | listener hcause h => exact .listener hcause (List.mem_append_left _ h)

namespace Service

variable {s s' s₀ : Service} {e : ServiceEvent} {es : List ServiceEvent} {a : Annals}

/-- Whatever has stopped, or is about to, has a cause that is not a client's doing. -/
structure Blameless (es : List ServiceEvent) (s : Service) : Prop where
  channel : s.faults = []
  signalled : s.signalled = true → .signal ∈ es
  stopping : s.force.roster.stopping = true → StopCause es
  acceptor : ∀ r, s.force.acceptor = .stopped r → StopCause es ∧ Excused es r

theorem Blameless.append (h : Blameless es s) (more : List ServiceEvent) : Blameless (es ++ more) s :=
  ⟨h.channel, fun hs => List.mem_append_left _ (h.signalled hs), fun hs => (h.stopping hs).append _,
    fun r hr => ⟨(h.acceptor r hr).1.append _, (h.acceptor r hr).2.append _⟩⟩

/-- A reason to stop is such a cause. -/
theorem Blameless.outcome (h : Blameless es s) {reason : Reason} {outcome : Except Failure Unit}
    {faults : List Failure} (hreason : s.outcome? reason = some (outcome, faults)) :
    StopCause es ∧ Excused es outcome ∧ faults = [] := by
  cases reason with
  | signal =>
      obtain ⟨hsignalled, hsame⟩ := Option.ite_none_right_eq_some.1 hreason
      cases hsame
      exact ⟨.signal (h.signalled hsignalled), .done, h.channel⟩
  | fault =>
      rw [outcome?, h.channel] at hreason
      cases hreason
  | acceptor =>
      unfold outcome? at hreason
      cases hacceptor : s.force.acceptor <;> simp only [hacceptor] at hreason <;> cases hreason
      obtain ⟨hcause, hexcused⟩ := h.acceptor _ hacceptor
      exact ⟨hcause, hexcused, h.channel⟩

/-- **A step of the workforce keeps it so.** -/
theorem Blameless.work {step : WorkStep} {force : Workforce} (h : Blameless es s)
    (hflag : s.force.roster.stopping = s.force.roster.cancelled) (he : e.workStep? = some step)
    (hm : Workforce.Move s.force step force) :
    ∀ r, force.acceptor = .stopped r → StopCause (es ++ [e]) ∧ Excused (es ++ [e]) r := by
  intro r hr
  have hold : s.force.acceptor = .stopped r → StopCause (es ++ [e]) ∧ Excused (es ++ [e]) r :=
    (h.append [e]).acceptor r
  cases hm with
  | look _ =>
      simp only at hr
      split at hr
      · rename_i hstopping
        cases hr
        exact ⟨(h.stopping hstopping).append _, .done⟩
      · cases hr
  | takeSlot _ _ _ => cases hr
  | accept _ _ _ _ => cases hr
  | acceptFails cause _ _ =>
      have hlast : e = .acceptFails cause := by cases e <;> cases he; rfl
      rw [Workforce.acceptor_settleOn] at hr
      split at hr
      · cases hr
      · rename_i htransient
        cases hr
        have hcause : cause.isTransient = false := Bool.not_eq_true _ ▸ htransient
        have hmem : .acceptFails cause ∈ es ++ [e] := by
          rw [hlast]
          exact List.mem_append_right _ List.mem_cons_self
        exact ⟨.listener hcause hmem, .listener hcause hmem⟩
  | leave _ hcancelled =>
      rw [Workforce.acceptor_settleOn] at hr
      cases hr
      exact ⟨(h.stopping (hflag.trans hcancelled)).append _, .done⟩
  | abandon =>
      rw [Workforce.acceptor_settleOn] at hr
      cases hr
  | finish _ _ => exact hold hr
  | giveBack _ _ _ => exact hold hr
  | go _ _ _ => exact hold hr
  | requestStop => exact hold hr

/-- What a task reports that does not stop the service is not put on the channel. -/
theorem faults_report {result : Except Failure Unit}
    (h : ∀ f, result = .error f → f.escalates s.settings.shutdown.fatalStorageErrors = false) :
    (s.report result).faults = s.faults := by
  cases result with
  | ok _ => rfl
  | error f =>
      rw [report, if_neg (by rw [h f rfl]; simp)]
      rfl

/-- Only the signal is seen as one. -/
theorem Move.signalled (hm : Move s e s') : e = .signal ∨ s'.signalled = s.signalled := by
  cases hm with
  | begin _ _ _ =>
      unfold Service.begin
      dsimp only
      split <;> exact .inr rfl
  | finish _ _ _ _ =>
      unfold report
      split
      · exact .inr rfl
      · split <;> exact .inr rfl
  | signal => exact .inl rfl
  | drained _ _ =>
      unfold afterDrain
      dsimp only
      split <;> exact .inr rfl
  | timedOut _ _ =>
      unfold afterDrain
      dsimp only
      split <;> exact .inr rfl
  | @removed _ _ answer _ _ => cases answer <;> exact .inr rfl
  | _ => exact .inr rfl

/-- No task has ended with a failure that stops the service by its settings. -/
def Tame (s : Service) : Prop :=
  ∀ i t f, s.log.task? i = some t → ending? t = some (.error f) →
    f.escalates s.settings.shutdown.fatalStorageErrors = false

/-- Nothing is put on the channel. -/
theorem Blameless.faults_move (h : Blameless es s) (htame : Tame s) (hm : Move s e s') :
    s'.faults = [] := by
  cases hm with
  | begin _ _ _ =>
      unfold Service.begin
      dsimp only
      split <;> exact h.channel
  | finish _ ht hend _ =>
      refine (faults_report fun f hf => ?_).trans h.channel
      exact htame _ _ f ht (hf ▸ hend)
  | stop _ hreason => exact (h.outcome hreason).2.2
  | drained _ _ =>
      unfold afterDrain
      dsimp only
      split <;> rfl
  | timedOut _ _ =>
      unfold afterDrain
      dsimp only
      split <;> rfl
  | @removed _ _ answer _ _ => cases answer <;> exact h.channel
  | _ => exact h.channel

/-- A stop has a cause. -/
theorem Blameless.cause_of_isStop (h : Blameless es s) (hm : Move s e s') (hstop : e.isStop = true) :
    StopCause (es ++ [e]) := by
  cases hm with
  | requestStop => exact .request (List.mem_append_right _ List.mem_cons_self)
  | stop _ hreason => exact (h.outcome hreason).1.append _
  | acceptor _ _ he _ _ => cases e <;> simp_all [ServiceEvent.workStep?, ServiceEvent.isStop]
  | _ => cases hstop

/-- **Every move keeps it so**, if what tasks fail with does not stop the service. -/
theorem Blameless.move (h : Blameless es s) (htame : Tame s)
    (hflag : s.force.roster.stopping = s.force.roster.cancelled) (hm : Move s e s') :
    Blameless (es ++ [e]) s' := by
  refine ⟨h.faults_move htame hm, ?_, ?_, ?_⟩
  · intro hsignalled
    rcases hm.signalled with rfl | hsame
    · exact List.mem_append_right _ List.mem_cons_self
    · exact List.mem_append_left _ (h.signalled (hsame ▸ hsignalled))
  · intro hstopping
    rcases hm.flags with ⟨hstop, -, -⟩ | ⟨-, hsame, -⟩
    · exact h.cause_of_isStop hm hstop
    · exact (h.stopping (hsame ▸ hstopping)).append _
  · have hengages := hm.engages
    generalize s'.force = force at hengages
    cases hengages with
    | stays _ _ => exact (h.append [e]).acceptor
    | steps he _ _ hwork => exact h.work hflag he hwork
    | tracks _ _ _ => exact (h.append _).acceptor
    | requests hwork =>
        cases hwork with
        | requestStop => exact (h.append _).acceptor
    | stops _ hwork =>
        cases hwork with
        | abandon =>
            intro r hr
            cases (Workforce.acceptor_settleOn _ _).symm.trans hr

/-! ## Runs -/

variable {settings : Settings} {directory : Location} {disk : Disk}

/-- What is kept in a run in which the store is not to blame. -/
structure Sound (settings : Settings) (a : Annals) (s : Service) : Prop where
  same : s.settings = settings
  tokens : Tokens s
  queue : s.log.Queue
  mild : Mild s.log
  serene : settings.shutdown.fatalStorageErrors = true → s.log.Serene
  blameless : Blameless a.events s
  fated : Fated a s

/-- Events that need not be feared: if failures of the store are fatal, no file step that fails. -/
def isHarmless (settings : Settings) (s : Service) (e : ServiceEvent) : Bool :=
  !settings.shutdown.fatalStorageErrors || s.isFlawless e

theorem Sound.move (h : Sound settings a s) (hkind : isHarmless settings s e = true) (hm : Move s e s') :
    Sound settings (a.note s e s') s' := by
  have hhandling := hm.handling
  have htame : Tame s := by
    rw [Tame, h.same]
    exact fun i t f ht hf => h.mild.escalates h.serene ht hf
  have hstop : ∀ i x, s.log.session? i = some x → s.log.isCancelled i = true → StopCause a.events := by
    intro i x hx hfired
    refine h.blameless.stopping ?_
    rw [h.tokens.flag, ← h.tokens.own i _ (session?_eq_some.1 hx) rfl]
    exact hfired
  refine ⟨hm.settings.trans h.same, h.tokens.move hm, hhandling.queue h.queue,
    hhandling.mild h.queue h.mild, ?_, h.blameless.move htame h.tokens.flag hm,
    h.fated.move h.queue hm hstop⟩
  intro hfatal
  rw [isHarmless, hfatal, Bool.not_true, Bool.false_or] at hkind
  exact hhandling.serene hkind (h.serene hfatal)

theorem sound_start (hstart : ofListener settings directory disk = .started s₀) :
    Sound settings {} s₀ := by
  have htokens := tokens_start hstart
  obtain ⟨store, fresh, roster, -, hroster, rfl⟩ := eq_of_started hstart
  have hfree : roster.stopping = false := by
    unfold Roster.start? at hroster
    split at hroster <;> cases hroster
    rfl
  refine ⟨rfl, htokens, queue_start fresh store [], ?_, ?_, ⟨rfl, ?_, ?_, ?_⟩, ?_⟩
  · intro i t f ht
    cases ht
  · intro _
    exact serene_of_tasks (fun i t ht => by cases ht) (by simp)
  · intro hsignalled
    cases hsignalled
  · intro hstopping
    cases hfree.symm.trans hstopping
  · intro r hr
    cases hr
  · intro i x r hx
    cases session?_eq_some.1 hx

/-- A run along which events are of one kind has them of any wider kind. -/
theorem Along.mono {kind wider : Service → ServiceEvent → Bool}
    (hwider : ∀ s e, kind s e = true → wider s e = true) (h : s₀.Along kind es = true) :
    s₀.Along wider es = true := by
  induction es generalizing s₀ with
  | nil => rfl
  | cons e es ih =>
      rw [Along, Bool.and_eq_true] at h ⊢
      refine ⟨hwider _ _ h.1, ?_⟩
      cases hu : s₀.step? e with
      | none => rfl
      | some u =>
          rw [hu] at h
          exact ih h.2

/-- What holds along a run holds along its beginning. -/
theorem along_of_append {kind : Service → ServiceEvent → Bool} {more : List ServiceEvent}
    (h : s₀.Along kind (es ++ more) = true) : s₀.Along kind es = true := by
  induction es generalizing s₀ with
  | nil => rfl
  | cons e es ih =>
      rw [List.cons_append, Along, Bool.and_eq_true] at h
      rw [Along, Bool.and_eq_true]
      refine ⟨h.1, ?_⟩
      cases hu : s₀.step? e with
      | none => rfl
      | some u =>
          rw [hu] at h
          exact ih h.2

theorem sound_of_run (hstart : ofListener settings directory disk = .started s₀)
    (hrun : s₀.run? es = some s)
    (hpolicy : settings.shutdown.fatalStorageErrors = false ∨ s₀.Along isFlawless es = true) :
    Sound settings (s₀.annals es) s := by
  have hkind : s₀.Along (isHarmless settings) es = true := by
    rcases hpolicy with hlenient | hflawless
    · refine Along.mono (fun _ _ _ => ?_) (along_any s₀ es)
      rw [isHarmless, hlenient]
      rfl
    · refine Along.mono (fun _ _ h => ?_) hflawless
      rw [isHarmless, h, Bool.or_true]
  exact run_induction (fun hkind h hm => h.move hkind hm) (sound_start hstart) hkind hrun

/-- Where no file step fails the store refuses nobody. -/
theorem serene_of_run (hstart : ofListener settings directory disk = .started s₀)
    (hrun : s₀.run? es = some s) (hflawless : s₀.Along isFlawless es = true) : s.log.Serene := by
  refine run_induction (a := {}) (P := fun _ s => s.log.Serene)
    (fun hkind h hm => hm.handling.serene hkind h) ?_ hflawless hrun
  obtain ⟨store, fresh, roster, -, -, rfl⟩ := eq_of_started hstart
  exact serene_of_tasks (fun i t ht => by cases ht) (by simp)

/-- A caller that was refused nothing has no failure for an answer. -/
theorem answerAt?_ne_error (h : s.log.Serene) {i : Nat} {f : Failure} :
    s.answerAt? i ≠ some (.error f) := by
  intro hanswer
  unfold answerAt? at hanswer
  split at hanswer
  · rename_i c ht
    have hrefused := h.task ht
    rw [Task.wasRefused, hanswer] at hrefused
    cases hrefused
  · cases hanswer

/-- Whoever waits for the tasks has stopped them before. -/
theorem halted_of_run (hearly : s₀.coordinator.phase ≤ 1) (hrun : s₀.run? es = some s)
    (hlate : 2 ≤ s.coordinator.phase) : Halted s := by
  refine run_states (P := fun s => 2 ≤ s.coordinator.phase → Halted s) ?_
    (fun h => absurd h (by omega)) hrun hlate
  intro s s' e h hm hlate'
  by_cases hbefore : 2 ≤ s.coordinator.phase
  · exact ((h hbefore).move hm).1
  · obtain ⟨reason, outcome, faults, -, -, -, rfl⟩ := hm.of_stop hbefore hlate'
    exact halted_stop ..

/-! ## Clients -/

/-- An event that is an affair of the task at a place: a move of its own, its request for the lock, or what
the lock and the file do for it. -/
inductive IsAffair (i : Nat) (g : SharedLog) : Event → Prop where
  | own {inner : Event} : inner.place? = some i → IsAffair i g inner
  | ask : IsAffair i g (.ask i)
  | grant {r : Request} {rest : List (Nat × Request)} : g.waiting = (i, r) :: rest → IsAffair i g .grant
  | file {w : Work} (fault : Option Fault) : g.holder = some (i, w) → IsAffair i g (.file fault)
  | release {w : Work} : g.holder = some (i, w) → IsAffair i g .release

/-- Nothing of two states of a log differs, but for the task at a place, its own part in the queue for the
lock, the file, and what is reported. -/
structure Beside (i : Nat) (g g' : SharedLog) : Prop where
  task : ∀ j, j ≠ i → g'.task? j = g.task? j
  token : ∀ j, g'.isCancelled j = g.isCancelled j
  holder : ∀ j w, j ≠ i → (g'.holder = some (j, w) ↔ g.holder = some (j, w))
  waiting : g'.waiting.filter (·.1 ≠ i) = g.waiting.filter (·.1 ≠ i)

/-- **What a task does, or the lock and the file do for it, concerns no other task**, but for the file. -/
theorem beside_of_affair {i : Nat} {inner : Event} {g g' : SharedLog} (haffair : IsAffair i g inner)
    (hm : SharedLog.Move g inner g') : Beside i g g' := by
  have htoken : ∀ j, g'.isCancelled j = g.isCancelled j := by
    refine hm.isCancelled_eq fun k hfire => ?_
    subst hfire
    cases haffair with
    | own hplace => cases hplace
  -- the lock passes between nobody and the task
  have hholder : ∀ {o o' : Option (Nat × Work)}, (∀ p ∈ o, p.1 = i) → (∀ p ∈ o', p.1 = i) →
      ∀ j w, j ≠ i → (o' = some (j, w) ↔ o = some (j, w)) :=
    fun ho ho' j w hj => ⟨fun h => absurd (ho' _ h) hj, fun h => absurd (ho _ h) hj⟩
  cases hm with
  | own more ht hown =>
      cases haffair with
      | own hplace =>
          cases hown.place?.symm.trans hplace
          exact ⟨fun j hj => task?_setTask_other hj, htoken, fun _ _ _ => Iff.rfl, rfl⟩
      | _ => cases hown
  | ask hr hqueued =>
      cases haffair with
      | own hplace => cases hplace
      | ask =>
          refine ⟨fun _ _ => rfl, htoken, fun _ _ _ => Iff.rfl, ?_⟩
          rw [List.filter_append, List.filter_cons_of_neg (by simp), List.filter_nil, List.append_nil]
  | grant hnone hw =>
      cases haffair with
      | own hplace => cases hplace
      | grant hfirst =>
          cases hw.symm.trans hfirst
          refine ⟨fun _ _ => rfl, htoken, hholder (by simp [hnone]) (by simp), ?_⟩
          rw [hw, List.filter_cons_of_neg (by simp)]
  | file hw hmore =>
      cases haffair with
      | own hplace => cases hplace
      | file _ hholds =>
          cases hw.symm.trans hholds
          exact ⟨fun _ _ => rfl, htoken, hholder (by simp [hw]) (by simp), rfl⟩
  | release hw ht =>
      cases haffair with
      | own hplace => cases hplace
      | release hholds =>
          cases hw.symm.trans hholds
          exact ⟨fun j hj => task?_setTask_other hj, htoken, hholder (by simp [hw]) (by simp), rfl⟩
  | fire =>
      cases haffair with
      | own hplace => cases hplace
  | outside =>
      cases haffair with
      | own hplace => cases hplace

/-- Nothing of two states of a service differs, but for the task at a place, its own part in the queue for the
lock, the file, and what is reported. -/
structure Aside (i : Nat) (s s' : Service) : Prop where
  log : Beside i s.log s'.log
  force : s'.force = s.force
  members : s'.members = s.members
  faults : s'.faults = s.faults
  signalled : s'.signalled = s.signalled
  coordinator : s'.coordinator = s.coordinator

/-- Nor does the file differ, or the lock. -/
structure Apart (i : Nat) (s s' : Service) : Prop extends Aside i s s' where
  disk : s'.log.disk = s.log.disk
  store : s'.log.store = s.log.store
  holder : s'.log.holder = s.log.holder
  waiting : s'.log.waiting = s.log.waiting

/-- What happens to the log happens to nothing else of a service. -/
theorem of_step?_log {inner : Event} (hstep : s.step? (.log inner) = some s') :
    ∃ g, SharedLog.Move s.log inner g ∧ s' = { s with log := g } := by
  cases move_of_step? hstep with
  | log _ hm => exact ⟨_, hm, rfl⟩
  | acceptor _ _ he _ _ => cases he

/-- **Nor does it concern anybody else of the service**, whether it fails or not. -/
theorem aside_of_affair {i : Nat} {inner : Event} (haffair : IsAffair i s.log inner)
    (hstep : s.step? (.log inner) = some s') : Aside i s s' := by
  obtain ⟨g, hm, rfl⟩ := of_step?_log hstep
  exact ⟨beside_of_affair haffair hm, rfl, rfl, rfl, rfl, rfl⟩

/-- **What happens between a session and its client does not even concern the file.** -/
theorem apart_of_contact {i : Nat} {inner : Event} (hcontact : inner.isContact i = true)
    (hstep : s.step? (.log inner) = some s') : Apart i s s' := by
  have hplace : inner.place? = some i := by
    by_contra hnot
    rw [isContact_of_place? hnot] at hcontact
    cases hcontact
  have haside := aside_of_affair (.own hplace) hstep
  obtain ⟨g, hm, rfl⟩ := of_step?_log hstep
  cases hm with
  | own => exact ⟨haside, rfl, rfl, rfl, rfl⟩
  | _ => cases hplace

/-- A service that its clients cannot stop. -/
structure Undeterred (s₀ : Service) (es : List ServiceEvent) (s : Service) : Prop where
  /-- A session ends by what has happened at its own place, and with a failure of the store only if a file
  step has failed. -/
  sessions : ∀ i x r, s.log.session? i = some x → x.result? = some r → Fate es i r ∧
    (s₀.Along isFlawless es = true → ∀ cause, r ≠ .error (.storage cause))
  /-- Nothing is on the channel to the coordinator. -/
  channel : s.faults = []
  /-- Nobody is told to stop but by the signal, a request or the listener. -/
  stopped : s.force.roster.stopping = true ∨ 2 ≤ s.coordinator.phase → StopCause es
  /-- What is returned is the failure of the listener, or of the removal of the log, if there is one. -/
  result : ∀ r, s.result? = some r → StopCause es ∧ (Excused es r ∨
    s₀.Along isFlawless es = false ∧ ∃ i f, s.answerAt? i = some (.error f) ∧ r = .error f)
  /-- What a client does next concerns nobody but its own session. -/
  apart : ∀ i inner s', inner.isContact i = true → s.step? (.log inner) = some s' → Apart i s s'
  /-- What its session does next, or what is done for it, concerns nobody else either, but for the file. -/
  aside : ∀ i inner s', IsAffair i s.log inner → s.step? (.log inner) = some s' → Aside i s s'
  /-- The log is made of whole packets and records, as long as it is kept and nobody else writes to it, until
  a rollback fails.  What it holds from then on is left open. -/
  log : HasKept s → OnlyRead es → s₀.Along isUndisturbed es = true →
    s.log.Filled (s₀.annals es).chronicle

/-- What is returned when the service was sound up to the stop. -/
theorem Course.result_cases (hstart : ofListener settings directory disk = .started s₀) {r}
    (c : Course s₀ s) (hreturned : s.coordinator = .returned r) (hexcused : Excused c.events c.outcome) :
    Excused c.events r ∨ ∃ i f, s.answerAt? i = some (.error f) ∧ r = .error f := by
  cases hremove : s₀.settings.storage.removeOnShutdown with
  | false => exact .inl (c.result_of_keep hreturned hremove ▸ hexcused)
  | true =>
      obtain ⟨caller, answer, ht, -, hanswer, rfl, -⟩ := c.exists_answer hstart hreturned hremove
      cases answer with
      | ok reply => exact .inl hexcused
      | error f =>
          cases houtcome : c.outcome with
          | error first =>
              rw [houtcome] at hexcused
              exact .inl hexcused
          | ok _ =>
              refine .inr ⟨c.place, f, ?_, rfl⟩
              rw [answerAt?, ht]
              exact hanswer

/-- **No client can stop the service.**  Whatever clients do and however the events come together, as long as
no file step fails, or if the settings say that failures of the store are not fatal, the service goes on. -/
theorem clients_cannot_stop_the_service (hstart : ofListener settings directory disk = .started s₀)
    (hrun : s₀.run? es = some s)
    (hpolicy : settings.shutdown.fatalStorageErrors = false ∨ s₀.Along isFlawless es = true) :
    Undeterred s₀ es s := by
  have hsound := sound_of_run hstart hrun hpolicy
  have hevents : (s₀.annals es).events = es := annals_events hrun
  have hearly : s₀.coordinator.phase ≤ 1 := by
    obtain ⟨_, _, _, -, -, rfl⟩ := eq_of_started hstart
    exact Nat.zero_le 1
  have hstopped : s.force.roster.stopping = true ∨ 2 ≤ s.coordinator.phase → StopCause es := by
    rintro (hstopping | hlate)
    · exact hevents ▸ hsound.blameless.stopping hstopping
    · exact hevents ▸ hsound.blameless.stopping (halted_of_run hearly hrun hlate).stopping
  refine ⟨?_, hsound.blameless.channel, hstopped, ?_, fun i inner s' => apart_of_contact,
    fun i inner s' => aside_of_affair, ?_⟩
  · intro i x r hx hr
    refine ⟨hevents ▸ hsound.fated i x r hx hr, ?_⟩
    rintro hflawless cause rfl
    have hrefused := (serene_of_run hstart hrun hflawless).task (session?_eq_some.1 hx)
    have hend : ending? (.session x) = some (.error (.storage cause)) := by
      rw [ending?, hr]
      rfl
    rw [wasRefused_of_ending? hend] at hrefused
    cases hrefused
  · intro r hr
    have hreturned := coordinator_of_result? hr
    refine ⟨hstopped (.inr (by rw [hreturned]; exact Nat.le_add_right 2 2)), ?_⟩
    obtain ⟨c, rfl⟩ := exists_course hearly hrun hr
    have hbegins : c.events = c.before ++ (.stop c.reason :: (c.waiting ++ c.last :: c.after)) := by
      simp [Course.events, Course.prior]
    have hexcused : Excused c.events c.outcome := by
      have hbefore := sound_of_run hstart c.reaches (hpolicy.imp_right fun hflawless =>
        along_of_append (hbegins ▸ hflawless))
      have hchosen := (hbefore.blameless.outcome c.chooses).2.1
      rw [show (s₀.annals c.before).events = c.before from annals_events c.reaches] at hchosen
      exact hbegins ▸ hchosen.append _
    rcases c.result_cases hstart hreturned hexcused with hexcused | ⟨i, f, hanswer, rfl⟩
    · exact .inl hexcused
    · refine .inr ⟨Bool.eq_false_iff.2 fun hflawless => ?_, i, f, hanswer, rfl⟩
      exact answerAt?_ne_error (serene_of_run hstart hrun hflawless) hanswer
  · exact fun hkept hread hkind => filled_of_run hstart hkind hrun hkept hread

/-- Settings by which failures of the store are not fatal. -/
def lenient : Settings :=
  { plain with shutdown := { fatalStorageErrors := false } }

/-- A service by these settings, as it starts. -/
def forbearing : Service :=
  { opened with settings := lenient }

theorem lenient_starts_forbearing : ofListener lenient [] {} = .started forbearing := by
  have hcheck : lenient.check = .ok () := by decide +kernel
  have hcreate : Store.create {} ⟨[], lenient.storage.dataFile⟩ lenient.storage.syncWrites =
      .ok (forbearing.log.store, forbearing.log.disk) := rfl
  have hroster : Roster.start? lenient.server.maxConnections = some forbearing.force.roster := by
    decide +kernel
  unfold ofListener
  rw [hcheck]
  dsimp only
  rw [hcreate]
  dsimp only
  rw [hroster]
  rfl

/-- Two clients.  The store refuses the packet of the first, and the second resets its connection once it
has its echo. -/
def nuisance : List ServiceEvent :=
  [.begin 0 0, .look, .takeSlot, .accept (.quad 127 0 0 1 1) 0, .look, .takeSlot,
    .accept (.quad 127 0 0 1 2) 0, .look, .log (.receive 0 (.ok (utf8 "a\n"))), .log (.frame 0),
    .log (.ask 0), .log .grant, .log (.file none), .log (.receive 1 (.ok (utf8 "bb\nc"))),
    .log (.frame 1), .log (.ask 1), .log (.file (some ⟨.noSpace, 1⟩)), .log (.file none),
    .log .release, .log .grant, .log (.file none), .log (.file none), .log (.file none),
    .log (.file none), .log .release, .finish 0, .log (.send 1 (.ok 3)), .log (.flush 1 (.ok ())),
    .log (.frame 1), .log (.receive 1 (.error (.ofKind .connectionReset))), .finish 1]

/-- The theorem at two clients, both gone for different reasons: the service goes on. -/
theorem nuisance_is_endured : ∃ s, forbearing.run? nuisance = some s ∧
    s.force.roster.stopping = false ∧ s.log.content = utf8 "bb\n" ∧ Undeterred forbearing nuisance s := by
  have hseen : (forbearing.run? nuisance).map (fun s => (s.force.roster.stopping, s.log.content)) =
      some (false, utf8 "bb\n") := by decide +kernel
  obtain ⟨s, hrun, hseen⟩ := Option.map_eq_some_iff.1 hseen
  obtain ⟨hstopping, hcontent⟩ := Prod.mk.inj hseen
  exact ⟨s, hrun, hstopping, hcontent,
    clients_cannot_stop_the_service lenient_starts_forbearing hrun (.inl rfl)⟩

/-- A client whose packet is stored in part when storing it fails; then the rollback fails too. -/
def tear : List ServiceEvent :=
  [.begin 0 0, .look, .takeSlot, .accept (.quad 127 0 0 1 1) 0,
    .log (.receive 0 (.ok (utf8 "abcdef\n"))), .log (.frame 0), .log (.ask 0), .log .grant,
    .log (.file none), .log (.file (some ⟨.noSpace, 4⟩)), .log (.file (some ⟨.noSpace, 0⟩)),
    .log .release, .finish 0]

/-- Failures of the store are not fatal, but they show: the session ends with one, and where the rollback
fails a part of its packet stays in the log. -/
theorem tear_leaves_part : ∃ s x, forbearing.run? tear = some s ∧ s.log.session? 0 = some x ∧
    x.result? = some (.error (.storage .noSpace)) ∧ s.log.holder = none ∧
    s.log.content = utf8 "abcd" ∧ (forbearing.annals tear).chronicle.commits = [] := by
  have hseen : (forbearing.run? tear).map (fun s => (s.log.holder.isNone, s.log.content)) =
      some (true, utf8 "abcd") := by decide +kernel
  have hend : ((forbearing.run? tear).bind (·.log.session? 0)).map (·.result?) =
      some (some (.error (.storage .noSpace))) := by decide +kernel
  have hcommits : (forbearing.annals tear).chronicle.commits = [] := by decide +kernel
  obtain ⟨s, hrun, hseen⟩ := Option.map_eq_some_iff.1 hseen
  obtain ⟨hfree, hcontent⟩ := Prod.mk.inj hseen
  rw [hrun] at hend
  obtain ⟨x, hx, hresult⟩ := Option.map_eq_some_iff.1 hend
  exact ⟨s, x, hrun, hx, hresult, Option.isNone_iff_eq_none.1 hfree, hcontent, hcommits⟩

end Service

end EchoLog
