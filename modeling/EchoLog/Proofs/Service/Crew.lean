import EchoLog.Proofs.Roster.Books
import EchoLog.Proofs.Service.Log
/-!
# The crew of a service

A session and the timestamp writer have two sides: a task of the log, which does the work, and a tracked
task, which holds the worker slot and the registration.  The log side comes to its end first, and only
then does the tracked task begin to give back what it holds (`Crew`).  So when no tracked task is left,
every session and the timestamp writer have come to their ends, and whoever still has the lock is somebody
from outside (`Crew.ended_of_gone`).

The workforce of a service keeps its books like any other (`Booked`): what the coordinator adds to
the steps of acceptor and workers is to track the timestamp writer, to abandon the acceptor and to close
the tracker.  Their token is the roster's, in each of its clones (`Tokens`).
-/

namespace EchoLog

open SharedLog

/-! ## The workforce -/

namespace Workforce

variable {w w' : Workforce} {e : WorkStep}

theorem settleOn_flags (w : Workforce) (a : Acceptor) :
    (w.settleOn a).roster.stopping = w.roster.stopping ∧
      (w.settleOn a).roster.cancelled = w.roster.cancelled := by
  unfold settleOn Roster.release
  split
  · split <;> exact ⟨rfl, rfl⟩
  · exact ⟨rfl, rfl⟩

theorem acceptor_settleOn (w : Workforce) (a : Acceptor) : (w.settleOn a).acceptor = a := by
  unfold settleOn
  split <;> rfl

/-- Only a request for it stops anybody. -/
theorem Move.flags (h : Move w e w') (he : e ≠ .requestStop) :
    w'.roster.stopping = w.roster.stopping ∧ w'.roster.cancelled = w.roster.cancelled := by
  cases h with
  | acceptFails _ _ _ => exact w.settleOn_flags _
  | leave _ _ => exact w.settleOn_flags _
  | abandon => exact w.settleOn_flags _
  | @giveBack id t g rest _ _ _ =>
      cases g with
      | slot permit =>
          simp only [Roster.giveBack, Roster.release]
          split <;> exact ⟨rfl, rfl⟩
      | session i => exact ⟨rfl, rfl⟩
  | requestStop => exact absurd rfl he
  | _ => exact ⟨rfl, rfl⟩

/-- A task that has not ended stays, unless it ends now. -/
theorem Move.task_stays (h : Move w e w') (honce : (w.roster.tasks.map (·.id)).Nodup) {t : TrackedTask}
    (ht : t ∈ w.roster.tasks) (hrunning : t.ended = false) :
    t ∈ w'.roster.tasks ∨ e = .finish t.id := by
  have hother : ∀ {u : TrackedTask}, u.ended = true → t ≠ u := by
    rintro u hended rfl
    exact absurd (hrunning.symm.trans hended) (by simp)
  cases h with
  | look _ => exact .inl ht
  | takeSlot _ _ _ => exact .inl ht
  | accept _ _ _ _ => exact .inl (List.mem_append_left _ ht)
  | acceptFails _ _ _ => exact .inl ((w.settleOn_same _).1 ▸ ht)
  | leave _ _ => exact .inl ((w.settleOn_same _).1 ▸ ht)
  | abandon => exact .inl ((w.settleOn_same _).1 ▸ ht)
  | finish hu _ =>
      obtain ⟨before, after, hsplit⟩ := Roster.exists_split honce hu
      rcases hsplit.mem_or ht with rfl | ⟨hstays, -⟩
      · exact .inr (by rw [hsplit.id_eq])
      · exact .inl (hstays _)
  | @giveBack id u g rest hu hended _ =>
      obtain ⟨before, after, hsplit⟩ := Roster.exists_split honce hu
      obtain ⟨hstays, -⟩ := (hsplit.mem_or ht).resolve_left (hother hended)
      refine .inl ?_
      rw [(Roster.giveBack_same _ g).1]
      exact hstays _
  | go hu hended _ =>
      obtain ⟨before, after, hsplit⟩ := Roster.exists_split honce hu
      exact .inl ((hsplit.mem_or ht).resolve_left (hother hended)).2
  | requestStop => exact .inl ht

theorem Move.nextTask_le (h : Move w e w') : w.roster.nextTask ≤ w'.roster.nextTask := by
  cases h with
  | accept _ _ _ _ => exact Nat.le_succ _
  | acceptFails _ _ _ => exact Nat.le_of_eq (w.settleOn_same _).2.1.symm
  | leave _ _ => exact Nat.le_of_eq (w.settleOn_same _).2.1.symm
  | abandon => exact Nat.le_of_eq (w.settleOn_same _).2.1.symm
  | @giveBack id u g rest _ _ _ =>
      have hsame := Roster.giveBack_same (w.roster.setTask id fun t => { t with guards := rest }) g
      exact Nat.le_of_eq hsame.2.1.symm
  | _ => exact Nat.le_refl _

/-- A task that holds nothing is tracked before anything is accepted. -/
theorem Books.track {slots first : Nat} (h : Books slots first [] w) :
    Books slots (first + 1) [] { w with roster := (w.roster.spawn []).2 } := by
  have hnext : w.roster.nextTask = first := h.workers.next
  have hplain : ∀ t ∈ w.roster.tasks, t.id < first ∧ t.guards = [] := by
    intro t ht
    rcases h.workers.each t ht with hplain | ⟨k, hk, -⟩
    · exact hplain
    · exact absurd hk (Nat.not_lt_zero _)
  refine ⟨?_, ?_, ?_, ?_, ?_⟩
  · have hsame : (w.roster.spawn []).2.workerPermits = w.roster.workerPermits := by
      simp [Roster.workerPermits, Roster.spawn, TrackedTask.permits]
    rw [permitsOut, hsame]
    exact h.slots.of_eq rfl rfl rfl
  · have hsame : (w.roster.spawn []).2.workerSessions = w.roster.workerSessions := by
      simp [Roster.workerSessions, Roster.spawn, TrackedTask.sessions]
    rw [hsame]
    exact h.registry.of_eq rfl rfl
  · rw [Roster.spawn, List.map_append]
    refine List.nodup_append.2 ⟨h.workers.once, List.pairwise_singleton .., ?_⟩
    intro a ha b hb hab
    obtain ⟨t, ht, rfl⟩ := List.mem_map.1 ha
    have hlt := h.workers.id_lt ht
    rw [hab, List.mem_singleton.1 hb] at hlt
    exact Nat.lt_irrefl _ hlt
  · intro t ht
    rcases List.mem_append.1 ht with ht | ht
    · exact .inl ⟨Nat.lt_succ_of_lt (hplain t ht).1, (hplain t ht).2⟩
    · rw [List.mem_singleton.1 ht]
      exact .inl ⟨by rw [hnext]; exact Nat.lt_succ_self _, rfl⟩
  · rw [Roster.spawn, hnext]
    rfl

end Workforce

/-- The connections that a service has accepted, in order. -/
def visitors (es : List ServiceEvent) : List (Endpoint × Nat) :=
  Workforce.accepted (es.filterMap ServiceEvent.workStep?)

theorem visitors_concat (es : List ServiceEvent) (e : ServiceEvent) :
    visitors (es ++ [e]) = visitors es ++ (e.workStep?.bind WorkStep.connection?).toList := by
  rw [visitors, visitors, List.filterMap_append]
  cases he : e.workStep? with
  | none => simp [he]
  | some step =>
      have hone : [e].filterMap ServiceEvent.workStep? = [step] := by simp [he]
      rw [hone, Workforce.accepted_concat]
      rfl

namespace Service

variable {s s' s₀ : Service} {e : ServiceEvent} {es : List ServiceEvent} {a : Annals}

/-- What a step of a service comes to for its workforce. -/
inductive Engages (s : Service) : ServiceEvent → Workforce → Prop where
  | stays {e : ServiceEvent} : e.workStep? = none → e.isStop = false → Engages s e s.force
  | steps {e : ServiceEvent} {step : WorkStep} {force : Workforce} : e.workStep? = some step →
      step ≠ .requestStop → (step.connection?.isSome → s.coordinator = .selecting) →
      Workforce.Move s.force step force → Engages s e force
  /-- The timestamp writer is tracked. -/
  | tracks (uptime now : Nat) : s.coordinator = .idle →
      Engages s (.begin uptime now) { s.force with roster := (s.force.roster.spawn []).2 }
  | requests {force : Workforce} : Workforce.Move s.force .requestStop force →
      Engages s .requestStop force
  /-- The coordinator stops everybody, abandons the acceptor and closes the tracker. -/
  | stops {reason : Reason} {force after : Workforce} : Workforce.Move s.force .requestStop force →
      Workforce.Move force .abandon after →
      Engages s (.stop reason) { after with roster := after.roster.close }

/-- **What a move comes to for the workforce.** -/
theorem Move.engages (h : Move s e s') : Engages s e s'.force := by
  cases h with
  | begin uptime now hidle =>
      unfold Service.begin
      dsimp only
      split
      · exact .tracks uptime now hidle
      · exact .stays rfl rfl
  | log _ _ => exact .stays rfl rfl
  | call _ => exact .stays rfl rfl
  | acceptor _ hselecting he _ hm =>
      refine .steps he ?_ (fun _ => hselecting) hm
      rintro rfl
      cases e <;> cases he
  | accept hselecting hm => exact .steps rfl (by simp) (fun _ => hselecting) hm
  | finish _ _ _ hm => exact .steps rfl (by simp) (by simp [WorkStep.connection?]) hm
  | retire hm => exact .steps rfl (by simp) (by simp [WorkStep.connection?]) hm
  | signal => exact .stays rfl rfl
  | requestStop => exact .requests .requestStop
  | stop _ _ => exact .stops .requestStop .abandon
  | drained _ _ =>
      rw [(s.afterDrain_same _ _).2.2]
      exact .stays rfl rfl
  | timedOut _ _ =>
      rw [(s.afterDrain_same _ _).2.2]
      exact .stays rfl rfl
  | removed _ _ =>
      rw [(s.afterRemoval_same _ _).2.2]
      exact .stays rfl rfl

/-! ## The books -/

/-- The books of a service: nobody has been served before it runs. -/
structure Booked (slots : Nat) (es : List ServiceEvent) (s : Service) : Prop where
  books : ∃ first, Workforce.Books slots first (visitors es) s.force
  idle : s.coordinator = .idle → visitors es = []

/-- Nobody goes back to where nothing has begun. -/
theorem Move.not_idle (h : Move s e s') (hidle : s'.coordinator = .idle) :
    s.coordinator = .idle ∧ e.workStep?.bind WorkStep.connection? = none := by
  cases h with
  | begin uptime now _ =>
      unfold Service.begin at hidle
      dsimp only at hidle
      split at hidle <;> cases hidle
  | acceptor _ hselecting _ _ _ => exact absurd (hselecting.symm.trans hidle) (by simp)
  | accept hselecting _ => exact absurd (hselecting.symm.trans hidle) (by simp)
  | finish _ _ _ _ => exact ⟨(s.report_same _).2.2.1.symm.trans hidle, rfl⟩
  | stop _ _ => cases hidle
  | drained _ _ =>
      unfold afterDrain at hidle
      dsimp only at hidle
      split at hidle <;> cases hidle
  | timedOut _ _ =>
      unfold afterDrain at hidle
      dsimp only at hidle
      split at hidle <;> cases hidle
  | @removed outcome seat answer _ _ => cases answer <;> cases hidle
  | _ => exact ⟨hidle, rfl⟩

/-- **Every move keeps the books.** -/
theorem Booked.move {slots : Nat} (h : Booked slots es s) (hm : Move s e s') :
    Booked slots (es ++ [e]) s' := by
  obtain ⟨first, hbooks⟩ := h.books
  refine ⟨?_, ?_⟩
  · rw [visitors_concat]
    have hengages := hm.engages
    generalize s'.force = force at hengages
    cases hengages with
    | stays he _ => exact ⟨first, he ▸ hbooks.none_more⟩
    | steps he _ _ hmove => exact ⟨first, he ▸ hbooks.move hmove⟩
    | tracks uptime now hidle =>
        rw [h.idle hidle] at hbooks ⊢
        exact ⟨first + 1, hbooks.track⟩
    | requests hmove => exact ⟨first, hbooks.move hmove⟩
    | stops hmove hmove' =>
        have hafter := (hbooks.move hmove).move hmove'
        refine ⟨first, ?_⟩
        rw [List.append_assoc] at hafter
        exact ⟨hafter.slots.of_eq rfl rfl rfl, hafter.registry.of_eq rfl rfl,
          hafter.workers.of_eq rfl rfl⟩
  · intro hidle
    obtain ⟨hidle, hnone⟩ := hm.not_idle hidle
    rw [visitors_concat, h.idle hidle, hnone]
    rfl

theorem booked_start {settings : Settings} {directory : Location} {disk : Disk}
    (hstart : ofListener settings directory disk = .started s₀) :
    Booked settings.server.maxConnections [] s₀ := by
  obtain ⟨store, fresh, roster, -, hroster, rfl⟩ := eq_of_started hstart
  exact ⟨⟨0, Workforce.books_start hroster⟩, fun _ => rfl⟩

/-! ## Tokens -/

/-- A stop sets the flag and fires the token; nothing else does. -/
theorem Move.flags (h : Move s e s') :
    (e.isStop = true ∧ s'.force.roster.stopping = true ∧ s'.force.roster.cancelled = true) ∨
      (e.isStop = false ∧ s'.force.roster.stopping = s.force.roster.stopping ∧
        s'.force.roster.cancelled = s.force.roster.cancelled) := by
  have hengages := h.engages
  generalize s'.force = force at hengages
  cases hengages with
  | stays _ hstop => exact .inr ⟨hstop, rfl, rfl⟩
  | steps he hstep _ hm =>
      have hstop : e.isStop = false := by cases e <;> first | rfl | cases he
      exact .inr ⟨hstop, hm.flags hstep⟩
  | tracks _ _ _ => exact .inr ⟨rfl, rfl, rfl⟩
  | requests hm =>
      cases hm with
      | requestStop => exact .inl ⟨rfl, rfl, rfl⟩
  | stops hm hm' =>
      have hsame := hm'.flags (by simp)
      cases hm with
      | requestStop => exact .inl ⟨rfl, hsame⟩

/-- The tokens of the service's own tasks are the roster's, which fires with the stop flag. -/
structure Tokens (s : Service) : Prop where
  flag : s.force.roster.stopping = s.force.roster.cancelled
  own : ∀ i t, s.log.task? i = some t → t.isOwn = true →
    s.log.isCancelled i = s.force.roster.cancelled

/-- **Every move keeps them together.** -/
theorem Tokens.move (h : Tokens s) (hm : Move s e s') : Tokens s' := by
  have hhandling := hm.handling
  rcases hm.flags with ⟨hstop, hflag, hfired⟩ | ⟨hstop, hflag, hfired⟩
  · refine ⟨hflag.trans hfired.symm, ?_⟩
    intro i t ht _
    rw [hfired]
    generalize s'.log = g at hhandling ht
    cases hhandling with
    | moves _ _ => cases hstop
    | reports _ _ hnot => exact absurd (hnot.symm.trans hstop) (by simp)
    | seats _ hjoins =>
        cases hjoins with
        | remover _ _ he => rcases he with rfl | rfl <;> cases hstop
        | _ => cases hstop
    | fires _ _ => exact isCancelled_fired ((task?_fired _ i).symm.trans ht)
  · refine ⟨by rw [hflag, hfired, h.flag], ?_⟩
    intro i t ht hown
    rw [hfired]
    generalize s'.log = g at hhandling ht
    cases hhandling with
    | moves hfire hm =>
        have hkind := hm.kind i
        rw [ht, Option.map_some] at hkind
        obtain ⟨u, hu, hsame⟩ := Option.map_eq_some_iff.1 hkind.symm
        rw [hm.isCancelled_eq hfire]
        exact h.own i u hu (Task.isOwn_of_kind hsame ▸ hown)
    | reports _ _ _ => exact h.own i t ht hown
    | seats _ hjoins =>
        rcases task?_join_cases ht with ⟨rfl, rfl⟩ | ht
        · refine (isCancelled_join_new (s.log.report _) _ _).trans ?_
          cases hjoins with
          | writer _ _ => rfl
          | session _ _ hfree => exact hfree.symm
          | outsider _ => cases hown
          | remover _ _ _ => cases hown
        · exact (isCancelled_join_of_some ht).trans (h.own i t ht hown)
    | fires _ hnot => exact absurd (hstop.symm.trans hnot) (by simp)

theorem tokens_start {settings : Settings} {directory : Location} {disk : Disk}
    (hstart : ofListener settings directory disk = .started s₀) : Tokens s₀ := by
  obtain ⟨store, fresh, roster, -, hroster, rfl⟩ := eq_of_started hstart
  unfold Roster.start? at hroster
  split at hroster
  · cases hroster
    exact ⟨rfl, by simp [task?]⟩
  · cases hroster

/-! ## Two sides of one task -/

/-- The tracked task of a member is at work. -/
def Employs (w : Workforce) (m : Member) : Prop :=
  ∃ t ∈ w.roster.tasks, t.id = m.task ∧ t.ended = false

/-- The log side of a member has come to its end. -/
def HasEnded (s : Service) (m : Member) : Prop :=
  ∃ t r, s.log.task? m.seat = some t ∧ ending? t = some r

/-- Every task of the service's own is tracked until it has come to its end. -/
structure Crew (s : Service) : Prop where
  queue : s.log.Queue
  seated : ∀ i t, s.log.task? i = some t → t.isOwn = true → ∃ m ∈ s.members, m.seat = i
  once : (s.members.map (·.task)).Nodup
  known : ∀ m ∈ s.members, m.task < s.force.roster.nextTask
  working : ∀ m ∈ s.members, Employs s.force m ∨ s.HasEnded m

/-- The members stay. -/
theorem Crew.stay (h : Crew s) (hhandling : Handling s e s'.log) (hmembers : s'.members = s.members)
    (hjoins : ∀ t token, s.Joins e t token → t.isOwn = false)
    (hnext : s.force.roster.nextTask ≤ s'.force.roster.nextTask)
    (hworking : ∀ m ∈ s.members, Employs s.force m → Employs s'.force m ∨ s'.HasEnded m) : Crew s' := by
  refine ⟨hhandling.queue h.queue, ?_, ?_, ?_, ?_⟩
  · intro i t ht hown
    rw [hmembers]
    rcases hhandling.task?_cases ht with ⟨-, token, hjoin⟩ | ⟨u, hu, hkind⟩
    · rw [hjoins t token hjoin] at hown
      cases hown
    · exact h.seated i u hu (Task.isOwn_of_kind hkind ▸ hown)
  · rw [hmembers]
    exact h.once
  · rw [hmembers]
    intro m hm
    exact Nat.lt_of_lt_of_le (h.known m hm) hnext
  · rw [hmembers]
    intro m hm
    rcases h.working m hm with hat | ⟨t, r, ht, hend⟩
    · exact hworking m hm hat
    · exact .inr ⟨t, r, hhandling.task?_of_rests h.queue ht (rests_of_ending hend), hend⟩

/-- A member more. -/
theorem Crew.hire (h : Crew s) (hhandling : Handling s e s'.log) {t : Task} {token : Bool}
    {guards : List Guard} (hlog : s'.log = s.log.join t token)
    (hmembers : s'.members = s.members ++ [⟨s.force.roster.nextTask, s.log.seats.length⟩])
    (htasks : s'.force.roster.tasks =
      s.force.roster.tasks ++ [⟨s.force.roster.nextTask, guards, false⟩])
    (hnext : s'.force.roster.nextTask = s.force.roster.nextTask + 1) : Crew s' := by
  refine ⟨hhandling.queue h.queue, ?_, ?_, ?_, ?_⟩
  · intro i u hu hown
    rw [hmembers]
    rw [hlog] at hu
    rcases task?_join_cases hu with ⟨rfl, -⟩ | hu
    · exact ⟨_, List.mem_append_right _ List.mem_cons_self, rfl⟩
    · obtain ⟨m, hm, hseat⟩ := h.seated i u hu hown
      exact ⟨m, List.mem_append_left _ hm, hseat⟩
  · rw [hmembers, List.map_append]
    refine List.nodup_append.2 ⟨h.once, List.pairwise_singleton .., ?_⟩
    intro x hx y hy hxy
    obtain ⟨m, hm, rfl⟩ := List.mem_map.1 hx
    have hlt := h.known m hm
    rw [hxy, List.mem_singleton.1 hy] at hlt
    exact Nat.lt_irrefl _ hlt
  · rw [hmembers, hnext]
    intro m hm
    rcases List.mem_append.1 hm with hm | hm
    · exact Nat.lt_succ_of_lt (h.known m hm)
    · rw [List.mem_singleton.1 hm]
      exact Nat.lt_succ_self _
  · rw [hmembers]
    intro m hm
    rcases List.mem_append.1 hm with hm | hm
    · rcases h.working m hm with ⟨u, hu, hid, hrunning⟩ | ⟨u, r, hu, hend⟩
      · exact .inl ⟨u, htasks ▸ List.mem_append_left _ hu, hid, hrunning⟩
      · exact .inr ⟨u, r, hlog ▸ task?_join_of_some hu, hend⟩
    · rw [List.mem_singleton.1 hm]
      exact .inl ⟨_, htasks ▸ List.mem_append_right _ List.mem_cons_self, rfl, rfl⟩

/-- A step of the workforce in which no task ends. -/
theorem Employs.move {w w' : Workforce} {step : WorkStep} {m : Member} (h : Employs w m)
    (honce : (w.roster.tasks.map (·.id)).Nodup) (hm : Workforce.Move w step w')
    (hstep : ∀ id, step ≠ .finish id) : Employs w' m := by
  obtain ⟨t, ht, hid, hrunning⟩ := h
  exact ⟨t, (hm.task_stays honce ht hrunning).resolve_right (hstep t.id), hid, hrunning⟩

theorem Crew.afterDrain (h : Crew s) {outcome : Except Failure Unit} {notices : List Notice}
    (hhandling : Handling s e (s.afterDrain outcome notices).log)
    (hjoins : ∀ t token, s.Joins e t token → t.isOwn = false) :
    Crew (s.afterDrain outcome notices) := by
  obtain ⟨-, hmembers, hforce⟩ := s.afterDrain_same outcome notices
  refine h.stay hhandling hmembers hjoins (by rw [hforce]) ?_
  rintro m _ ⟨t, ht, hid, hrunning⟩
  exact .inl ⟨t, hforce ▸ ht, hid, hrunning⟩

/-- **Every move keeps the two sides together.** -/
theorem Crew.move (h : Crew s) (honce : (s.force.roster.tasks.map (·.id)).Nodup) (hm : Move s e s') :
    Crew s' := by
  have hhandling := hm.handling
  have hjoins : (∀ uptime now, e ≠ .begin uptime now) → (∀ peer now, e ≠ .accept peer now) →
      ∀ t token, s.Joins e t token → t.isOwn = false := by
    intro hbegin haccept t token hjoin
    cases hjoin with
    | writer uptime now => exact absurd rfl (hbegin uptime now)
    | session peer now _ => exact absurd rfl (haccept peer now)
    | outsider _ => rfl
    | remover _ _ _ => rfl
  cases hm with
  | begin uptime now _ =>
      unfold Service.begin at hhandling ⊢
      dsimp only at hhandling ⊢
      split
      · rename_i henabled
        rw [if_pos henabled] at hhandling
        exact h.hire hhandling rfl rfl rfl rfl
      · rename_i hdisabled
        exact ⟨h.queue, h.seated, h.once, h.known, h.working⟩
  | log _ _ =>
      exact h.stay hhandling rfl (hjoins (by simp) (by simp)) (Nat.le_refl _) fun _ _ hat => .inl hat
  | call _ =>
      exact h.stay hhandling rfl (hjoins (by simp) (by simp)) (Nat.le_refl _) fun _ _ hat => .inl hat
  | acceptor more _ he hstep hforce =>
      refine h.stay hhandling rfl (hjoins ?_ ?_) hforce.nextTask_le ?_
      · rintro uptime now rfl
        cases he
      · rintro peer now rfl
        cases he
        rcases hstep with hstep | hstep | ⟨cause, hstep⟩ | hstep <;> cases hstep
      · intro m _ hat
        refine .inl (hat.move honce hforce ?_)
        rintro id rfl
        rcases hstep with hstep | hstep | ⟨cause, hstep⟩ | hstep <;> cases hstep
  | accept _ hforce =>
      cases hforce with
      | accept peer now _ _ => exact h.hire hhandling rfl rfl rfl rfl
  | @finish m t result force hm ht hend hforce =>
      obtain ⟨-, hmembers, -, more, hlog⟩ := s.report_same result
      refine h.stay hhandling hmembers (hjoins (by simp) (by simp)) hforce.nextTask_le ?_
      · rintro n hn ⟨u, hu, hid, hrunning⟩
        rcases hforce.task_stays honce hu hrunning with hstays | hends
        · exact .inl ⟨u, hstays, hid, hrunning⟩
        · -- the member that ends is the one whose task this is
          have hmember : n = m := by
            refine List.inj_on_of_nodup_map h.once hn (List.mem_of_find?_eq_some hm) ?_
            rw [← hid]
            exact (WorkStep.finish.inj hends).symm
          rw [hmember]
          exact .inr ⟨t, result, (congrArg (·.task? m.seat) hlog).trans ht, hend⟩
  | retire hforce =>
      refine h.stay hhandling rfl (hjoins (by simp) (by simp)) hforce.nextTask_le ?_
      intro m _ hat
      exact .inl (hat.move honce hforce (by simp))
  | signal =>
      exact h.stay hhandling rfl (hjoins (by simp) (by simp)) (Nat.le_refl _) fun _ _ hat => .inl hat
  | requestStop =>
      exact h.stay hhandling rfl (hjoins (by simp) (by simp)) (Nat.le_refl _) fun _ _ hat => .inl hat
  | @stop reason outcome faults _ _ =>
      have hsame := Workforce.settleOn_same { s.force with roster := s.force.roster.requestStop } .dropped
      refine h.stay hhandling rfl (hjoins (by simp) (by simp)) (Nat.le_of_eq hsame.2.1.symm) ?_
      rintro m _ ⟨t, ht, hid, hrunning⟩
      exact .inl ⟨t, hsame.1 ▸ ht, hid, hrunning⟩
  | drained _ _ => exact h.afterDrain hhandling (hjoins (by simp) (by simp))
  | timedOut _ _ => exact h.afterDrain hhandling (hjoins (by simp) (by simp))
  | removed _ _ =>
      obtain ⟨-, hmembers, hforce⟩ := s.afterRemoval_same _ _
      refine h.stay hhandling hmembers (hjoins (by simp) (by simp)) (by rw [hforce]) ?_
      rintro m _ ⟨t, ht, hid, hrunning⟩
      exact .inl ⟨t, hforce ▸ ht, hid, hrunning⟩

/-- When no tracked task is left, every task of the service's own has come to its end. -/
theorem Crew.ended_of_gone (h : Crew s) (hgone : s.force.roster.tasks = []) {i : Nat} {t : Task}
    (ht : s.log.task? i = some t) (hown : t.isOwn = true) : ∃ r, ending? t = some r := by
  obtain ⟨m, hm, rfl⟩ := h.seated i t ht hown
  rcases h.working m hm with ⟨u, hu, -⟩ | ⟨u, r, hu, hend⟩
  · rw [hgone] at hu
    cases hu
  · cases ht.symm.trans hu
    exact ⟨r, hend⟩

/-- When no tracked task is left, only somebody from outside or the coordinator can hold the lock. -/
theorem Crew.holder_of_gone (h : Crew s) (hgone : s.force.roster.tasks = []) {i : Nat} {w : Work}
    (hw : s.log.holder = some (i, w)) : ∃ c, s.log.task? i = some (.caller c) := by
  obtain ⟨request, hrequest, -⟩ := h.queue.holder i w hw
  obtain ⟨t, ht, hrequest⟩ := Option.bind_eq_some_iff.1 hrequest
  cases t with
  | caller c => exact ⟨c, ht⟩
  | _ =>
      obtain ⟨r, hend⟩ := h.ended_of_gone hgone ht rfl
      rw [(rests_of_ending hend).request] at hrequest
      cases hrequest

theorem crew_start {settings : Settings} {directory : Location} {disk : Disk}
    (hstart : ofListener settings directory disk = .started s₀) : Crew s₀ := by
  obtain ⟨store, fresh, roster, -, -, rfl⟩ := eq_of_started hstart
  exact ⟨queue_start fresh store [], by simp [task?], List.nodup_nil, by simp, by simp⟩

/-- What is kept of everybody who works for a service. -/
structure Staff (slots : Nat) (es : List ServiceEvent) (s : Service) : Prop where
  booked : Booked slots es s
  tokens : Tokens s
  crew : Crew s

theorem Staff.move {slots : Nat} (h : Staff slots es s) (hm : Move s e s') :
    Staff slots (es ++ [e]) s' := by
  obtain ⟨first, hbooks⟩ := h.booked.books
  exact ⟨h.booked.move hm, h.tokens.move hm, h.crew.move hbooks.workers.once hm⟩

/-- **Every run keeps it.** -/
theorem staff_of_run {settings : Settings} {directory : Location} {disk : Disk}
    (hstart : ofListener settings directory disk = .started s₀) (hrun : s₀.run? es = some s) :
    Staff settings.server.maxConnections es s := by
  have hstaff := run_moves (P := fun a s => Staff settings.server.maxConnections a.events s)
    (a := {}) (fun h hm => h.move hm)
    ⟨booked_start hstart, tokens_start hstart, crew_start hstart⟩ hrun
  rwa [show (s₀.annalsFrom {} es).events = es from annals_events hrun] at hstaff

end Service

end EchoLog
