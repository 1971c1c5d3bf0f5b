import EchoLog.Proofs.Service.Moves
/-!
# The way of the coordinator

The coordinator begins, waits for a reason to stop, stops everybody, waits for the tasks, has the log
removed if it is to be, and returns.  It never goes back (`Move.phase_le`), so a run that has returned can be
told from its beginning to its end in one way: `Course` gives the event that stops everybody, the event that
ends the waiting, and the states in which they happen, and `exists_course` says that there is one.

From the stop on nothing begins any more (`Move.isEarly_eq_false`).
-/

namespace EchoLog

/-- How far the coordinator has come. -/
def Coordinator.phase : Coordinator → Nat
  | .idle => 0
  | .selecting => 1
  | .draining _ => 2
  | .removing _ _ => 3
  | .returned _ => 4

/-- What the service returns when the removal has its answer. -/
def settled (outcome : Except Failure Unit) : Answer → Except Failure Unit
  | .ok _ => outcome
  | .error f =>
    match outcome with
    | .ok _ => .error f
    | .error first => .error first

theorem settled_error_ne_ok (outcome : Except Failure Unit) (f : Failure) :
    settled outcome (.error f) ≠ .ok () := by
  cases outcome <;> simp [settled]

/-- Whether an event can happen only before everybody is stopped. -/
def ServiceEvent.isEarly : ServiceEvent → Bool
  | .begin _ _ => true
  | .look => true
  | .takeSlot => true
  | .accept _ _ => true
  | .acceptFails _ => true
  | .stopAccepting => true
  | .stop _ => true
  | _ => false

/-- Whether an event ends the waiting for the tasks. -/
def ServiceEvent.isEnd : ServiceEvent → Bool
  | .drained => true
  | .timedOut => true
  | _ => false

namespace Service

variable {s s' s₀ : Service} {e : ServiceEvent} {es : List ServiceEvent} {r : Except Failure Unit}

/-! ## Steps of the coordinator -/

/-- The waiting for the tasks is over: they are gone, or the time is. -/
inductive Over (s : Service) : ServiceEvent → Prop where
  | drained : s.force.roster.isDrained = true → Over s .drained
  | timedOut : s.force.roster.isDrained = false → Over s .timedOut

/-- What a step of a service comes to for its coordinator. -/
inductive Steers (s : Service) : ServiceEvent → Coordinator → Prop where
  | stays {e : ServiceEvent} : (e.isEarly = true → s.coordinator = .selecting) → e.isEnd = false →
      Steers s e s.coordinator
  | begins (uptime now : Nat) : s.coordinator = .idle → Steers s (.begin uptime now) .selecting
  | stops {reason : Reason} {outcome : Except Failure Unit} {faults : List Failure} :
      s.coordinator = .selecting → s.outcome? reason = some (outcome, faults) →
      Steers s (.stop reason) (.draining outcome)
  | removes {e : ServiceEvent} {outcome : Except Failure Unit} : s.coordinator = .draining outcome →
      s.Over e → s.settings.storage.removeOnShutdown = true →
      Steers s e (.removing outcome s.log.seats.length)
  | returns {e : ServiceEvent} {outcome : Except Failure Unit} : s.coordinator = .draining outcome →
      s.Over e → s.settings.storage.removeOnShutdown = false → Steers s e (.returned outcome)
  | answered {outcome : Except Failure Unit} {seat : Nat} {answer : Answer} :
      s.coordinator = .removing outcome seat → s.answerAt? seat = some answer →
      Steers s .removed (.returned (settled outcome answer))

theorem steers_afterDrain {outcome : Except Failure Unit} (hdraining : s.coordinator = .draining outcome)
    (hover : s.Over e) (notices : List Notice) :
    Steers s e (s.afterDrain outcome notices).coordinator := by
  unfold afterDrain
  dsimp only
  split
  · rename_i hremove
    exact .removes hdraining hover hremove
  · rename_i hkeep
    exact .returns hdraining hover (Bool.not_eq_true _ ▸ hkeep)

/-- **What a move comes to for the coordinator.** -/
theorem Move.steers (h : Move s e s') : Steers s e s'.coordinator := by
  cases h with
  | begin uptime now hidle =>
      unfold Service.begin
      dsimp only
      split <;> exact .begins uptime now hidle
  | log _ _ => exact .stays (by simp [ServiceEvent.isEarly]) rfl
  | call _ => exact .stays (by simp [ServiceEvent.isEarly]) rfl
  | acceptor _ hselecting he _ _ =>
      refine .stays (fun _ => hselecting) ?_
      cases e <;> first | rfl | cases he
  | accept hselecting _ => exact .stays (fun _ => hselecting) rfl
  | finish _ _ _ _ =>
      rw [(s.report_same _).2.2.1]
      exact .stays (by simp [ServiceEvent.isEarly]) rfl
  | retire _ => exact .stays (by simp [ServiceEvent.isEarly]) rfl
  | signal => exact .stays (by simp [ServiceEvent.isEarly]) rfl
  | requestStop => exact .stays (by simp [ServiceEvent.isEarly]) rfl
  | stop hselecting hreason => exact .stops hselecting hreason
  | drained hdraining hgone => exact steers_afterDrain hdraining (.drained hgone) _
  | timedOut hdraining hleft => exact steers_afterDrain hdraining (.timedOut hleft) _
  | @removed outcome seat answer hremoving hanswer =>
      have hsteers := Steers.answered hremoving hanswer
      cases answer with
      | ok _ => exact hsteers
      | error f => cases outcome <;> exact hsteers

/-- **The coordinator never goes back.** -/
theorem Move.phase_le (h : Move s e s') : s.coordinator.phase ≤ s'.coordinator.phase := by
  have hsteers := h.steers
  generalize s'.coordinator = c at hsteers
  cases hsteers with
  | stays _ _ => exact Nat.le_refl _
  | begins _ _ hidle => rw [hidle]; exact Nat.zero_le _
  | stops hselecting _ => rw [hselecting]; exact Nat.le_succ _
  | removes hdraining _ _ => rw [hdraining]; exact Nat.le_succ _
  | returns hdraining _ _ => rw [hdraining]; exact Nat.le_add_right 2 2
  | answered hremoving _ => rw [hremoving]; exact Nat.le_succ _

/-- Only a stop ends the waiting for a reason. -/
theorem Move.of_stop (h : Move s e s') (hbefore : ¬ 2 ≤ s.coordinator.phase)
    (hafter : 2 ≤ s'.coordinator.phase) : ∃ reason outcome faults, e = .stop reason ∧
      s.coordinator = .selecting ∧ s.outcome? reason = some (outcome, faults) ∧
      s' = s.stop outcome faults := by
  have hsteers := h.steers
  generalize hc : s'.coordinator = c at hsteers
  rw [hc] at hafter
  cases hsteers with
  | stays _ _ => exact absurd hafter hbefore
  | begins _ _ _ => exact absurd hafter (by simp [Coordinator.phase])
  | stops _ _ =>
      cases h with
      | acceptor _ _ he _ _ => cases he
      | stop hselecting hreason => exact ⟨_, _, _, rfl, hselecting, hreason, rfl⟩
  | removes hdraining _ _ => exact absurd (by simp [hdraining, Coordinator.phase]) hbefore
  | returns hdraining _ _ => exact absurd (by simp [hdraining, Coordinator.phase]) hbefore
  | answered hremoving _ => exact absurd (by simp [hremoving, Coordinator.phase]) hbefore

/-- Only the end of the waiting leads past it. -/
theorem Move.of_over (h : Move s e s') (hbefore : ¬ 3 ≤ s.coordinator.phase)
    (hafter : 3 ≤ s'.coordinator.phase) : s.Over e := by
  have hsteers := h.steers
  generalize s'.coordinator = c at hsteers hafter
  cases hsteers with
  | stays _ _ => exact absurd hafter hbefore
  | begins _ _ _ => exact absurd hafter (by simp [Coordinator.phase])
  | stops _ _ => exact absurd hafter (by simp [Coordinator.phase])
  | removes _ hover _ => exact hover
  | returns _ hover _ => exact hover
  | answered hremoving _ => exact absurd (by simp [hremoving, Coordinator.phase]) hbefore

/-- The end of the waiting leads past it. -/
theorem Move.of_isEnd (h : Move s e s') (hend : e.isEnd = true) :
    ¬ 3 ≤ s.coordinator.phase ∧ 3 ≤ s'.coordinator.phase := by
  have hsteers := h.steers
  generalize s'.coordinator = c at hsteers
  cases hsteers with
  | stays _ hnot => exact absurd (hnot.symm.trans hend) (by simp)
  | begins _ _ _ => cases hend
  | stops _ _ => cases hend
  | removes hdraining _ _ => exact ⟨by simp [hdraining, Coordinator.phase], Nat.le_refl 3⟩
  | returns hdraining _ _ => exact ⟨by simp [hdraining, Coordinator.phase], Nat.le_succ 3⟩
  | answered _ _ => cases hend

section Phases

variable {outcome : Except Failure Unit} {seat : Nat}

theorem Move.of_draining (h : Move s e s') (hc : s.coordinator = .draining outcome) :
    (e.isEnd = false ∧ s'.coordinator = .draining outcome) ∨ (s.Over e ∧ s'.coordinator =
      if s.settings.storage.removeOnShutdown then .removing outcome s.log.seats.length
      else .returned outcome) := by
  have hsteers := h.steers
  generalize s'.coordinator = c at hsteers
  cases hsteers with
  | stays _ hend => exact .inl ⟨hend, hc⟩
  | begins _ _ hidle => cases hidle.symm.trans hc
  | stops hselecting _ => cases hselecting.symm.trans hc
  | removes hdraining hover hremove =>
      cases hdraining.symm.trans hc
      exact .inr ⟨hover, by rw [if_pos hremove]⟩
  | returns hdraining hover hkeep =>
      cases hdraining.symm.trans hc
      exact .inr ⟨hover, by rw [hkeep, if_neg (by simp)]⟩
  | answered hremoving _ => cases hremoving.symm.trans hc

theorem Move.of_removing (h : Move s e s') (hc : s.coordinator = .removing outcome seat) :
    s'.coordinator = .removing outcome seat ∨ (e = .removed ∧ ∃ answer,
      s.answerAt? seat = some answer ∧ s'.coordinator = .returned (settled outcome answer)) := by
  have hsteers := h.steers
  generalize s'.coordinator = c at hsteers
  cases hsteers with
  | stays _ _ => exact .inl hc
  | begins _ _ hidle => cases hidle.symm.trans hc
  | stops hselecting _ => cases hselecting.symm.trans hc
  | removes hdraining _ _ => cases hdraining.symm.trans hc
  | returns hdraining _ _ => cases hdraining.symm.trans hc
  | answered hremoving hanswer =>
      cases hremoving.symm.trans hc
      exact .inr ⟨rfl, _, hanswer, rfl⟩

/-- What was returned is returned for good. -/
theorem Move.of_returned (h : Move s e s') (hc : s.coordinator = .returned outcome) :
    s'.coordinator = .returned outcome := by
  have hsteers := h.steers
  generalize s'.coordinator = c at hsteers
  cases hsteers with
  | stays _ _ => exact hc
  | begins _ _ hidle => cases hidle.symm.trans hc
  | stops hselecting _ => cases hselecting.symm.trans hc
  | removes hdraining _ _ => cases hdraining.symm.trans hc
  | returns hdraining _ _ => cases hdraining.symm.trans hc
  | answered hremoving _ => cases hremoving.symm.trans hc

end Phases

/-! ## Its course -/

/-- What comes to be true in a run comes to be true in one of its steps. -/
theorem exists_crossing {P : Service → Prop} (hrun : s₀.run? es = some s) (h₀ : ¬ P s₀) (h : P s) :
    ∃ before e after u u', es = before ++ e :: after ∧ s₀.run? before = some u ∧ ¬ P u ∧
      u.step? e = some u' ∧ P u' ∧ u'.run? after = some s := by
  induction es generalizing s₀ with
  | nil =>
      cases hrun
      exact absurd h h₀
  | cons e es ih =>
      obtain ⟨u, hu, hrest⟩ := Option.bind_eq_some_iff.1 hrun
      by_cases hP : P u
      · exact ⟨[], e, es, s₀, u, rfl, rfl, h₀, hu, hP, hrest⟩
      · obtain ⟨before, e', after, v, v', rfl, hbefore, hv, hstep, hv', hafter⟩ := ih hrest hP
        refine ⟨e :: before, e', after, v, v', rfl, ?_, hv, hstep, hv', hafter⟩
        rw [run?, hu]
        exact hbefore

/-- The course of a run that stops everybody and comes to the end of the waiting. -/
structure Course (s₀ s : Service) where
  before : List ServiceEvent
  /-- The reason for which the coordinator stops everybody. -/
  reason : Reason
  /-- What happens while it waits for the tasks. -/
  waiting : List ServiceEvent
  /-- The event that ends the waiting. -/
  last : ServiceEvent
  after : List ServiceEvent
  /-- The state in which it stops everybody. -/
  atStop : Service
  outcome : Except Failure Unit
  faults : List Failure
  /-- The state in which the waiting ends. -/
  atEnd : Service
  /-- The state right after it. -/
  left : Service
  reaches : s₀.run? before = some atStop
  selects : atStop.coordinator = .selecting
  chooses : atStop.outcome? reason = some (outcome, faults)
  waits : (atStop.stop outcome faults).run? waiting = some atEnd
  drains : atEnd.coordinator = .draining outcome
  waited : atEnd.Over last
  ends : atEnd.step? last = some left
  leaves : left.run? after = some s

/-- The events up to the end of the waiting. -/
def Course.prior (c : Course s₀ s) : List ServiceEvent :=
  c.before ++ .stop c.reason :: c.waiting

/-- The events of a course. -/
def Course.events (c : Course s₀ s) : List ServiceEvent :=
  c.prior ++ c.last :: c.after

/-- While the coordinator waits for the tasks, it knows with what it will return. -/
theorem draining_of_run {outcome : Except Failure Unit} (hc : s₀.coordinator = .draining outcome)
    (hrun : s₀.run? es = some s) :
    s.coordinator = .draining outcome ∨ 3 ≤ s.coordinator.phase := by
  refine run_states (P := fun s => s.coordinator = .draining outcome ∨ 3 ≤ s.coordinator.phase) ?_
    (.inl hc) hrun
  rintro s s' e (hc | hlate) hm
  · rcases hm.of_draining hc with ⟨-, hstays⟩ | ⟨-, hnext⟩
    · exact .inl hstays
    · rw [hnext]
      split
      · exact .inr (Nat.le_refl 3)
      · exact .inr (Nat.le_succ 3)
  · exact .inr (Nat.le_trans hlate hm.phase_le)

/-- **A run that has returned has a course.** -/
theorem exists_course (hstart : s₀.coordinator.phase ≤ 1) (hrun : s₀.run? es = some s)
    (hresult : s.result? = some r) : ∃ c : Course s₀ s, c.events = es := by
  have hreturned : s.coordinator.phase = 4 := by
    unfold result? at hresult
    split at hresult
    · rename_i hc
      rw [hc]
      rfl
    · cases hresult
  obtain ⟨before, stop, later, u, u', rfl, hbefore, hu, hstep, hu', hlater⟩ :=
    exists_crossing (P := fun s => 2 ≤ s.coordinator.phase) hrun (by omega) (by omega)
  obtain ⟨reason, outcome, faults, rfl, hselecting, hreason, rfl⟩ :=
    (move_of_step? hstep).of_stop hu hu'
  have hdraining : ¬ 3 ≤ (u.stop outcome faults).coordinator.phase := Nat.lt_irrefl 2
  obtain ⟨waiting, last, after, v, v', rfl, hwaiting, hv, hend, hv', hafter⟩ :=
    exists_crossing (P := fun s => 3 ≤ s.coordinator.phase) hlater hdraining (by omega)
  have hover := (move_of_step? hend).of_over hv hv'
  have hdrains := (draining_of_run rfl hwaiting).resolve_right hv
  exact ⟨⟨before, reason, waiting, last, after, u, outcome, faults, v, v', hbefore, hselecting, hreason,
    hwaiting, hdrains, hover, hend, hafter⟩, by simp [Course.events, Course.prior]⟩

/-- Up to the end of the waiting. -/
theorem Course.reaches_end (c : Course s₀ s) : s₀.run? c.prior = some c.atEnd := by
  have hstop : c.atStop.step? (.stop c.reason) = some (c.atStop.stop c.outcome c.faults) := by
    rw [step?, c.selects]
    dsimp only
    rw [c.chooses]
    rfl
  rw [prior, run?_append, c.reaches, Option.bind_some, run?, hstop]
  exact c.waits

/-- From the stop to the end. -/
theorem Course.late (c : Course s₀ s) :
    (c.atStop.stop c.outcome c.faults).run? (c.waiting ++ c.last :: c.after) = some s := by
  rw [run?_append, c.waits, Option.bind_some, run?, c.ends]
  exact c.leaves

/-! ## After the stop -/

/-- Nothing begins after the stop. -/
theorem Move.isEarly_eq_false (h : Move s e s') (hlate : 2 ≤ s.coordinator.phase) :
    e.isEarly = false := by
  have hsteers := h.steers
  generalize s'.coordinator = c at hsteers
  cases hsteers with
  | stays hearly _ =>
      refine Bool.eq_false_iff.2 fun he => ?_
      rw [hearly he] at hlate
      exact absurd hlate (by simp [Coordinator.phase])
  | begins _ _ hidle =>
      rw [hidle] at hlate
      exact absurd hlate (by simp [Coordinator.phase])
  | stops hselecting _ =>
      rw [hselecting] at hlate
      exact absurd hlate (by simp [Coordinator.phase])
  | removes _ hover _ => cases hover <;> rfl
  | returns _ hover _ => cases hover <;> rfl
  | answered _ _ => rfl

end Service

end EchoLog
