import EchoLog.Proofs.SharedLog.File
/-!
# The logs that sessions get back

For each append that was committed for a session it gets back one log, in the same order, and it is the
log as it stood right after that very commit: nobody else has the lock between the commit and the
reading (`Echoed`).  The last of them may still be on its way, and is lost if it cannot be read.
-/

namespace EchoLog

namespace Task

/-- Whether a task is a session. -/
def isSession (t : Task) : Bool :=
  match t.kind with
  | .session _ _ => true
  | _ => false

theorem isSession_own {i : Nat} {cancelled : Bool} {e : Event} {t t' : Task}
    (h : Own i cancelled e t t') : t'.isSession = t.isSession := by
  rw [isSession, isSession, kind_own h]

theorem isSession_answered (t : Task) (answer : Answer) :
    (t.answered answer).isSession = t.isSession := by
  rw [isSession, isSession, kind_answered]

/-- A session asks for an append with an echo, if it asks for anything. -/
theorem request?_session {t : Task} {r : Request} (h : t.request? = some r)
    (hs : t.isSession = true) : ∃ bytes, r = .echo bytes := by
  cases t with
  | session s =>
      cases hstage : s.stage <;> simp_all [request?]
      exact ⟨_, h.symm⟩
  | _ => cases hs

end Task

/-- Work for an echo that goes on without a failure is in its write phase or past it. -/
theorem Work.Serves.echo_cases {w : Work} {bytes : Bytes} (h : w.Serves (.echo bytes))
    (hok : w.isFailing = false) (hmore : w.answer? = none) :
    (∃ b, w.bytes? = some b) ∨ w = .reading := by
  cases w with
  | reading => exact .inr rfl
  | cutting file cause => cases hok
  | unlinking => cases h
  | finished answer => cases hmore
  | _ => exact .inl ⟨_, rfl⟩

/-- The logs noted with the commits for a task. -/
def Chronicle.logs (c : Chronicle) (i : Nat) : List Bytes :=
  (share i c.commits).map (·.log)

/-- The log noted with the commit of a file step, if there is one, is the content right after it. -/
theorem Chronicle.logs_file {g g' : SharedLog} {i : Nat} {w w' : Work} (c : Chronicle)
    (fault : Option Fault) (hw : g.holder = some (i, w)) (hw' : g'.holder = some (i, w')) :
    (c.note g (.file fault) g').logs i = c.logs i ++ (w.commits w' g'.content).map (·.log) ∧
      ∀ j, i ≠ j → (c.note g (.file fault) g').logs j = c.logs j := by
  have hall : ∀ j, (c.note g (.file fault) g').logs j =
      c.logs j ++ (share j ((w.commits w' g'.content).map (i, ·))).map (·.log) := by
    intro j
    simp only [Chronicle.logs, Chronicle.note, hw, hw', SharedLog.committed, share_append,
      List.map_append]
  refine ⟨?_, ?_⟩
  · rw [hall i, share_self]
  · intro j hij
    rw [hall j, share_other hij, List.map_nil, List.append_nil]

namespace SharedLog

variable {g g' : SharedLog} {c c' : Chronicle} {e : Event} {i j : Nat} {t : Task}

/-- The log that a task is about to get after its commit: one or none. -/
def due (g : SharedLog) (c : Chronicle) (i : Nat) : List Bytes :=
  if g.hasLanded i then [wholeLog c.commits] else []

theorem due_of_not_landed (h : g.hasLanded i = false) : g.due c i = [] := by
  rw [due, h, if_neg (by simp)]

theorem due_of_landed (h : g.hasLanded i = true) : g.due c i = [wholeLog c.commits] :=
  if_pos h

/-- The logs that sessions got back are those right after their commits. -/
def Echoed (g : SharedLog) (c : Chronicle) : Prop :=
  ∀ i t, g.task? i = some t → t.isSession = true →
    ∃ rest, c.logs i = share i c.returned ++ rest ∧ (g.Refused i ∨ rest = g.due c i)

/-- A session for which nothing new is noted. -/
theorem Echoed.same (h : g.Echoed c) (ht : g.task? i = some t) (hs : t.isSession = true)
    (hrefused : g.Refused i → g'.Refused i) (hdue : g'.due c' i = g.due c i)
    (hlogs : c'.logs i = c.logs i) (hreturned : share i c'.returned = share i c.returned) :
    ∃ rest, c'.logs i = share i c'.returned ++ rest ∧ (g'.Refused i ∨ rest = g'.due c' i) := by
  obtain ⟨rest, hrest, hor⟩ := h i t ht hs
  rw [hlogs, hreturned, hdue]
  exact ⟨rest, hrest, hor.imp_left hrefused⟩

theorem Echoed.own {t' : Task} (h : g.Echoed c) (hq : g.Queue) (ht : g.task? i = some t)
    (hown : Task.Own i (g.isCancelled i) e t t') (hw : g'.holder = g.holder)
    (hself : g'.task? i = some t') (hother : ∀ j, i ≠ j → g'.task? j = g.task? j) :
    g'.Echoed (c.note g e g') := by
  rw [Chronicle.note_own hown hself]
  have hlanded : ∀ j, g'.hasLanded j = g.hasLanded j := fun j => by rw [hasLanded, hasLanded, hw]
  have hdue : ∀ j, g'.due c j = g.due c j := fun j => by rw [due, due, hlanded]
  intro j u hu hs
  by_cases hij : i = j
  · subst hij
    cases hself.symm.trans hu
    refine h.same ht (Task.isSession_own hown ▸ hs) ?_ (hdue i) rfl rfl
    intro hrefused
    exact absurd hrefused (not_refused_of_own hq ht hown)
  · rw [hother j hij] at hu
    exact h.same hu hs (sameFor_of_holder (hother j hij) hw).refused (hdue j) rfl rfl

theorem Echoed.file {w : Work} {fault : Option Fault} (h : g.Echoed c) (hq : g.Queue)
    (hrecord : g'.Recorded (c.note g (.file fault) g'))
    (hw : g.holder = some (i, w)) (hmore : w.answer? = none)
    (hw' : g'.holder = some (i, (w.step fault g.store g.disk).work))
    (htask : ∀ j, g'.task? j = g.task? j) : g'.Echoed (c.note g (.file fault) g') := by
  generalize hstep : (w.step fault g.store g.disk).work = w' at hw'
  have hcourse := Work.step_course fault g.store g.disk hmore
  rw [hstep] at hcourse
  obtain ⟨hlogs, hother⟩ := c.logs_file fault hw hw'
  intro j t ht hs
  rw [htask] at ht
  by_cases hij : i = j
  · subst hij
    obtain ⟨r, hr, hserves⟩ := hq.holder _ _ hw
    rw [request?, ht, Option.bind_some] at hr
    obtain ⟨bytes, rfl⟩ := Task.request?_session hr hs
    obtain ⟨rest, hrest, hor⟩ := h i t ht hs
    rw [show share i (c.note g (.file fault) g').returned = share i c.returned from rfl, hlogs, hrest]
    by_cases hfail : w'.isFailing = true
    · rw [Work.commits, Work.landing_of_not_isPast (Work.isPast_eq_false hfail), List.map_nil,
        List.map_nil, List.append_nil]
      exact ⟨rest, rfl, .inl (.inl ⟨_, hw', hfail⟩)⟩
    · have hnot : w.isFailing = false → ¬ g.Refused i := not_refused_of_holder hw ht hr
      rcases hcourse.resolve_left hfail with ⟨hpast, hok⟩ | ⟨b, hb, hb'⟩
      · have hcontent : g'.content = wholeLog (c.note g (.file fault) g').commits := by
          have hfile := hrecord.file
          rw [hw'] at hfile
          rw [content, hfile.content? hpast]
          rfl
        have hlanded' : g'.hasLanded i = true := (hasLanded_of_holder hw').trans hpast
        rw [hor.resolve_left (hnot hok)]
        refine ⟨[wholeLog (c.note g (.file fault) g').commits], ?_, .inr (due_of_landed hlanded').symm⟩
        rcases hserves.echo_cases hok hmore with ⟨b, hb⟩ | rfl
        · -- The append is committed now.
          have hlanded : g.hasLanded i = false :=
            (hasLanded_of_holder hw).trans (Work.isWriting_of_bytes? hb).2.1
          rw [due_of_not_landed hlanded, List.append_nil, Work.commits, Work.landing_of_isPast hpast, hb,
            hcontent]
          rfl
        · -- It was committed before, and is read back now.
          have hsame : (c.note g (.file fault) g').commits = c.commits := by
            simp only [Chronicle.note, hw, hw', committed, Work.commits, Work.landing_of_isPast hpast,
              Work.bytes?, Option.toList_none, List.map_nil, List.append_nil]
          rw [due_of_landed (hasLanded_of_holder hw), hsame, Work.commits, Work.landing_of_isPast hpast]
          exact List.append_nil _
      · obtain ⟨-, hpast, hok⟩ := Work.isWriting_of_bytes? hb
        obtain ⟨-, hpast', -⟩ := Work.isWriting_of_bytes? hb'
        rw [hor.resolve_left (hnot hok), due_of_not_landed ((hasLanded_of_holder hw).trans hpast),
          Work.commits, Work.landing_of_not_isPast hpast', List.map_nil, List.map_nil, List.append_nil]
        exact ⟨[], rfl, .inr (due_of_not_landed ((hasLanded_of_holder hw').trans hpast')).symm⟩
  · have hfree := holder_ne_of_ne hw hij
    have hfree' := holder_ne_of_ne hw' hij
    refine h.same ht hs (sameFor_of_holder_ne (htask j) hfree hfree').refused ?_ (hother j hij) rfl
    rw [due_of_not_landed (hasLanded_of_holder_ne hfree'),
      due_of_not_landed (hasLanded_of_holder_ne hfree)]

theorem Echoed.release {answer : Answer} (h : g.Echoed c) (hq : g.Queue) (hrecord : g.Recorded c)
    (hw : g.holder = some (i, .finished answer)) (ht : g.task? i = some t) (hw' : g'.holder = none)
    (hself : g'.task? i = some (t.answered answer))
    (hother : ∀ j, i ≠ j → g'.task? j = g.task? j) : g'.Echoed (c.note g .release g') := by
  have hdue' : ∀ j, g'.due (c.note g .release g') j = [] := fun j =>
    due_of_not_landed (hasLanded_of_holder_ne (holder_ne_of_free hw'))
  have hreturned : (c.note g .release g').returned = c.returned ++ g.reply := rfl
  intro j u hu hs
  by_cases hij : i = j
  · subst hij
    cases hself.symm.trans hu
    rw [Task.isSession_answered] at hs
    obtain ⟨r, hr, hserves⟩ := hq.holder _ _ hw
    rw [request?, ht, Option.bind_some] at hr
    obtain ⟨bytes, rfl⟩ := Task.request?_session hr hs
    obtain ⟨rest, hrest, hor⟩ := h i t ht hs
    rw [show (c.note g .release g').logs i = c.logs i from rfl, hreturned, share_append, hrest, hdue']
    cases answer with
    | error f =>
        obtain ⟨cause, rfl⟩ := hserves
        refine ⟨rest, ?_, .inl (.inr ⟨_, hself, Task.wasRefused_answered_error t cause⟩)⟩
        rw [show g.reply = [] by simp only [reply, hw], share_nil, List.append_nil]
    | ok answer =>
        obtain ⟨log, rfl⟩ := hserves
        have hnot : ¬ g.Refused i := not_refused_of_holder hw ht hr rfl
        have hlog : log = wholeLog c.commits := by
          have hfile := hrecord.file
          rw [hw] at hfile
          cases hfile with
          | writing hphase => cases hphase
          | finished hfile hans => exact hans log rfl
        refine ⟨[], ?_, .inr rfl⟩
        rw [hor.resolve_left hnot, due_of_landed (hasLanded_of_holder hw), List.append_nil, ← hlog,
          show g.reply = [log].map (i, ·) by simp only [reply, hw, List.map_singleton], share_self]
  · have hfree := holder_ne_of_ne hw hij
    have hsame := sameFor_of_holder_ne (hother j hij) hfree (holder_ne_of_free hw')
    rw [hother j hij] at hu
    refine h.same hu hs hsame.refused ?_ rfl ?_
    · rw [hdue', due_of_not_landed (hasLanded_of_holder_ne hfree)]
    · rw [hreturned, share_append]
      refine (congrArg _ ?_).trans (List.append_nil _)
      rw [reply, hw]
      split
      · rename_i k log e
        cases e
        exact share_other hij [log]
      · rfl

theorem Echoed.grant {r : Request} (h : g.Echoed c) (hnone : g.holder = none)
    (hr : g.request? i = some r) (hw' : g'.holder = some (i, .ofRequest g.store r))
    (htask : ∀ j, g'.task? j = g.task? j) : g'.Echoed c := by
  intro j t ht hs
  rw [htask] at ht
  refine h.same ht hs (sameFor_grant hnone hr hw' htask j).refused ?_ rfl rfl
  rw [due_of_not_landed (hasLanded_of_holder_ne (holder_ne_of_free hnone))]
  refine due_of_not_landed ?_
  by_cases hij : i = j
  · subst hij
    rw [request?, ht, Option.bind_some] at hr
    obtain ⟨bytes, rfl⟩ := Task.request?_session hr hs
    exact hasLanded_of_holder hw'
  · exact hasLanded_of_holder_ne (holder_ne_of_ne hw' hij)

/-- **Every move but a change from outside and a failed rollback keeps this.** -/
theorem Echoed.move (h : g.Echoed c) (hq : g.Queue) (hrecord : g.Recorded c)
    (hrecord' : g'.Recorded (c.note g e g')) (hkind : g.isUndisturbed e = true) (hm : Move g e g') :
    g'.Echoed (c.note g e g') := by
  cases hm with
  | own more ht hown =>
      exact h.own hq ht hown rfl (task?_setTask_self ht) fun j hij =>
        task?_setTask_other (Ne.symm hij)
  | ask hr hqueued => exact fun j t ht hs => h.same ht hs id rfl rfl rfl
  | @grant i r rest hnone hw =>
      have hr := hq.waiting (i, r) (by rw [hw]; exact List.mem_cons_self)
      exact h.grant hnone hr rfl fun _ => rfl
  | file hw hmore => exact h.file hq hrecord' hw hmore rfl fun _ => rfl
  | release hw ht =>
      exact h.release hq hrecord hw ht rfl (task?_setTask_self ht) fun j hij =>
        task?_setTask_other (Ne.symm hij)
  | fire hi =>
      intro j t ht hs
      rw [task?_fire] at ht
      exact h.same ht hs (sameFor_of_holder (task?_fire g _ j) rfl).refused rfl rfl rfl
  | outside change => cases hkind

end SharedLog

end EchoLog
