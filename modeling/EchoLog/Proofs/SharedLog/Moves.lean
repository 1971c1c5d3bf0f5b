import EchoLog.SharedLog.Basic
/-!
# The moves of a shared log

`SharedLog.step?` says when an event can happen and what it does.  `Move` says the same as a relation
with one constructor for each way in which the parts of the state take part: a task that moves by
itself (`Task.Own`), the lock, the file, the token of a task, another process.  Every step is one of
these moves (`move_of_step?`), and what the theory says of runs it proves by cases on them.
-/

namespace EchoLog

/-- The moves a task makes by itself: it neither holds the lock nor waits for it, and gets nothing from
the store.  `cancelled` says whether its token has fired. -/
inductive Task.Own (i : Nat) (cancelled : Bool) : Event → Task → Task → Prop where
  | poll {s : Session} : (Task.session s).canLeave = true → s.polling = false → cancelled = false →
      Task.Own i cancelled (.poll i) (.session s) (.session s.poll)
  | receive {s : Session} {input : Except IoError Bytes} :
      s.stage = .receiving → (cancelled = true → s.polling = true) → SharedLog.fits s input = true →
      Task.Own i cancelled (.receive i input) (.session s) (.session (s.receive input))
  | frame {s : Session} : s.stage = .framing →
      Task.Own i cancelled (.frame i) (.session s) (.session s.frame)
  | send {s : Session} {left : Bytes} {result : Except IoError Nat} :
      s.stage = .echoing left → (cancelled = true → s.polling = true) →
      Task.Own i cancelled (.send i result) (.session s) (.session (s.sent left result))
  | flush {s : Session} {result : Except IoError Unit} : s.stage = .flushing →
      (cancelled = true → s.polling = true) →
      Task.Own i cancelled (.flush i result) (.session s) (.session (s.flushed result))
  | leave {t : Task} : t.canLeave = true → cancelled = true →
      Task.Own i cancelled (.leave i) t t.leave
  | tick {w : Timestamp.Writer} {now : Nat} {time : LocalTime} :
      w.stage = .waiting → w.ticker.due ≤ now →
      Task.Own i cancelled (.tick i now time) (.writer w) (.writer (w.tick now time))

/-- A task that waits for its peer or for the next tick asks nothing of the store. -/
theorem Task.request?_of_canLeave {t : Task} (h : t.canLeave = true) : t.request? = none := by
  cases t with
  | session s => cases hs : s.stage <;> simp_all [Task.canLeave, Task.request?]
  | writer w => cases hs : w.stage <;> simp_all [Task.canLeave, Task.request?]
  | caller c => cases h

/-- A session that waits for its peer has not come to its end. -/
theorem Session.result?_of_canLeave {s : Session} (h : (Task.session s).canLeave = true) :
    s.result? = none := by
  cases hs : s.stage <;> simp_all [Task.canLeave, Session.result?]

/-- A task that moves by itself asks nothing of the store at that moment. -/
theorem Task.Own.request?_eq_none {i : Nat} {cancelled : Bool} {e : Event} {t t' : Task}
    (h : Task.Own i cancelled e t t') : t.request? = none := by
  cases h with
  | poll hwaits => exact Task.request?_of_canLeave hwaits
  | receive hstage => simp only [Task.request?, hstage]
  | frame hstage => simp only [Task.request?, hstage]
  | send hstage => simp only [Task.request?, hstage]
  | flush hstage => simp only [Task.request?, hstage]
  | leave hleave => exact Task.request?_of_canLeave hleave
  | tick hstage => simp only [Task.request?, hstage]

/-- The task that moves by itself in an event. -/
def Event.place? : Event → Option Nat
  | .poll i => some i
  | .receive i _ => some i
  | .frame i => some i
  | .send i _ => some i
  | .flush i _ => some i
  | .leave i => some i
  | .tick i _ _ => some i
  | _ => none

theorem Task.Own.place? {i : Nat} {cancelled : Bool} {e : Event} {t t' : Task}
    (h : Task.Own i cancelled e t t') : e.place? = some i := by
  cases h <;> rfl

namespace SharedLog

variable {g g' : SharedLog} {i j : Nat} {t t' : Task} {e : Event}

/-- What the task at a place asks of the store. -/
def request? (g : SharedLog) (i : Nat) : Option Request :=
  (g.task? i).bind Task.request?

theorem session?_eq_some {s : Session} : g.session? i = some s ↔ g.task? i = some (.session s) := by
  unfold session?
  split <;> simp_all

theorem writer?_eq_some {w : Timestamp.Writer} :
    g.writer? i = some w ↔ g.task? i = some (.writer w) := by
  unfold writer?
  split <;> simp_all

theorem task?_setTask_self (h : g.task? i = some t) : (g.setTask i t').task? i = some t' := by
  simp only [task?, setTask, List.getElem?_modify_eq, Option.map_eq_map, Option.map_map,
    Option.map_eq_some_iff] at h ⊢
  obtain ⟨seat, hseat, -⟩ := h
  exact ⟨seat, hseat, rfl⟩

theorem task?_setTask_other (h : j ≠ i) : (g.setTask i t').task? j = g.task? j := by
  simp only [task?, setTask, List.getElem?_modify_ne _ _ (Ne.symm h)]

/-- After a task was put in the place of another, a task is that one or was there before. -/
theorem task?_setTask_cases {u : Task} (ht : g.task? i = some t)
    (hu : (g.setTask i t').task? j = some u) : (i = j ∧ u = t') ∨ (i ≠ j ∧ g.task? j = some u) := by
  by_cases hij : i = j
  · subst hij
    rw [task?_setTask_self ht] at hu
    exact .inl ⟨rfl, (Option.some.inj hu).symm⟩
  · rw [task?_setTask_other (Ne.symm hij)] at hu
    exact .inr ⟨hij, hu⟩

/-- No place is emptied. -/
theorem task?_setTask_eq_none (ht : g.task? i = some t) (hj : (g.setTask i t').task? j = none) :
    i ≠ j ∧ g.task? j = none := by
  have hij : i ≠ j := by
    rintro rfl
    rw [task?_setTask_self ht] at hj
    cases hj
  rw [task?_setTask_other (Ne.symm hij)] at hj
  exact ⟨hij, hj⟩

/-- One task holds the lock, and no other. -/
theorem holder_ne_of_ne {w : Work} (hw : g.holder = some (i, w)) (hij : i ≠ j) (v : Work) :
    g.holder ≠ some (j, v) := by
  rw [hw]
  rintro ⟨⟩
  exact hij rfl

theorem holder_ne_of_free (hw : g.holder = none) (v : Work) : g.holder ≠ some (j, v) := by
  rw [hw]
  simp

/-- A change by another process leaves the holder its work, but for what happens to the file it has open. -/
theorem holder_changed {c : Change} {w : Work} (hw : (g.changed c).holder = some (i, w)) :
    ∃ v, g.holder = some (i, v) ∧ w = v.withHandle (·.keep g.disk (c.apply g.disk g.store.path)) := by
  obtain ⟨⟨j, v⟩, hv, hsame⟩ := Option.map_eq_some_iff.1 hw
  obtain ⟨rfl, rfl⟩ := Prod.mk.inj hsame
  exact ⟨v, hv, rfl⟩

/-- Some notices more. -/
def report (g : SharedLog) (more : List Notice) : SharedLog :=
  { g with notices := g.notices ++ more }

theorem task?_report_self (h : g.task? i = some t) (more : List Notice) :
    ((g.setTask i t').report more).task? i = some t' :=
  task?_setTask_self h

/-- Every way in which the parts of a shared log take part in a step. -/
inductive Move (g : SharedLog) : Event → SharedLog → Prop where
  | own {i : Nat} {e : Event} {t t' : Task} (more : List Notice) : g.task? i = some t →
      Task.Own i (g.isCancelled i) e t t' →
      Move g e ((g.setTask i t').report more)
  | ask {i : Nat} {r : Request} : g.request? i = some r → g.isQueued i = false →
      Move g (.ask i) { g with waiting := g.waiting ++ [(i, r)] }
  | grant {i : Nat} {r : Request} {rest : List (Nat × Request)} :
      g.holder = none → g.waiting = (i, r) :: rest →
      Move g .grant { g with holder := some (i, .ofRequest g.store r), waiting := rest }
  | file {i : Nat} {w : Work} {fault : Option Fault} :
      g.holder = some (i, w) → w.answer? = none →
      Move g (.file fault)
        { g with holder := some (i, (w.step fault g.store g.disk).work)
                 store := (w.step fault g.store g.disk).store
                 disk := (w.step fault g.store g.disk).disk
                 notices := g.notices ++ (w.step fault g.store g.disk).notices }
  | release {i : Nat} {answer : Answer} {t : Task} :
      g.holder = some (i, .finished answer) → g.task? i = some t →
      Move g .release { g.setTask i (t.answered answer) with holder := none }
  | fire {i : Nat} : i < g.seats.length →
      Move g (.fire i)
        { g with seats := g.seats.modify i fun seat => { seat with cancelled := true } }
  | outside (change : Change) : Move g (.outside change) (g.changed change)

theorem canTurn_iff {s : Session} :
    g.canTurn i s = true ↔ (g.isCancelled i = true → s.polling = true) := by
  rw [canTurn]
  cases s.polling <;> cases g.isCancelled i <;> decide

theorem canTurn_of_free (s : Session) (hfree : g.isCancelled i = false) : g.canTurn i s = true := by
  rw [canTurn, hfree, Bool.not_false, Bool.or_true]

theorem own_of_withSession {f : Session → Option Session}
    (h : g.withSession i f = some g') :
    ∃ s s', g.task? i = some (.session s) ∧ f s = some s' ∧ g' = g.setTask i (.session s') := by
  simp only [withSession, Option.bind_eq_some_iff, Option.map_eq_some_iff] at h
  obtain ⟨s, hs, s', hf, rfl⟩ := h
  exact ⟨s, s', session?_eq_some.1 hs, hf, rfl⟩

/-- A move of one task that reports nothing. -/
theorem Move.own_quiet (ht : g.task? i = some t) (h : Task.Own i (g.isCancelled i) e t t') :
    Move g e (g.setTask i t') := by
  have hmove := Move.own [] ht h
  rwa [report, List.append_nil] at hmove

/-- **Every step is a move.** -/
theorem move_of_step? (h : g.step? e = some g') : Move g e g' := by
  cases e with
  | poll i =>
      obtain ⟨s, s', hs, hf, rfl⟩ := own_of_withSession h
      split at hf
      · rename_i hlooks
        simp only [Bool.and_eq_true, Bool.not_eq_true'] at hlooks
        obtain ⟨⟨hwaits, hnot⟩, hfree⟩ := hlooks
        cases hf
        exact .own_quiet hs (.poll hwaits hnot hfree)
      · cases hf
  | receive i input =>
      simp only [step?, bind, Option.bind_eq_some_iff] at h
      obtain ⟨s, hs, h⟩ := h
      split at h
      · rename_i hstage
        split at h
        · cases h
        · rename_i hopen
          simp only [Bool.or_eq_true, Bool.not_eq_true', not_or, Bool.not_eq_false] at hopen
          cases h
          exact .own _ (session?_eq_some.1 hs) (.receive hstage (canTurn_iff.1 hopen.1) hopen.2)
      · cases h
  | frame i =>
      obtain ⟨s, s', hs, hf, rfl⟩ := own_of_withSession h
      split at hf
      · rename_i hstage
        cases hf
        exact .own_quiet hs (.frame hstage)
      · cases hf
  | ask i =>
      simp only [step?, bind, Option.bind_eq_some_iff] at h
      obtain ⟨t, ht, r, hr, h⟩ := h
      split at h
      · cases h
      · rename_i hqueued
        cases h
        exact .ask (by rw [request?, ht]; exact hr) (Bool.not_eq_true _ ▸ hqueued)
  | grant =>
      simp only [step?] at h
      split at h
      · rename_i hholder hwaiting
        cases h
        exact .grant hholder hwaiting
      · cases h
  | file fault =>
      simp only [step?] at h
      split at h
      · cases h
      · rename_i i w hholder
        split at h
        · cases h
        · rename_i hmore
          cases h
          exact .file hholder hmore
  | release =>
      simp only [step?, bind, Option.bind_eq_some_iff] at h
      obtain ⟨⟨i, w⟩, hholder, answer, hw, t, ht, h⟩ := h
      cases w <;> cases hw
      cases h
      exact .release hholder ht
  | send i result =>
      obtain ⟨s, s', hs, hf, rfl⟩ := own_of_withSession h
      split at hf
      · rename_i left hstage
        obtain ⟨hturn, hf⟩ := Option.ite_none_right_eq_some.1 hf
        cases hf
        exact .own_quiet hs (.send hstage (canTurn_iff.1 hturn))
      · cases hf
  | flush i result =>
      obtain ⟨s, s', hs, hf, rfl⟩ := own_of_withSession h
      split at hf
      · rename_i hstage
        obtain ⟨hturn, hf⟩ := Option.ite_none_right_eq_some.1 hf
        cases hf
        exact .own_quiet hs (.flush hstage (canTurn_iff.1 hturn))
      · cases hf
  | fire i =>
      simp only [step?] at h
      split at h
      · rename_i hi
        cases h
        exact .fire hi
      · cases h
  | leave i =>
      simp only [step?, bind, Option.bind_eq_some_iff] at h
      obtain ⟨t, ht, h⟩ := h
      split at h
      · rename_i hleave
        rw [Bool.and_eq_true] at hleave
        cases h
        exact .own_quiet ht (.leave hleave.2 hleave.1)
      · cases h
  | tick i now time =>
      simp only [step?, bind, Option.bind_eq_some_iff] at h
      obtain ⟨w, hw, h⟩ := h
      split at h
      · rename_i hstage
        split at h
        · rename_i hdue
          cases h
          exact .own_quiet (writer?_eq_some.1 hw) (.tick hstage hdue)
        · cases h
      · cases h
  | outside change =>
      cases h
      exact .outside change

/-! ## What a task can do -/

theorem session?_setTask {s s' : Session} (hs : g.session? i = some s) :
    (g.setTask i (.session s')).session? i = some s' :=
  session?_eq_some.2 (task?_setTask_self (session?_eq_some.1 hs))

/-- A task that asks for something can join the queue, once. -/
theorem step?_ask {r : Request} (hr : g.request? i = some r) (hqueued : g.isQueued i = false) :
    g.step? (.ask i) = some { g with waiting := g.waiting ++ [(i, r)] } := by
  obtain ⟨t, ht, hreq⟩ := Option.bind_eq_some_iff.1 hr
  simp only [step?, ht, bind, Option.bind_some, hreq, hqueued]
  rfl

section Session

variable {s : Session} (hs : g.session? i = some s)

include hs

theorem request?_of_storing {packet : Bytes} (hstage : s.stage = .storing packet) :
    g.request? i = some (.echo packet) := by
  rw [request?, session?_eq_some.1 hs, Option.bind_some, Task.request?, hstage]

/-- A session that waits for bytes can read as many as it asks for. -/
theorem step?_receive (hstage : s.stage = .receiving) (hfree : g.isCancelled i = false)
    {input : Except IoError Bytes} (hfits : fits s input = true) :
    ∃ g', g.step? (.receive i input) = some g' := by
  simp only [step?, hs, bind, Option.bind_some, hstage, canTurn_of_free s hfree, hfits]
  exact ⟨_, rfl⟩

theorem step?_frame (hstage : s.stage = .framing) :
    g.step? (.frame i) = some (g.setTask i (.session s.frame)) := by
  simp only [step?, withSession, hs, Option.bind_some, hstage, Option.map_some]

/-- A session that sends can get any result, as long as its token has not fired. -/
theorem step?_send {left : Bytes} (hstage : s.stage = .echoing left) (hfree : g.isCancelled i = false)
    (result : Except IoError Nat) :
    g.step? (.send i result) = some (g.setTask i (.session (s.sent left result))) := by
  simp only [step?, withSession, hs, Option.bind_some, hstage, canTurn_of_free s hfree, if_true,
    Option.map_some]

theorem step?_flush (hstage : s.stage = .flushing) (hfree : g.isCancelled i = false)
    (result : Except IoError Unit) :
    g.step? (.flush i result) = some (g.setTask i (.session (s.flushed result))) := by
  simp only [step?, withSession, hs, Option.bind_some, hstage, canTurn_of_free s hfree, if_true,
    Option.map_some]

/-- A session in a wait that its token can end can leave once that has fired. -/
theorem step?_leave (hfired : g.isCancelled i = true) (hleave : (Task.session s).canLeave = true) :
    g.step? (.leave i) = some (g.setTask i (.session s.leave)) := by
  simp only [step?, session?_eq_some.1 hs, bind, Option.bind_some, hfired, hleave, Bool.and_self, if_true]
  rfl

end Session

/-! ## Runs -/

/-- A run may be made in two parts. -/
theorem run?_append (g : SharedLog) (es more : List Event) :
    g.run? (es ++ more) = (g.run? es).bind fun g => g.run? more := by
  induction es generalizing g with
  | nil => rfl
  | cons e es ih =>
      rw [List.cons_append, run?, run?, Option.bind_assoc]
      exact congrArg _ (funext ih)

/-- What every move of a kind keeps, a run of that kind keeps. -/
theorem run_while {P : SharedLog → Prop} {Q : Event → Prop}
    (hmove : ∀ {g g' : SharedLog} {e : Event}, P g → Q e → Move g e g' → P g') (h : P g)
    {es : List Event} (hes : ∀ e ∈ es, Q e) (hrun : g.run? es = some g') : P g' := by
  induction es generalizing g with
  | nil =>
      cases hrun
      exact h
  | cons e es ih =>
      obtain ⟨g₁, he, hrest⟩ := Option.bind_eq_some_iff.1 hrun
      obtain ⟨hfirst, hes⟩ := List.forall_mem_cons.1 hes
      exact ih (hmove h hfirst (move_of_step? he)) hes hrest

/-- **What every move keeps, every run keeps.** -/
theorem run_states {P : SharedLog → Prop}
    (hmove : ∀ {g g' : SharedLog} {e : Event}, P g → Move g e g' → P g') (h : P g) {es : List Event}
    (hrun : g.run? es = some g') : P g' :=
  run_while (Q := fun _ => True) (fun h _ hm => hmove h hm) h (fun _ _ => trivial) hrun

/-! ## Tokens -/

theorem isCancelled_setTask (g : SharedLog) (i : Nat) (t : Task) (j : Nat) :
    (g.setTask i t).isCancelled j = g.isCancelled j := by
  simp only [isCancelled, setTask, List.getElem?_modify]
  cases g.seats[j]? with
  | none => rfl
  | some seat => by_cases hij : i = j <;> simp [hij]

/-- Only a token that fires changes a token. -/
theorem Move.isCancelled_eq (hm : Move g e g') (hfire : ∀ k, e ≠ .fire k) (i : Nat) :
    g'.isCancelled i = g.isCancelled i := by
  cases hm with
  | own _ _ _ => exact isCancelled_setTask g _ _ i
  | ask => rfl
  | grant => rfl
  | file => rfl
  | release => exact isCancelled_setTask g _ _ i
  | fire => exact absurd rfl (hfire _)
  | outside => rfl

/-- **No move takes a token back.** -/
theorem Move.isCancelled (hm : Move g e g') (h : g.isCancelled i = true) :
    g'.isCancelled i = true := by
  by_cases hfire : ∃ k, e = .fire k
  · obtain ⟨k, rfl⟩ := hfire
    cases hm with
    | fire =>
        rw [SharedLog.isCancelled, Option.any_eq_true] at h ⊢
        obtain ⟨seat, hseat, hfired⟩ := h
        rw [List.getElem?_modify, hseat]
        by_cases hki : k = i
        · refine ⟨{ seat with cancelled := true }, ?_, rfl⟩
          simp only [hki, if_true, Option.map_eq_map, Option.map_some]
        · exact ⟨seat, by simp only [hki, if_false, Option.map_eq_map, Option.map_some], hfired⟩
    | own _ _ hown => cases hown
  · rw [hm.isCancelled_eq fun k hk => hfire ⟨k, hk⟩]
    exact h

end SharedLog

end EchoLog
