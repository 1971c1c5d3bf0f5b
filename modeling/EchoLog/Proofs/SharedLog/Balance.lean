import EchoLog.Proofs.SharedLog.Accounts
/-!
# What is ready and what is committed

A task has one packet or record ready at a time, and goes on only when the store has answered.  So what
a task ever had ready is what was committed for it, in the same order, and after that at most the one
append that it is still owed (`Balanced`).  Only a task that the store has refused something may leave
more behind.  This too is kept by every move (`Balanced.move`), with faults and with other
processes: it is only about which appends the store took, not about what the file holds.
-/

namespace EchoLog

namespace Task

/-- Whether the store has refused a task something. -/
def wasRefused : Task → Bool
  | .session s =>
    match s.stage with
    | .ended (.error (.storage _)) => true
    | _ => false
  | .writer w =>
    match w.stage with
    | .ended (.error (.storage _)) => true
    | _ => false
  | .caller c =>
    match c.answer with
    | some (.error _) => true
    | _ => false

theorem wasRefused_of_request? {t : Task} {r : Request} (h : t.request? = some r) :
    t.wasRefused = false := by
  cases t with
  | session s => cases hs : s.stage <;> simp_all [request?, wasRefused]
  | writer w => cases hs : w.stage <;> simp_all [request?, wasRefused]
  | caller c => cases hc : c.answer <;> simp_all [request?, wasRefused]

theorem wasRefused_of_canLeave {t : Task} (h : t.canLeave = true) : t.wasRefused = false := by
  cases t with
  | session s => cases hs : s.stage <;> simp_all [canLeave, wasRefused]
  | writer w => cases hs : w.stage <;> simp_all [canLeave, wasRefused]
  | caller c => cases h

theorem Own.wasRefused_before {i : Nat} {cancelled : Bool} {e : Event} {t t' : Task}
    (h : Own i cancelled e t t') : t.wasRefused = false := by
  cases h with
  | poll hwaits => exact wasRefused_of_canLeave hwaits
  | receive hstage => simp only [wasRefused, hstage]
  | frame hstage => simp only [wasRefused, hstage]
  | send hstage => simp only [wasRefused, hstage]
  | flush hstage => simp only [wasRefused, hstage]
  | leave hleave => exact wasRefused_of_canLeave hleave
  | tick hstage => simp only [wasRefused, hstage]

theorem wasRefused_echo (s : Session) (left : Bytes) :
    (session (s.echo left)).wasRefused = false := by
  simp only [Session.echo, wasRefused]
  cases left.isEmpty <;> rfl

/-- A task that moves by itself is not refused anything by the store. -/
theorem Own.wasRefused_after {i : Nat} {cancelled : Bool} {e : Event} {t t' : Task}
    (h : Own i cancelled e t t') : t'.wasRefused = false := by
  cases h with
  | @poll s hwaits => exact wasRefused_of_canLeave (t := .session s) hwaits
  | @receive s input =>
      rcases input with _ | bytes
      · rfl
      · cases bytes <;> rfl
  | @frame s =>
      simp only [Session.frame, wasRefused]
      cases (s.framer.look s.held).cut <;> rfl
  | @send s left result =>
      rcases result with _ | n
      · rfl
      · cases n with
        | zero => rfl
        | succ n => exact wasRefused_echo s (left.drop (n + 1))
  | @flush s result => cases result <;> rfl
  | leave hleave =>
      cases t with
      | session s => rfl
      | writer w => rfl
      | caller c => cases hleave
  | @tick w now time =>
      simp only [Timestamp.Writer.tick, wasRefused]
      cases Timestamp.record? time w.format <;> rfl

theorem wasRefused_answered_error (t : Task) (cause : IoError) :
    (t.answered (.error (.storage cause))).wasRefused = true := by
  cases t <;> rfl

theorem wasRefused_answered_ok (t : Task) (reply : Reply) :
    (t.answered (.ok reply)).wasRefused = false := by
  cases t with
  | session s => cases reply <;> exact wasRefused_echo ..
  | writer w => cases reply <;> rfl
  | caller c => rfl

end Task

namespace SharedLog

variable {g g' : SharedLog} {c : Chronicle} {e : Event} {i j : Nat}

/-- Whether a task holds the lock and its append, if it has one, is committed. -/
def hasLanded (g : SharedLog) (i : Nat) : Bool :=
  g.holder.any fun (j, w) => j == i && w.isPast

/-- The append that a task has ready and that is not committed: one or none. -/
def owed (g : SharedLog) (i : Nat) : List Bytes :=
  if g.hasLanded i then [] else ((g.request? i).bind Request.bytes?).toList

/-- The store refuses a task something, or has done so. -/
def Refused (g : SharedLog) (i : Nat) : Prop :=
  (∃ w, g.holder = some (i, w) ∧ w.isFailing = true) ∨
    ∃ t, g.task? i = some t ∧ t.wasRefused = true

end SharedLog

/-- The bytes that were committed for a task. -/
def Chronicle.landed (c : Chronicle) (i : Nat) : List Bytes :=
  (share i c.commits).map (·.bytes)

/-- A file step commits what the holder's work lands, and that is the holder's. -/
theorem Chronicle.landed_file {g g' : SharedLog} {i : Nat} {w w' : Work} (c : Chronicle)
    (fault : Option Fault) (hw : g.holder = some (i, w)) (hw' : g'.holder = some (i, w')) :
    (c.note g (.file fault) g').landed i = c.landed i ++ w.landing w' ∧
      ∀ j, i ≠ j → (c.note g (.file fault) g').landed j = c.landed j := by
  have hall : ∀ j, (c.note g (.file fault) g').landed j =
      c.landed j ++ (share j ((w.commits w' g'.content).map (i, ·))).map (·.bytes) := by
    intro j
    simp only [Chronicle.landed, Chronicle.note, hw, hw', SharedLog.committed, share_append,
      List.map_append]
  refine ⟨?_, ?_⟩
  · rw [hall i, share_self, Work.bytes_commits]
  · intro j hij
    rw [hall j, share_other hij, List.map_nil, List.append_nil]

namespace SharedLog

variable {g g' : SharedLog} {c c' : Chronicle} {e : Event} {i j : Nat}

/-- What a task had ready was committed, up to what it is owed. -/
def Balanced (g : SharedLog) (c : Chronicle) : Prop :=
  ∀ i, ∃ rest, share i c.offered = c.landed i ++ rest ∧ (g.Refused i ∨ rest = g.owed i)

/-! ## What a task is owed -/

theorem owed_of_request?_none (h : g.request? i = none) : g.owed i = [] := by
  rw [owed, h]
  cases g.hasLanded i <;> rfl

theorem hasLanded_of_holder_ne (h : ∀ w, g.holder ≠ some (i, w)) : g.hasLanded i = false := by
  rw [hasLanded, Option.any_eq_false]
  rintro ⟨j, w⟩ hw
  rw [Bool.and_eq_false_iff, beq_eq_false_iff_ne]
  refine .inl ?_
  rintro rfl
  exact h w hw

theorem hasLanded_of_holder {w : Work} (h : g.holder = some (i, w)) : g.hasLanded i = w.isPast := by
  rw [hasLanded, h, Option.any_some]
  simp only [beq_self_eq_true, Bool.true_and]

theorem not_refused {t : Task} (ht : g.task? i = some t) (hrefused : t.wasRefused = false)
    (hholder : ∀ w, g.holder = some (i, w) → w.isFailing = false) : ¬ g.Refused i := by
  rintro (⟨w, hw, hfail⟩ | ⟨u, hu, hu'⟩)
  · rw [hholder w hw] at hfail
    cases hfail
  · cases ht.symm.trans hu
    rw [hrefused] at hu'
    cases hu'

theorem not_refused_of_own {t t' : Task} (hq : g.Queue) (ht : g.task? i = some t)
    (hown : Task.Own i (g.isCancelled i) e t t') : ¬ g.Refused i :=
  not_refused ht hown.wasRefused_before fun _ hw => absurd rfl (hq.holder_ne_of_own ht hown hw)

theorem not_refused_of_holder {t : Task} {r : Request} {w : Work} (hw : g.holder = some (i, w))
    (ht : g.task? i = some t) (hr : t.request? = some r) (hok : w.isFailing = false) :
    ¬ g.Refused i := by
  refine not_refused ht (Task.wasRefused_of_request? hr) ?_
  intro v hv
  cases hw.symm.trans hv
  exact hok

/-- A task that is owed what it was, and has stopped if it had. -/
structure SameFor (i : Nat) (g g' : SharedLog) : Prop where
  owed : g'.owed i = g.owed i
  refused : g.Refused i → g'.Refused i

/-- A task that stands the same, and of which nothing new is noted, is owed what it was. -/
theorem Balanced.same (h : g.Balanced c) (hsame : SameFor i g g')
    (hoffered : share i c'.offered = share i c.offered) (hlanded : c'.landed i = c.landed i) :
    ∃ rest, share i c'.offered = c'.landed i ++ rest ∧ (g'.Refused i ∨ rest = g'.owed i) := by
  obtain ⟨rest, hrest, hdue⟩ := h i
  rw [hoffered, hlanded, hsame.owed]
  exact ⟨rest, hrest, hdue.imp_left hsame.refused⟩

theorem sameFor_of_task (htask : g'.task? i = g.task? i) (hpast : g'.hasLanded i = g.hasLanded i)
    (hfailing : ∀ w, g.holder = some (i, w) → w.isFailing = true →
      ∃ w', g'.holder = some (i, w') ∧ w'.isFailing = true) : SameFor i g g' := by
  refine ⟨by rw [owed, owed, hpast, request?, request?, htask], ?_⟩
  rintro (⟨w, hw, hfail⟩ | hrefused)
  · exact .inl (hfailing w hw hfail)
  · rw [Refused, htask]
    exact .inr hrefused

theorem sameFor_of_holder (htask : g'.task? i = g.task? i) (hholder : g'.holder = g.holder) :
    SameFor i g g' :=
  sameFor_of_task htask (by rw [hasLanded, hasLanded, hholder])
    fun w hw hfail => ⟨w, hholder.trans hw, hfail⟩

/-- A task that does not hold the lock, before or after. -/
theorem sameFor_of_holder_ne (htask : g'.task? i = g.task? i) (h : ∀ w, g.holder ≠ some (i, w))
    (h' : ∀ w, g'.holder ≠ some (i, w)) : SameFor i g g' :=
  sameFor_of_task htask ((hasLanded_of_holder_ne h').trans (hasLanded_of_holder_ne h).symm)
    fun w hw => absurd hw (h w)

/-! ## One move -/

/-- Work for a request that takes no bytes is past its write phase, fails, or removes the log. -/
theorem owed_of_holder {r : Request} {w : Work} (hw : g.holder = some (i, w))
    (hr : g.request? i = some r) (hs : w.Serves r) (hfail : w.isFailing = false) :
    g.owed i = w.bytes?.toList := by
  rw [owed, hasLanded_of_holder hw, hr, Option.bind_some]
  cases w with
  | opening bytes echo => rw [show r = .write bytes echo from hs, Request.bytes?_write]; rfl
  | writing file bytes echo => rw [show r = .write bytes echo from hs, Request.bytes?_write]; rfl
  | flushing file bytes echo => rw [show r = .write bytes echo from hs, Request.bytes?_write]; rfl
  | syncing file bytes echo => rw [show r = .write bytes echo from hs, Request.bytes?_write]; rfl
  | cutting file cause => cases hfail
  | reading => rfl
  | unlinking => rw [show r = .remove from hs]; rfl
  | finished answer =>
      cases answer with
      | error f => cases hfail
      | ok reply => rfl

theorem Balanced.file {w : Work} {fault : Option Fault} (h : g.Balanced c) (hq : g.Queue)
    (hw : g.holder = some (i, w)) (hmore : w.answer? = none)
    (hw' : g'.holder = some (i, (w.step fault g.store g.disk).work))
    (htask : ∀ j, g'.task? j = g.task? j) : g'.Balanced (c.note g (.file fault) g') := by
  generalize hstep : (w.step fault g.store g.disk).work = w' at hw'
  have hcourse := Work.step_course fault g.store g.disk hmore
  rw [hstep] at hcourse
  obtain ⟨hlanded, hother⟩ := c.landed_file fault hw hw'
  intro j
  by_cases hij : i = j
  · subst hij
    obtain ⟨r, hr, hs⟩ := hq.holder _ _ hw
    obtain ⟨t, ht, hreq⟩ := Option.bind_eq_some_iff.1 hr
    have hr' : g'.request? i = some r := by rw [request?, htask]; exact hr
    obtain ⟨rest, hrest, hdue⟩ := h i
    rw [show share i (c.note g (.file fault) g').offered = share i c.offered from rfl, hrest, hlanded]
    by_cases hfail : w'.isFailing = true
    · -- The request fails, and nothing is committed.
      rw [Work.landing_of_not_isPast (Work.isPast_eq_false hfail), List.append_nil]
      exact ⟨rest, rfl, .inl (.inl ⟨_, hw', hfail⟩)⟩
    · rcases hcourse.resolve_left hfail with ⟨hpast, hok⟩ | ⟨bytes, hb, hb'⟩
      · -- What was owed is committed now.
        rw [hdue.resolve_left (not_refused_of_holder hw ht hreq hok), owed_of_holder hw hr hs hok,
          Work.landing_of_isPast hpast]
        refine ⟨[], (List.append_nil _).symm, .inr ?_⟩
        rw [owed, hasLanded_of_holder hw', hpast, if_pos rfl]
      · -- The write phase goes on.
        obtain ⟨-, hpast, hok⟩ := Work.isWriting_of_bytes? hb
        obtain ⟨-, hpast', hok'⟩ := Work.isWriting_of_bytes? hb'
        have hsame : SameFor i g g' := by
          refine sameFor_of_task (htask i) ?_ ?_
          · rw [hasLanded_of_holder hw, hasLanded_of_holder hw', hpast, hpast']
          · intro v hv hfail
            cases hw.symm.trans hv
            rw [hok] at hfail
            cases hfail
        rw [Work.landing_of_not_isPast hpast', List.append_nil, hsame.owed]
        exact ⟨rest, rfl, hdue.imp_left hsame.refused⟩
  · have hsame := sameFor_of_holder_ne (htask j) (holder_ne_of_ne hw hij) (holder_ne_of_ne hw' hij)
    exact h.same hsame rfl (hother j hij)

theorem Balanced.release {answer : Answer} {t : Task} (h : g.Balanced c) (hq : g.Queue)
    (hw : g.holder = some (i, .finished answer)) (ht : g.task? i = some t) (hw' : g'.holder = none)
    (hself : g'.task? i = some (t.answered answer))
    (hother : ∀ j, i ≠ j → g'.task? j = g.task? j) : g'.Balanced (c.note g .release g') := by
  intro j
  by_cases hij : i = j
  · subst hij
    obtain ⟨r, hr, hs⟩ := hq.holder _ _ hw
    obtain ⟨rest, hrest, hdue⟩ := h i
    refine ⟨rest, hrest, ?_⟩
    cases answer with
    | error f =>
        obtain ⟨cause, rfl⟩ : ∃ cause, f = .storage cause := by cases r <;> exact hs
        exact .inl (.inr ⟨_, hself, Task.wasRefused_answered_error t cause⟩)
    | ok reply =>
        have hnot : ¬ g.Refused i := by
          rw [request?, ht] at hr
          exact not_refused_of_holder hw ht hr rfl
        have hready : ((g'.request? i).bind Request.bytes?).toList = [] := by
          rw [request?, hself]
          exact Task.ready_answered t _
        rw [hdue.resolve_left hnot, owed_of_holder hw hr hs rfl, owed, hready]
        exact .inr (by cases g'.hasLanded i <;> rfl)
  · have hsame := sameFor_of_holder_ne (hother j hij) (holder_ne_of_ne hw hij) (holder_ne_of_free hw')
    exact h.same hsame rfl rfl

theorem Balanced.own {t t' : Task} (h : g.Balanced c) (hq : g.Queue) (ht : g.task? i = some t)
    (hown : Task.Own i (g.isCancelled i) e t t') (hw : g'.holder = g.holder)
    (hself : g'.task? i = some t') (hother : ∀ j, i ≠ j → g'.task? j = g.task? j) :
    g'.Balanced (c.note g e g') := by
  rw [Chronicle.note_own hown hself]
  intro j
  by_cases hij : i = j
  · subst hij
    obtain ⟨rest, hrest, hdue⟩ := h i
    have hfree : ∀ w, g.holder ≠ some (i, w) := fun w e => hq.holder_ne_of_own ht hown e rfl
    have hnot := not_refused_of_own hq ht hown
    have hnone : g.request? i = none := by
      rw [request?, ht]
      exact hown.request?_eq_none
    rw [hdue.resolve_left hnot, owed_of_request?_none hnone, List.append_nil] at hrest
    rw [share_append, share_self, hrest]
    refine ⟨t'.ready, rfl, .inr ?_⟩
    rw [owed, hasLanded_of_holder_ne (by rw [hw]; exact hfree), request?, hself]
    rfl
  · refine h.same (sameFor_of_holder (hother j hij) hw) ?_ rfl
    rw [share_append, share_other hij, List.append_nil]

/-- The lock going to the first that waits changes nothing for anybody. -/
theorem sameFor_grant {r : Request} (hnone : g.holder = none) (hr : g.request? i = some r)
    (hw' : g'.holder = some (i, .ofRequest g.store r)) (htask : ∀ j, g'.task? j = g.task? j)
    (j : Nat) : SameFor j g g' := by
  by_cases hij : i = j
  · subst hij
    refine ⟨?_, ?_⟩
    · rw [owed, owed, hasLanded_of_holder hw', hasLanded_of_holder_ne (holder_ne_of_free hnone),
        request?, htask i, ← request?, hr]
      cases r <;> rfl
    · rintro (⟨w, hw, -⟩ | hrefused)
      · exact absurd hw (holder_ne_of_free hnone w)
      · rw [Refused, htask i]
        exact .inr hrefused
  · exact sameFor_of_holder_ne (htask j) (holder_ne_of_free hnone) (holder_ne_of_ne hw' hij)

/-- Another handle to the file changes nothing for anybody. -/
theorem sameFor_withHandle {f : Handle → Handle}
    (hw' : g'.holder = g.holder.map fun (i, w) => (i, w.withHandle f))
    (htask : ∀ j, g'.task? j = g.task? j) (j : Nat) : SameFor j g g' := by
  refine sameFor_of_task (htask j) ?_ ?_
  · rw [hasLanded, hasLanded, hw', Option.any_map]
    congr 1
    funext p
    exact congrArg (p.1 == j && ·) (Work.isPast_withHandle f p.2)
  · intro w hw hfail
    rw [hw', hw]
    exact ⟨_, rfl, (Work.isFailing_withHandle f w).trans hfail⟩

/-- **Every move keeps the balance.** -/
theorem Balanced.move (h : g.Balanced c) (hq : g.Queue) (hm : Move g e g') :
    g'.Balanced (c.note g e g') := by
  cases hm with
  | own more ht hown =>
      exact h.own hq ht hown rfl (task?_setTask_self ht) fun j hij =>
        task?_setTask_other (Ne.symm hij)
  | ask hr hqueued => exact fun j => h.same (sameFor_of_holder rfl rfl) rfl rfl
  | @grant i r rest hnone hw =>
      have hr := hq.waiting (i, r) (by rw [hw]; exact List.mem_cons_self)
      intro j
      refine h.same (sameFor_grant hnone hr ?_ ?_ j) rfl rfl
      · rfl
      · exact fun _ => rfl
  | file hw hmore => exact h.file hq hw hmore rfl fun _ => rfl
  | release hw ht =>
      exact h.release hq hw ht rfl (task?_setTask_self ht) fun j hij =>
        task?_setTask_other (Ne.symm hij)
  | fire hi => exact fun j => h.same (sameFor_of_holder (task?_fire g _ j) rfl) rfl rfl
  | outside change =>
      intro j
      refine h.same (sameFor_withHandle
        (f := (·.keep g.disk (change.apply g.disk g.store.path))) ?_ ?_ j) rfl rfl
      · rfl
      · exact fun _ => rfl

end SharedLog

end EchoLog
