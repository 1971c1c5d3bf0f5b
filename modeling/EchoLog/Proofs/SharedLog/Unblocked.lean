import EchoLog.Proofs.SharedLog.Linear
import EchoLog.Proofs.SharedLog.Turns
/-!
# A peer that stalls holds nobody up

A session waits for its peer, and the timestamp writer for its next tick, without the lock
(`Queue.isQueued_of_elsewhere`).  So whoever has the lock is at a file step, and what that step does and
whether it can be taken is settled by the store and the disk alone: no task and no peer has a say in it
(`step?_file_seats`).

A task that has joined the queue is therefore served by the lock alone.  Until then only those hold the
lock that were ahead of it when it joined (`SharedLog.ahead`), and at most eight steps of the lock pass for
each of them and for the task itself.  `Queue.waits_or_served` says so of every run, and
`Queue.exists_service` that steps of the lock are all it takes.
-/

namespace EchoLog

/-- The waits in which a task does not want the log: for bytes of its peer, for room at its peer, for its
peer's side to flush, and for the next tick. -/
inductive Task.Elsewhere : Task → Prop where
  | receiving {s : Session} : s.stage = .receiving → Task.Elsewhere (.session s)
  | sending {s : Session} {left : Bytes} : s.stage = .echoing left → Task.Elsewhere (.session s)
  | flushing {s : Session} : s.stage = .flushing → Task.Elsewhere (.session s)
  | ticking {w : Timestamp.Writer} : w.stage = .waiting → Task.Elsewhere (.writer w)

/-- These are the waits that a token can end. -/
theorem Task.elsewhere_of_canLeave {t : Task} (h : t.canLeave = true) : t.Elsewhere := by
  cases t with
  | session s =>
      cases hs : s.stage with
      | receiving => exact .receiving hs
      | echoing left => exact .sending hs
      | flushing => exact .flushing hs
      | _ => simp only [canLeave, hs, Bool.false_eq_true] at h
  | writer w =>
      cases hw : w.stage with
      | waiting => exact .ticking hw
      | _ => simp only [canLeave, hw, Bool.false_eq_true] at h
  | caller c => cases h

theorem Task.Elsewhere.request?_eq_none {t : Task} (h : t.Elsewhere) : t.request? = none := by
  cases h with
  | receiving hs => simp only [request?, hs]
  | sending hs => simp only [request?, hs]
  | flushing hs => simp only [request?, hs]
  | ticking hw => simp only [request?, hw]

theorem Work.stepsLeft_le (w : Work) : w.stepsLeft ≤ 6 := by
  cases w <;> simp [stepsLeft]

namespace SharedLog

variable {g g' : SharedLog} {e : Event} {i k : Nat}

/-- **A task that waits elsewhere neither has the lock nor waits for it.** -/
theorem Queue.isQueued_of_elsewhere (hq : g.Queue) {t : Task} (ht : g.task? i = some t)
    (h : t.Elsewhere) : g.isQueued i = false := by
  have hnothing : ∀ r, g.request? i ≠ some r := by
    intro r hr
    rw [request?, ht, Option.bind_some, h.request?_eq_none] at hr
    cases hr
  rw [isQueued_eq_false]
  refine ⟨?_, ?_⟩
  · intro w hw
    obtain ⟨r, hr, -⟩ := hq.holder i w hw
    exact hnothing r hr
  · intro hi
    obtain ⟨p, hp, rfl⟩ := List.mem_map.1 hi
    exact hnothing p.2 (hq.waiting p hp)

/-! ## The step of the lock -/

/-- **A file step is the same whatever the tasks and their peers are doing.** -/
theorem step?_file_seats (g : SharedLog) (fault : Option Fault) (seats : List Seat) :
    ({ g with seats := seats } : SharedLog).step? (.file fault) =
      (g.step? (.file fault)).map fun g' => { g' with seats := seats } := by
  simp only [step?]
  cases g.holder with
  | none => rfl
  | some p =>
      obtain ⟨k, w⟩ := p
      dsimp only
      cases w.answer? <;> rfl

/-- What the lock can do next: go to the head of the queue, or let its holder take a file step, however
that step ends, or come back from a holder that has its answer. -/
inductive LockGoesOn (g : SharedLog) : Prop where
  | head {i : Nat} {r : Request} {rest : List (Nat × Request)} : g.holder = none →
      g.waiting = (i, r) :: rest →
      g.step? .grant = some { g with holder := some (i, .ofRequest g.store r), waiting := rest } →
      LockGoesOn g
  | atFile {i : Nat} {w : Work} : g.holder = some (i, w) → w.fileStep?.isSome = true →
      (∀ (fault : Option Fault) (seats : List Seat), ∃ g', g.step? (.file fault) = some g' ∧
        ({ g with seats := seats } : SharedLog).step? (.file fault) = some { g' with seats := seats }) →
      LockGoesOn g
  | back {i : Nat} {a : Answer} : g.holder = some (i, .finished a) →
      (∃ g', g.step? .release = some g' ∧ g'.holder = none) → LockGoesOn g

theorem Work.isSome_fileStep? {w : Work} (h : w.answer? = none) : w.fileStep?.isSome = true := by
  cases w with
  | finished a => cases h
  | _ => rfl

/-- **As long as somebody waits for the lock, it goes on.** -/
theorem Queue.lockGoesOn (hq : g.Queue) (hwaiting : g.waiting ≠ []) : g.LockGoesOn := by
  cases hholder : g.holder with
  | none =>
      obtain ⟨⟨i, r⟩, rest, hhead⟩ := List.exists_cons_of_ne_nil hwaiting
      refine .head hholder hhead ?_
      simp only [step?, hholder, hhead]
  | some p =>
      obtain ⟨i, w⟩ := p
      cases ha : w.answer? with
      | none =>
          refine .atFile hholder (Work.isSome_fileStep? ha) ?_
          intro fault seats
          rw [step?_file_seats]
          simp only [step?, hholder, ha]
          exact ⟨_, rfl, rfl⟩
      | some a =>
          cases w <;> cases ha
          obtain ⟨r, hr, -⟩ := hq.holder i _ hholder
          obtain ⟨t, ht, -⟩ := Option.bind_eq_some_iff.1 hr
          refine .back hholder ⟨{ g.setTask i (t.answered a) with holder := none }, ?_, rfl⟩
          simp only [step?, hholder, Work.answer?, ht, bind, Option.bind_some]
          rfl

/-! ## Who is ahead -/

/-- The tasks that are served before a queued task: whoever has the lock, and those that wait in front. -/
def ahead (g : SharedLog) (i : Nat) : List Nat :=
  let queue := g.waiting.map (·.1)
  if g.holder.map (·.1) = some i then []
  else (g.holder.map (·.1)).toList ++ queue.take (queue.idxOf i)

theorem ahead_of_holder {w : Work} (h : g.holder = some (i, w)) : g.ahead i = [] := by
  rw [ahead, h]
  exact if_pos rfl

theorem ahead_of_waiting (h : ∀ w, g.holder ≠ some (i, w)) : g.ahead i =
    (g.holder.map (·.1)).toList ++ (g.waiting.map (·.1)).take ((g.waiting.map (·.1)).idxOf i) := by
  refine if_neg ?_
  intro hi
  obtain ⟨⟨j, w⟩, hw, rfl⟩ := Option.map_eq_some_iff.1 hi
  exact h w hw

/-- Other work for the same task, and the same queue. -/
theorem ahead_subset_of_eq (hholder : g'.holder.map (·.1) = g.holder.map (·.1))
    (hwaiting : g'.waiting = g.waiting) : g'.ahead i ⊆ g.ahead i := by
  rw [ahead, ahead, hholder, hwaiting]
  exact List.Subset.refl _

/-- Whoever has the lock while a task is queued is that task, or ahead of it. -/
theorem holder_or_ahead {w : Work} (hw : g.holder = some (k, w)) : k = i ∨ k ∈ g.ahead i := by
  by_cases hki : k = i
  · exact .inl hki
  · refine .inr ?_
    rw [ahead_of_waiting (holder_ne_of_ne hw hki), hw]
    exact List.mem_append_left _ List.mem_cons_self

/-- Eight steps of the lock at most for each task ahead, and for the task itself. -/
theorem turnsLeft_le (g : SharedLog) (i : Nat) : g.turnsLeft i ≤ 8 * ((g.ahead i).length + 1) := by
  by_cases hi : ∃ w, g.holder = some (i, w)
  · obtain ⟨w, hw⟩ := hi
    have hsteps := w.stepsLeft_le
    rw [turnsLeft_of_holder hw, ahead_of_holder hw]
    simp only [List.length_nil]
    omega
  · have hother : ∀ w, g.holder ≠ some (i, w) := fun w hw => hi ⟨w, hw⟩
    have hplace : (g.waiting.map (·.1)).idxOf i ≤ (g.waiting.map (·.1)).length := List.idxOf_le_length
    rw [turnsLeft_of_waiting hother, ahead_of_waiting hother, List.length_append, List.length_take,
      Nat.min_eq_left hplace, turnsInHand]
    cases hholder : g.holder with
    | none =>
        simp only [Option.map_none, Option.toList_none, List.length_nil]
        omega
    | some p =>
        have hsteps := p.2.stepsLeft_le
        simp only [Option.map_some, Option.toList_some, List.length_singleton]
        omega

/-- **Nobody comes in ahead of a queued task**, until it has its answer. -/
theorem Queue.ahead_subset (hq : g.Queue) (hqueued : g.isQueued i = true) (hm : Move g e g')
    (hnot : ∀ a, ¬ g.Answers e i a) : g'.ahead i ⊆ g.ahead i := by
  cases hm with
  | own more ht hown => exact ahead_subset_of_eq rfl rfl
  | @ask j r hr hfree =>
      rcases isQueued_iff.1 hqueued with ⟨w, hw⟩ | hi
      · rw [ahead_of_holder (g := { g with waiting := g.waiting ++ [(j, r)] }) hw]
        exact List.nil_subset _
      · have hother : ∀ w, g.holder ≠ some (i, w) := fun w hw => hq.apart i w hw hi
        rw [ahead_of_waiting (g := { g with waiting := g.waiting ++ [(j, r)] }) hother,
          ahead_of_waiting hother, List.map_append, List.idxOf_append_of_mem hi,
          List.take_append_of_le_length List.idxOf_le_length]
        exact List.Subset.refl _
  | @grant j r rest hnone hw =>
      by_cases hji : j = i
      · subst hji
        rw [ahead_of_holder rfl]
        exact List.nil_subset _
      · rw [ahead_of_waiting (holder_ne_of_ne rfl hji), ahead_of_waiting (holder_ne_of_free hnone),
          hnone, hw, List.map_cons, List.idxOf_cons_ne _ hji, List.take_succ_cons]
        exact List.Subset.refl _
  | file hw hmore => exact ahead_subset_of_eq (by rw [hw]; rfl) rfl
  | @release j a t hw ht =>
      have hji : j ≠ i := by
        rintro rfl
        exact hnot a ⟨rfl, hw⟩
      rw [ahead_of_waiting (holder_ne_of_free rfl), ahead_of_waiting (holder_ne_of_ne hw hji)]
      exact List.subset_append_right _ _
  | fire hi => exact ahead_subset_of_eq rfl rfl
  | outside change =>
      refine ahead_subset_of_eq ?_ rfl
      rw [changed, Option.map_map]
      rfl

/-! ## Service -/

/-- Somewhere in a run a queued task gets its answer. -/
inductive Served (i : Nat) (g : SharedLog) (es : List Event) : Prop where
  | intro {before after : List Event} {h h' : SharedLog} {t : Task} {a : Answer} :
      es = before ++ .release :: after → g.run? before = some h → h.holder = some (i, .finished a) →
      g.task? i = some t → h.step? .release = some h' → h'.task? i = some (t.answered a) →
      Served i g es

/-- A queued task still waits after a run: it stands where it stood, every step of the lock in that run has
brought its answer nearer, and nobody has come in ahead of it. -/
structure StillWaits (i : Nat) (g : SharedLog) (es : List Event) (g' : SharedLog) : Prop where
  queued : g'.isQueued i = true
  task : g'.task? i = g.task? i
  turns : g'.turnsLeft i + es.countP Event.isOfLock ≤ g.turnsLeft i
  ahead : g'.ahead i ⊆ g.ahead i

theorem StillWaits.holder (h : StillWaits i g es g') {w : Work} (hw : g'.holder = some (k, w)) :
    k = i ∨ k ∈ g.ahead i :=
  (holder_or_ahead hw).imp_right fun hk => h.ahead hk

/-- One event more in front. -/
theorem Served.cons {g₁ : SharedLog} {es : List Event} (he : g.step? e = some g₁)
    (htask : g₁.task? i = g.task? i) (h : Served i g₁ es) : Served i g (e :: es) := by
  obtain ⟨hes, hrun, hw, ht, hstep, hanswered⟩ := h
  rename_i before after h h' t a
  have hrun' : g.run? (e :: before) = some h := by
    rw [run?, he]
    exact hrun
  exact ⟨by rw [hes, List.cons_append], hrun', hw, htask ▸ ht, hstep, hanswered⟩

theorem StillWaits.cons {g₁ : SharedLog} {es : List Event} (hwaits : Waits i g e g₁)
    (htask : g₁.task? i = g.task? i) (hahead : g₁.ahead i ⊆ g.ahead i) (h : StillWaits i g₁ es g') :
    StillWaits i g (e :: es) g' := by
  refine ⟨h.queued, h.task.trans htask, ?_, fun k hk => hahead (h.ahead hk)⟩
  have hturns := h.turns
  have hfirst := hwaits.turns
  rw [List.countP_cons]
  split
  · rename_i hlock
    have hless := hwaits.nearer hlock
    omega
  · omega

/-- A queued task that is answered now. -/
theorem Queue.served_now (hq : g.Queue) {a : Answer} (hw : g.holder = some (i, .finished a))
    {es : List Event} : Served i g (.release :: es) := by
  obtain ⟨r, hr, -⟩ := hq.holder i _ hw
  obtain ⟨t, ht, -⟩ := Option.bind_eq_some_iff.1 hr
  have hstep : g.step? .release = some { g.setTask i (t.answered a) with holder := none } := by
    simp only [step?, hw, Work.answer?, ht, bind, Option.bind_some]
    rfl
  exact ⟨(List.nil_append _).symm, rfl, hw, ht, hstep, task?_setTask_self ht⟩

/-- An event that does not answer a queued task leaves it standing in the queue. -/
theorem Queue.waits_of_move (hq : g.Queue) (hqueued : g.isQueued i = true) (hm : Move g e g')
    (hnot : ∀ a, ¬ g.Answers e i a) :
    Waits i g e g' ∧ g'.task? i = g.task? i ∧ g'.ahead i ⊆ g.ahead i := by
  have hwaits : Waits i g e g' := (hq.turn hqueued hm).resolve_left fun ⟨a, ha⟩ => hnot a ha
  refine ⟨hwaits, ?_, hq.ahead_subset hqueued hm hnot⟩
  obtain ⟨r, hr⟩ : ∃ r, g.request? i = some r := by
    rcases isQueued_iff.1 hqueued with ⟨w, hw⟩ | hi
    · obtain ⟨r, hr, -⟩ := hq.holder i w hw
      exact ⟨r, hr⟩
    · obtain ⟨p, hp, rfl⟩ := List.mem_map.1 hi
      exact ⟨p.2, hq.waiting p hp⟩
  rcases hm.task?_of_request hr with hsame | ⟨a, t, ha, -⟩
  · exact hsame
  · exact absurd ha (hnot a)

/-- **A queued task waits until it is served.** -/
theorem Queue.served_or_waits {es : List Event} (hq : g.Queue) (hqueued : g.isQueued i = true)
    (hrun : g.run? es = some g') : Served i g es ∨ StillWaits i g es g' := by
  induction es generalizing g with
  | nil =>
      cases hrun
      exact .inr ⟨hqueued, rfl, Nat.le_refl _, List.Subset.refl _⟩
  | cons e es ih =>
      obtain ⟨g₁, he, hrest⟩ := Option.bind_eq_some_iff.1 hrun
      have hm := move_of_step? he
      by_cases hanswer : ∃ a, g.Answers e i a
      · obtain ⟨a, rfl, hw⟩ := hanswer
        exact .inl (hq.served_now hw)
      · obtain ⟨hwaits, htask, hahead⟩ :=
          hq.waits_of_move hqueued hm fun a ha => hanswer ⟨a, ha⟩
        rcases ih (hq.move hm) hwaits.queued hrest with hserved | hstill
        · exact .inl (hserved.cons he htask)
        · exact .inr (hstill.cons hwaits htask hahead)

/-- A task that still waits has a step of the lock to wait for. -/
theorem turnsLeft_pos (hqueued : g.isQueued i = true) : 0 < g.turnsLeft i := by
  rcases isQueued_iff.1 hqueued with ⟨w, hw⟩ | hi
  · rw [turnsLeft_of_holder hw]
    exact Nat.succ_pos _
  · unfold turnsLeft
    split
    · rename_i hself
      cases hholder : g.holder with
      | none =>
          rw [hholder] at hself
          cases hself
      | some p =>
          simp only [turnsInHand, hholder]
          exact Nat.succ_pos _
    · omega

/-- **Steps of the lock are all it takes** for a queued task to be served. -/
theorem Queue.exists_service (hq : g.Queue) (hqueued : g.isQueued i = true) :
    ∃ es g', g.run? es = some g' ∧ (∀ e ∈ es, e.isOfLock = true) ∧ es.length ≤ g.turnsLeft i ∧
      Served i g es := by
  induction hn : g.turnsLeft i using Nat.strongRecOn generalizing g with
  | ind n ih =>
    obtain ⟨e, he, g₁, hstep⟩ := hq.lock_can_move hqueued
    have hlock : e.isOfLock = true := by
      rcases List.mem_cons.1 he with rfl | he
      · rfl
      · rcases List.mem_cons.1 he with rfl | he
        · rfl
        · rw [List.mem_singleton.1 he]
          rfl
    have hm := move_of_step? hstep
    by_cases hanswer : ∃ a, g.Answers e i a
    · obtain ⟨a, rfl, hw⟩ := hanswer
      refine ⟨[.release], g₁, ?_, ?_, ?_, hq.served_now hw⟩
      · rw [run?, hstep]
        rfl
      · intro e he
        rw [List.mem_singleton.1 he]
        rfl
      · rw [List.length_singleton, ← hn]
        exact turnsLeft_pos hqueued
    · obtain ⟨hwaits, htask, -⟩ := hq.waits_of_move hqueued hm fun a ha => hanswer ⟨a, ha⟩
      have hless := hwaits.nearer hlock
      obtain ⟨es, g', hrun, hall, hlength, hserved⟩ :=
        ih _ (hn ▸ hless) (hq.move hm) hwaits.queued rfl
      refine ⟨e :: es, g', ?_, ?_, ?_, hserved.cons hstep htask⟩
      · rw [run?, hstep]
        exact hrun
      · exact List.forall_mem_cons.2 ⟨hlock, hall⟩
      · rw [List.length_cons]
        omega

/-! ## The whole of it -/

/-- How a queued task is served: in every run it waits, with nobody coming in ahead of it, until it has its
answer; it has it after eight steps of the lock for each task ahead and for itself; and those steps can be
taken without any other. -/
structure IsServed (i : Nat) (g : SharedLog) : Prop where
  waits : ∀ es g', g.run? es = some g' → Served i g es ∨ StillWaits i g es g'
  turn : ∀ es g' k w, g.run? es = some g' → g'.holder = some (k, w) →
    Served i g es ∨ k = i ∨ k ∈ g.ahead i
  inTime : ∀ es g', g.run? es = some g' → 8 * ((g.ahead i).length + 1) ≤ es.countP Event.isOfLock →
    Served i g es
  alone : ∃ es g', g.run? es = some g' ∧ (∀ e ∈ es, e.isOfLock = true) ∧
    es.length ≤ 8 * ((g.ahead i).length + 1) ∧ Served i g es

theorem Queue.isServed (hq : g.Queue) (hqueued : g.isQueued i = true) : IsServed i g := by
  have hbound := g.turnsLeft_le i
  refine ⟨fun es g' hrun => hq.served_or_waits hqueued hrun, ?_, ?_, ?_⟩
  · intro es g' k w hrun hw
    exact (hq.served_or_waits hqueued hrun).imp_right fun hstill => hstill.holder hw
  · intro es g' hrun hlong
    refine (hq.served_or_waits hqueued hrun).resolve_right fun hstill => ?_
    have hpos := turnsLeft_pos hstill.queued
    have hturns := hstill.turns
    omega
  · obtain ⟨es, g', hrun, hall, hlength, hserved⟩ := hq.exists_service hqueued
    exact ⟨es, g', hrun, hall, Nat.le_trans hlength hbound, hserved⟩

/-- **A slow or dead peer never blocks the log.**  In every state that sessions, the timestamp writer and
callers can reach, whatever fails and whatever other processes do: a task that waits for its peer, for the
next tick or for its token does not have the lock, nor wait for it; as long as somebody waits for the lock,
it goes to the head of the queue, or its holder can take a file step that no peer has a say in, or comes
back; and every queued task is served by the steps of the lock alone. -/
theorem slow_peers_block_nobody {disk : Disk} {store : Store} {seats : List Seat} {es : List Event}
    (hrun : ({ disk := disk, store := store, seats := seats } : SharedLog).run? es = some g) :
    (∀ i t, g.task? i = some t → t.Elsewhere ∨ t.canLeave = true →
      g.isQueued i = false ∧ ∀ w, g.holder ≠ some (i, w)) ∧
    (g.waiting ≠ [] → g.LockGoesOn) ∧
    ∀ i, g.isQueued i = true → IsServed i g := by
  have hq : g.Queue := run_states (fun h hm => h.move hm) (queue_start disk store seats) hrun
  refine ⟨?_, hq.lockGoesOn, fun i hqueued => hq.isServed hqueued⟩
  intro i t ht hwaits
  have helsewhere : t.Elsewhere := hwaits.elim id Task.elsewhere_of_canLeave
  have hfree := hq.isQueued_of_elsewhere ht helsewhere
  exact ⟨hfree, (isQueued_eq_false.1 hfree).1⟩

/-- The first session has stored its packet and sends the log to a peer that takes no byte of it.  The
second has the file open, and the timestamp writer and the reader wait behind it. -/
def stall : List Event :=
  [.receive 0 (.ok (utf8 "a\n")), .frame 0, .ask 0, .grant, .file none, .file none, .file none, .file none,
    .release, .receive 1 (.ok (utf8 "cc\n")), .frame 1, .ask 1, .tick 2 5 ⟨⟨0, 0⟩, .utc⟩, .ask 2, .grant,
    .file none, .ask 3]

/-- The theorem at that state, for the session that sends and for the reader. -/
theorem stall_blocks_nobody : ∃ g s left, crowd.run? stall = some g ∧ g.session? 0 = some s ∧
    s.stage = .echoing left ∧ g.isQueued 0 = false ∧ g.waiting ≠ [] ∧ g.LockGoesOn ∧
    g.isQueued 3 = true ∧ g.ahead 3 = [1, 2] ∧ IsServed 3 g := by
  have hseen : (crowd.run? stall).map (fun g =>
      ((g.step? (.send 0 (.ok 1))).isSome, g.waiting.map (·.1), g.isQueued 3, g.ahead 3)) =
      some (true, [2, 3], true, [1, 2]) := by decide +kernel
  obtain ⟨g, hrun, hseen⟩ := Option.map_eq_some_iff.1 hseen
  simp only [Prod.mk.injEq, Option.isSome_iff_exists] at hseen
  obtain ⟨⟨g', hsend⟩, hqueue, hqueued, hahead⟩ := hseen
  have hwaiting : g.waiting ≠ [] := by
    intro hnone
    rw [hnone] at hqueue
    cases hqueue
  obtain ⟨helsewhere, hlock, hserved⟩ := slow_peers_block_nobody (g := g)
    (show ({ disk := crowd.disk, store := crowd.store, seats := crowd.seats } : SharedLog).run? stall =
      some g from hrun)
  -- The peer could take a byte, so it is the peer that the first session waits for.
  cases move_of_step? hsend with
  | own _ hs hown =>
    cases hown with
    | send hstage _ =>
      exact ⟨g, _, _, hrun, session?_eq_some.2 hs, hstage, (helsewhere 0 _ hs (.inl (.sending hstage))).1,
        hwaiting, hlock hwaiting, hqueued, hahead, hserved 3 hqueued⟩

end SharedLog

end EchoLog
