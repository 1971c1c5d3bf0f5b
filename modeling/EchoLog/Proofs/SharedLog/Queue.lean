import EchoLog.Proofs.SharedLog.Moves
import EchoLog.Proofs.Store.Requests
/-!
# The queue for the lock

A task that waits for the lock, or holds it, goes on asking for the same request until it is answered,
and the work that the holder does is work for that request (`Work.Serves`).  No task stands in the
queue twice, and the holder is not in it.  This holds in every run, whatever fails and whatever another
process does to the file (`Queue.move`).
-/

namespace EchoLog

/-! ## Work and the request it is done for -/

/-- An answer of the kind that a request gets.  The store fails in one way only. -/
def Request.Gets : Request → Answer → Prop
  | _, .error f => ∃ cause, f = .storage cause
  | .echo _, .ok reply => ∃ log, reply = .log log
  | .append _, .ok reply => reply = .done
  | .snapshot, .ok reply => ∃ log, reply = .log log
  | .remove, .ok reply => reply = .done
  | .size, .ok reply => ∃ n, reply = .size n

/-- The append that asks for an echo or does not. -/
def Request.write (bytes : Bytes) (echo : Bool) : Request :=
  if echo then .echo bytes else .append bytes

theorem Request.bytes?_write (bytes : Bytes) (echo : Bool) :
    (Request.write bytes echo).bytes? = some bytes := by
  cases echo <;> rfl

namespace Work

/-- Work that is done for a request. -/
def Serves (r : Request) : Work → Prop
  | .opening bytes echo => r = .write bytes echo
  | .writing _ bytes echo => r = .write bytes echo
  | .flushing _ bytes echo => r = .write bytes echo
  | .syncing _ bytes echo => r = .write bytes echo
  | .cutting _ _ => ∃ bytes echo, r = .write bytes echo
  | .reading => r = .snapshot ∨ ∃ bytes, r = .echo bytes
  | .unlinking => r = .remove
  | .finished answer => r.Gets answer

variable {r : Request} {w : Work} {store : Store} {disk : Disk}

theorem serves_ofRequest (store : Store) (r : Request) : (ofRequest store r).Serves r := by
  cases r with
  | echo bytes => exact rfl
  | append bytes => exact rfl
  | snapshot => exact .inl rfl
  | remove => exact rfl
  | size => exact ⟨_, rfl⟩

theorem serves_failed (r : Request) (cause : IoError) : (failed cause).Serves r := by
  cases r <;> exact ⟨cause, rfl⟩

theorem serves_commit {bytes : Bytes} {echo : Bool} :
    (commit store disk bytes echo).work.Serves (.write bytes echo) := by
  cases echo with
  | true => exact .inr ⟨bytes, rfl⟩
  | false => exact rfl

theorem Serves.withHandle (f : Handle → Handle) (h : w.Serves r) : (w.withHandle f).Serves r := by
  cases w <;> exact h

/-- **A step goes on serving the same request.** -/
theorem Serves.step (fault : Option Fault) (h : w.Serves r) :
    (w.step fault store disk).work.Serves r := by
  cases w with
  | opening bytes echo =>
      simp only [Work.step]
      split
      · exact serves_failed ..
      · split
        · exact serves_failed ..
        · exact h
  | writing file bytes echo =>
      simp only [Work.step]
      split
      · exact ⟨bytes, echo, h⟩
      · split
        · exact ⟨bytes, echo, h⟩
        · exact h
  | flushing file bytes echo =>
      simp only [Work.step]
      split
      · exact ⟨bytes, echo, h⟩
      · split
        · exact h
        · exact h ▸ serves_commit
  | syncing file bytes echo =>
      simp only [Work.step]
      split
      · exact ⟨bytes, echo, h⟩
      · exact h ▸ serves_commit
  | cutting file cause =>
      simp only [Work.step]
      split
      · exact serves_failed ..
      · split <;> exact serves_failed ..
  | reading =>
      simp only [Work.step]
      split
      · exact serves_failed ..
      · split
        · exact serves_failed ..
        · rcases h with rfl | ⟨bytes, rfl⟩ <;> exact ⟨_, rfl⟩
  | unlinking =>
      cases h
      simp only [Work.step]
      split
      · exact rfl
      · split
        · exact rfl
        · exact serves_failed ..
  | finished answer => exact h

end Work

/-! ## The queue -/

namespace SharedLog

variable {g g' : SharedLog} {e : Event} {i j : Nat}

theorem request?_setTask_other {t : Task} (h : j ≠ i) :
    (g.setTask i t).request? j = g.request? j := by
  rw [request?, request?, task?_setTask_other h]

theorem task?_fire (g : SharedLog) (i j : Nat) :
    ({ g with seats := g.seats.modify i fun seat => { seat with cancelled := true } } :
      SharedLog).task? j = g.task? j := by
  simp only [task?, List.getElem?_modify]
  split <;> cases g.seats[j]? <;> rfl

/-- Only callers ask to remove the log. -/
theorem caller_of_remove (hr : g.request? i = some .remove) :
    ∃ d, g.task? i = some (.caller d) ∧ d.request = .remove ∧ d.answer = none := by
  obtain ⟨t, ht, hreq⟩ := Option.bind_eq_some_iff.1 hr
  cases t with
  | session s => cases hs : s.stage <;> simp_all [Task.request?]
  | writer w => cases hs : w.stage <;> simp_all [Task.request?]
  | caller d =>
      obtain ⟨hnone, hremove⟩ := Option.ite_none_right_eq_some.1 hreq
      exact ⟨d, ht, Option.some.inj hremove, Option.isNone_iff_eq_none.1 hnone⟩

/-- The queue for the lock is in order. -/
structure Queue (g : SharedLog) : Prop where
  waiting : ∀ p ∈ g.waiting, g.request? p.1 = some p.2
  holder : ∀ i w, g.holder = some (i, w) → ∃ r, g.request? i = some r ∧ w.Serves r
  once : (g.waiting.map (·.1)).Nodup
  apart : ∀ i w, g.holder = some (i, w) → i ∉ g.waiting.map (·.1)

/-- A task that is not queued, from the outside. -/
theorem isQueued_eq_false : g.isQueued i = false ↔
    (∀ w, g.holder ≠ some (i, w)) ∧ i ∉ g.waiting.map (·.1) := by
  simp only [isQueued, Bool.or_eq_false_iff, Option.any_eq_false, List.any_eq_false, beq_iff_eq]
  constructor
  · rintro ⟨hholder, hwaiting⟩
    refine ⟨?_, ?_⟩
    · intro w hw
      have hne := hholder _ hw
      simp at hne
    · intro hi
      obtain ⟨p, hp, rfl⟩ := List.mem_map.1 hi
      exact hwaiting p hp rfl
  · rintro ⟨hholder, hwaiting⟩
    refine ⟨?_, ?_⟩
    · rintro ⟨k, w⟩ hk
      simp only [beq_eq_false_iff_ne, ne_eq]
      rintro rfl
      exact hholder w hk
    · intro p hp e
      exact hwaiting (List.mem_map.2 ⟨p, hp, e⟩)

/-- A task that asks for something is not the one that moves by itself. -/
theorem ne_of_own {t t' : Task} {cancelled : Bool} {r : Request} (ht : g.task? i = some t)
    (hown : Task.Own i cancelled e t t') (hr : g.request? j = some r) : j ≠ i := by
  rintro rfl
  rw [request?, ht, Option.bind_some, hown.request?_eq_none] at hr
  cases hr

namespace Queue

theorem holder_ne_of_own {t t' : Task} {cancelled : Bool} {w : Work} (h : g.Queue)
    (ht : g.task? i = some t) (hown : Task.Own i cancelled e t t') (hw : g.holder = some (j, w)) :
    j ≠ i := by
  obtain ⟨r, hr, -⟩ := h.holder _ _ hw
  exact ne_of_own ht hown hr

/-- What holds the lock for a session is done for its packet. -/
theorem storing_of_holder {s : Session} {w : Work} (h : g.Queue) (hs : g.session? i = some s)
    (hw : g.holder = some (i, w)) : ∃ packet, s.stage = .storing packet := by
  obtain ⟨r, hr, -⟩ := h.holder i w hw
  rw [request?, session?_eq_some.1 hs, Option.bind_some] at hr
  cases hstage : s.stage with
  | storing packet => exact ⟨packet, rfl⟩
  | _ => simp [Task.request?, hstage] at hr

/-- **Every move keeps the queue in order.** -/
theorem move (h : g.Queue) (hm : Move g e g') : g'.Queue := by
  cases hm with
  | own more ht hown =>
      -- whoever waits or holds the lock asks for something, so it is another task that moved
      refine ⟨?_, ?_, h.once, h.apart⟩
      · intro p hp
        have hr := h.waiting p hp
        exact (request?_setTask_other (ne_of_own ht hown hr)).trans hr
      · intro j w hw
        obtain ⟨r, hr, hs⟩ := h.holder j w hw
        exact ⟨r, (request?_setTask_other (ne_of_own ht hown hr)).trans hr, hs⟩
  | @ask i r hr hq =>
      obtain ⟨hholder, hwaiting⟩ := isQueued_eq_false.1 hq
      refine ⟨?_, h.holder, ?_, ?_⟩
      · intro p hp
        rcases List.mem_append.1 hp with hp | hp
        · exact h.waiting p hp
        · rw [List.mem_singleton.1 hp]
          exact hr
      · rw [List.map_append, List.nodup_append]
        refine ⟨h.once, List.pairwise_singleton .., ?_⟩
        intro a ha b hb
        rw [List.mem_singleton.1 hb]
        rintro rfl
        exact hwaiting ha
      · intro j w hw
        rw [List.map_append, List.mem_append, not_or]
        refine ⟨h.apart j w hw, ?_⟩
        intro hj
        rw [List.mem_singleton.1 hj] at hw
        exact hholder w hw
  | @grant i r rest hnone hw =>
      have hwaiting := h.waiting
      have honce := h.once
      rw [hw] at hwaiting honce
      obtain ⟨hi, honce⟩ := List.nodup_cons.1 honce
      refine ⟨?_, ?_, honce, ?_⟩
      · intro p hp
        exact hwaiting p (List.mem_cons_of_mem _ hp)
      · rintro j w ⟨⟩
        exact ⟨r, hwaiting _ List.mem_cons_self, Work.serves_ofRequest ..⟩
      · rintro j w ⟨⟩
        exact hi
  | file hw hmore =>
      refine ⟨h.waiting, ?_, h.once, ?_⟩
      · rintro j w' ⟨⟩
        obtain ⟨r, hr, hs⟩ := h.holder _ _ hw
        exact ⟨r, hr, hs.step _⟩
      · rintro j w' ⟨⟩
        exact h.apart _ _ hw
  | @release i answer t hw ht =>
      refine ⟨?_, by simp, h.once, by simp⟩
      intro p hp
      have hne : p.1 ≠ i := by
        rintro rfl
        exact h.apart _ _ hw (List.mem_map_of_mem hp)
      exact (request?_setTask_other hne).trans (h.waiting p hp)
  | fire hi =>
      refine ⟨?_, ?_, h.once, h.apart⟩
      · intro p hp
        rw [request?, task?_fire]
        exact h.waiting p hp
      · intro j w hw
        rw [request?, task?_fire]
        exact h.holder j w hw
  | outside change =>
      refine ⟨h.waiting, ?_, h.once, ?_⟩
      · intro j w hw
        obtain ⟨⟨k, w'⟩, hk, e⟩ := Option.map_eq_some_iff.1 hw
        cases e
        obtain ⟨r, hr, hs⟩ := h.holder _ _ hk
        exact ⟨r, hr, hs.withHandle _⟩
      · intro j w hw
        obtain ⟨⟨k, w'⟩, hk, e⟩ := Option.map_eq_some_iff.1 hw
        cases e
        exact h.apart _ _ hk

/-- A run keeps the queue. -/
theorem run (h : g.Queue) {es : List Event} (hrun : g.run? es = some g') : g'.Queue :=
  run_states (fun h hm => h.move hm) h hrun

end Queue

/-- Nobody waits in the beginning. -/
theorem queue_start (disk : Disk) (store : Store) (seats : List Seat) :
    Queue { disk := disk, store := store, seats := seats } :=
  ⟨by simp, by simp, List.nodup_nil, by simp⟩

end SharedLog

/-! ## Tasks that rest -/

/-- A task that does nothing any more, by itself or with the store. -/
structure Task.Rests (t : Task) : Prop where
  request : t.request? = none
  own : ∀ i cancelled e t', ¬ Task.Own i cancelled e t t'

/-- A caller that has its answer rests. -/
theorem rests_of_answer {c : Caller} {answer : Answer} (h : c.answer = some answer) :
    (Task.caller c).Rests := by
  refine ⟨?_, ?_⟩
  · rw [Task.request?, h]
    rfl
  · intro i cancelled e t' hown
    cases hown with
    | leave hleave => cases hleave

/-- A task that was refused something rests. -/
theorem rests_of_refused (t : Task) (f : Failure) : (t.answered (.error f)).Rests := by
  cases t with
  | session s =>
      refine ⟨rfl, ?_⟩
      intro i cancelled e t' hown
      cases hown with
      | poll hwaits => cases hwaits
      | receive hstage => cases hstage
      | frame hstage => cases hstage
      | send hstage => cases hstage
      | flush hstage => cases hstage
      | leave hleave => cases hleave
  | writer w =>
      refine ⟨rfl, ?_⟩
      intro i cancelled e t' hown
      cases hown with
      | leave hleave => cases hleave
      | tick hstage => cases hstage
  | caller c => exact rests_of_answer rfl

/-- **A task that rests stays as it is.** -/
theorem SharedLog.Move.task?_of_rests {g g' : SharedLog} {e : Event} {i : Nat} {t : Task}
    (hm : SharedLog.Move g e g') (hq : g.Queue) (ht : g.task? i = some t) (hrests : t.Rests) :
    g'.task? i = some t := by
  cases hm with
  | @own j _ u u' more hu hown =>
      have hij : i ≠ j := by
        rintro rfl
        cases ht.symm.trans hu
        exact hrests.own _ _ _ _ hown
      exact (task?_setTask_other hij).trans ht
  | ask _ _ => exact ht
  | grant _ _ => exact ht
  | file _ _ => exact ht
  | @release j answer u hw hu =>
      have hij : i ≠ j := by
        rintro rfl
        obtain ⟨request, hrequest, -⟩ := hq.holder _ _ hw
        rw [request?, ht, Option.bind_some, hrests.request] at hrequest
        cases hrequest
      exact (task?_setTask_other hij).trans ht
  | fire _ => exact (task?_fire g _ i).trans ht
  | outside _ => exact ht

end EchoLog
