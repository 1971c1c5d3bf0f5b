import EchoLog.Proofs.Session.Identity
import EchoLog.Proofs.SharedLog.Unblocked
/-!
# The looks of a session between two reads

A session that has read goes round its loop: it looks for a packet, has it stored, echoes the log, flushes,
and looks again, until a look finds no packet.  A look that finds one takes bytes out of what is held
(`Session.frame_cases`), and only a read adds any.  Two measures say from this that the loop comes to its end.

No run without a read of the session has more looks than are left (`Session.looksLeft`,
`SharedLog.Queue.countP_looks`): the loop cannot go on.  And each leg of the loop can be gone to its end
without a read, the one at the store by steps of the lock alone, and leaves fewer legs (`Session.legs`,
`SharedLog.Queue.goesOn`): the loop cannot get stuck (`SharedLog.Queue.getsThrough`).
-/

namespace EchoLog

namespace Session

/-- A look that finds a packet takes it out of what is held. -/
theorem held_frame_lt {s : Session} {packet : Bytes} (h : s.frame.stage = .storing packet) :
    s.frame.held.length < s.held.length := by
  have hcut : (s.framer.look s.held).cut = .packet packet := by
    rw [frame] at h
    cases hcut : (s.framer.look s.held).cut with
    | packet p =>
        rw [hcut] at h
        rw [Stage.storing.inj h]
    | incomplete =>
        rw [hcut] at h
        cases h
    | oversized =>
        rw [hcut] at h
        cases h
  exact Framer.length_lt_of_packet hcut

/-- **After a look a session waits for bytes, or has ended, or has a packet stored and holds less.** -/
theorem frame_cases (s : Session) : s.frame.stage = .receiving ∨ (∃ r, s.frame.stage = .ended r) ∨
    ∃ packet, s.frame.stage = .storing packet ∧ s.frame.held.length < s.held.length := by
  cases hnext : s.frame.stage with
  | receiving => exact .inl rfl
  | ended result => exact .inr (.inl ⟨result, rfl⟩)
  | storing packet => exact .inr (.inr ⟨packet, rfl, held_frame_lt hnext⟩)
  | framing | echoing left | flushing =>
      rw [frame] at hnext
      cases hcut : (s.framer.look s.held).cut <;> rw [hcut] at hnext <;> cases hnext

/-! ## Looks -/

/-- The looks that a session can take before it waits for bytes again: one for each byte that it holds, and
the one that finds no packet. -/
def looksLeft (s : Session) : Nat :=
  match s.stage with
  | .receiving => 0
  | .ended _ => 0
  | _ => s.held.length + 1

theorem looksLeft_le (s : Session) : s.looksLeft ≤ s.held.length + 1 := by
  rw [looksLeft]
  split
  · exact Nat.zero_le _
  · exact Nat.zero_le _
  · exact Nat.le_refl _

/-- A look takes itself off the looks that are left. -/
theorem looksLeft_frame {s : Session} (hstage : s.stage = .framing) :
    s.frame.looksLeft < s.looksLeft := by
  have hbefore : s.looksLeft = s.held.length + 1 := by rw [looksLeft, hstage]
  rw [hbefore]
  rcases s.frame_cases with h | ⟨result, h⟩ | ⟨packet, -, hless⟩
  · rw [looksLeft, h]
    exact Nat.zero_lt_succ _
  · rw [looksLeft, h]
    exact Nat.zero_lt_succ _
  · exact Nat.lt_of_le_of_lt s.frame.looksLeft_le (Nat.succ_lt_succ hless)

/-- Anything but a look and a read leaves no more looks than there were. -/
theorem looksLeft_le_of_held {s s' : Session} (hheld : s'.held = s.held)
    (hloops : s.looksLeft = s.held.length + 1) : s'.looksLeft ≤ s.looksLeft := by
  rw [hloops, ← hheld]
  exact s'.looksLeft_le

/-! ## Legs -/

/-- Whether a session is through with what it has read: it waits for bytes, or has ended. -/
def IsThrough (s : Session) : Prop :=
  s.stage = .receiving ∨ ∃ result, s.stage = .ended result

/-- What is left of the loop: four legs for each byte that is held, and those of this time round. -/
def legs (s : Session) : Nat :=
  match s.stage with
  | .receiving => 0
  | .ended _ => 0
  | .framing => 4 * s.held.length + 1
  | .flushing => 4 * s.held.length + 2
  | .echoing _ => 4 * s.held.length + 3
  | .storing _ => 4 * s.held.length + 4

theorem legs_of_isThrough {s : Session} (h : s.IsThrough) : s.legs = 0 := by
  rcases h with h | ⟨result, h⟩ <;> rw [legs, h]

theorem isThrough_fail (s : Session) (f : Failure) : (s.fail f).IsThrough :=
  .inr ⟨_, rfl⟩

theorem legs_frame {s : Session} (hstage : s.stage = .framing) : s.frame.legs < s.legs := by
  have hbefore : s.legs = 4 * s.held.length + 1 := by rw [legs, hstage]
  rw [hbefore]
  rcases s.frame_cases with h | h | ⟨packet, h, hless⟩
  · rw [legs_of_isThrough (.inl h)]
    exact Nat.zero_lt_succ _
  · rw [legs_of_isThrough (.inr h)]
    exact Nat.zero_lt_succ _
  · have hafter : s.frame.legs = 4 * s.frame.held.length + 4 := by rw [legs, h]
    omega

/-- Flushing is left, once all is sent. -/
theorem legs_echo_nil (s : Session) : (s.echo []).legs = 4 * s.held.length + 2 :=
  rfl

theorem legs_echo_le (s : Session) (left : Bytes) : (s.echo left).legs ≤ 4 * s.held.length + 3 := by
  cases left with
  | nil => exact Nat.le_succ _
  | cons b left => exact Nat.le_refl _

theorem legs_stored_le (s : Session) (answer : Except Failure Bytes) :
    (s.stored answer).legs ≤ 4 * s.held.length + 3 := by
  cases answer with
  | error f =>
      rw [stored, legs_of_isThrough (s.isThrough_fail f)]
      exact Nat.zero_le _
  | ok log => exact s.legs_echo_le log

/-- A peer that accepts all that is left ends the sending. -/
theorem legs_sent_all (s : Session) (left : Bytes) :
    (s.sent left (.ok left.length)).legs ≤ 4 * s.held.length + 2 := by
  cases left with
  | nil =>
      rw [List.length_nil, sent, legs_of_isThrough (s.isThrough_fail _)]
      exact Nat.zero_le _
  | cons b left =>
      show (s.echo ((b :: left).drop (b :: left).length)).legs ≤ _
      rw [List.drop_length, legs_echo_nil]

end Session

/-- Whether an event is a read of the session at a place. -/
def Event.isRead (i : Nat) : Event → Bool
  | .receive j _ => j == i
  | _ => false

/-- Whether an event is a look of the session at a place. -/
def Event.isLook (i : Nat) : Event → Bool
  | .frame j => j == i
  | _ => false

theorem Event.isLook_eq_false {i : Nat} {e : Event} (h : e.place? ≠ some i) : e.isLook i = false := by
  cases e with
  | frame j =>
      rw [isLook, beq_eq_false_iff_ne]
      exact fun hj => h (congrArg some hj)
  | _ => rfl

/-- A step of the lock reads nothing from a peer. -/
theorem Event.isRead_eq_false_of_isOfLock {i : Nat} {e : Event} (h : e.isOfLock = true) :
    e.isRead i = false := by
  cases e with
  | receive => cases h
  | _ => rfl

namespace SharedLog

variable {g g' : SharedLog} {e : Event} {i : Nat}

/-- A run without a read of a session, from one state to another. -/
structure Unread (i : Nat) (g : SharedLog) (es : List Event) (g' : SharedLog) : Prop where
  reads : ∀ e ∈ es, e.isRead i = false
  run : g.run? es = some g'

theorem Unread.append {g'' : SharedLog} {es more : List Event} (h : Unread i g es g')
    (h' : Unread i g' more g'') : Unread i g (es ++ more) g'' where
  reads := List.forall_mem_append.2 ⟨h.reads, h'.reads⟩
  run := by
    rw [run?_append, h.run]
    exact h'.run

theorem unread_step (hread : e.isRead i = false) (hstep : g.step? e = some g') :
    Unread i g [e] g' where
  reads := List.forall_mem_singleton.2 hread
  run := by
    rw [run?, hstep]
    rfl

/-! ## The loop does not go on -/

/-- A session that moves by itself, without a read, takes its looks off those that were left. -/
theorem looksLeft_own {cancelled : Bool} {s s' : Session}
    (hown : Task.Own i cancelled e (.session s) (.session s')) (hread : e.isRead i = false) :
    (if e.isLook i then 1 else 0) + s'.looksLeft ≤ s.looksLeft := by
  cases hown with
  | poll =>
      show 0 + s.looksLeft ≤ s.looksLeft
      rw [Nat.zero_add]
  | receive =>
      rw [Event.isRead, beq_self_eq_true] at hread
      cases hread
  | frame hstage =>
      rw [Event.isLook, beq_self_eq_true, if_pos rfl, Nat.add_comm]
      exact Session.looksLeft_frame hstage
  | send hstage =>
      show 0 + _ ≤ _
      rw [Nat.zero_add]
      exact Session.looksLeft_le_of_held (s.held_sent _ _) (by rw [Session.looksLeft, hstage])
  | flush hstage =>
      show 0 + _ ≤ _
      rw [Nat.zero_add]
      exact Session.looksLeft_le_of_held (s.held_flushed _) (by rw [Session.looksLeft, hstage])
  | leave => exact Nat.zero_le _

/-- **A move that is not a read takes the looks of a session off those that were left.** -/
theorem Move.looksLeft (hm : Move g e g') (hq : g.Queue) (hread : e.isRead i = false) {s' : Session}
    (hs' : g'.session? i = some s') :
    ∃ s, g.session? i = some s ∧ (if e.isLook i then 1 else 0) + s'.looksLeft ≤ s.looksLeft := by
  obtain ⟨s, hs, ⟨rfl, hplace⟩ | hown | ⟨w, answer, hw, rfl, rfl⟩⟩ := hm.session_cases hs'
  · refine ⟨s', hs, ?_⟩
    rw [Event.isLook_eq_false hplace, if_neg Bool.false_ne_true, Nat.zero_add]
  · exact ⟨s, hs, looksLeft_own hown hread⟩
  · -- the lock is held for the packet of the session, which is in the middle of its loop
    obtain ⟨packet, hstage⟩ := hq.storing_of_holder hs hw
    refine ⟨s, hs, ?_⟩
    show 0 + _ ≤ _
    rw [Nat.zero_add]
    exact Session.looksLeft_le_of_held (s.held_stored _) (by rw [Session.looksLeft, hstage])

/-- **Between two reads a session takes no more looks than are left.** -/
theorem Queue.countP_looks (hq : g.Queue) {es : List Event} (h : Unread i g es g') {s' : Session}
    (hs' : g'.session? i = some s') :
    ∃ s, g.session? i = some s ∧ es.countP (·.isLook i) + s'.looksLeft ≤ s.looksLeft := by
  induction es generalizing g with
  | nil =>
      cases h.run
      exact ⟨s', hs', by rw [List.countP_nil, Nat.zero_add]⟩
  | cons e es ih =>
      obtain ⟨g₁, hfirst, hrest⟩ := Option.bind_eq_some_iff.1 h.run
      obtain ⟨hread, hreads⟩ := List.forall_mem_cons.1 h.reads
      have hm := move_of_step? hfirst
      obtain ⟨s₁, hs₁, hlater⟩ := ih (hq.move hm) ⟨hreads, hrest⟩
      obtain ⟨s, hs, hnow⟩ := hm.looksLeft hq hread hs₁
      refine ⟨s, hs, ?_⟩
      rw [List.countP_cons]
      omega

/-! ## The loop does not get stuck -/

/-- A session can go on to where fewer legs are left, without a read. -/
def GoesOn (i : Nat) (g : SharedLog) (s : Session) : Prop :=
  ∃ es g' s', Unread i g es g' ∧ g'.session? i = some s' ∧ s'.legs < s.legs

section Leg

variable {s : Session} (hs : g.session? i = some s)

include hs

theorem goesOn_of_framing (hstage : s.stage = .framing) : GoesOn i g s :=
  ⟨_, _, _, unread_step rfl (step?_frame hs hstage), session?_setTask hs, Session.legs_frame hstage⟩

/-- A session that its token can wake leaves. -/
theorem goesOn_of_cancelled (hfired : g.isCancelled i = true)
    (hleave : (Task.session s).canLeave = true) (hlegs : 0 < s.legs) : GoesOn i g s :=
  ⟨_, _, _, unread_step rfl (step?_leave hs hfired hleave), session?_setTask hs, hlegs⟩

/-- The peer's side flushes. -/
theorem goesOn_of_flushing (hstage : s.stage = .flushing) : GoesOn i g s := by
  have hlegs : s.legs = 4 * s.held.length + 2 := by rw [Session.legs, hstage]
  cases hfired : g.isCancelled i with
  | true => exact goesOn_of_cancelled hs hfired (by rw [Task.canLeave, hstage]) (by omega)
  | false =>
      refine ⟨_, _, _, unread_step rfl (step?_flush hs hstage hfired (.ok ())), session?_setTask hs, ?_⟩
      rw [hlegs]
      exact Nat.lt_succ_self _

/-- The peer accepts all that is left to send. -/
theorem goesOn_of_echoing {left : Bytes} (hstage : s.stage = .echoing left) : GoesOn i g s := by
  have hlegs : s.legs = 4 * s.held.length + 3 := by rw [Session.legs, hstage]
  cases hfired : g.isCancelled i with
  | true => exact goesOn_of_cancelled hs hfired (by rw [Task.canLeave, hstage]) (by omega)
  | false =>
      refine ⟨_, _, _, unread_step rfl (step?_send hs hstage hfired (.ok left.length)),
        session?_setTask hs, ?_⟩
      rw [hlegs]
      exact Nat.lt_succ_of_le (s.legs_sent_all left)

/-- The store answers. -/
theorem goesOn_of_queued (hq : g.Queue) {packet : Bytes} (hstage : s.stage = .storing packet)
    (hqueued : g.isQueued i = true) : GoesOn i g s := by
  obtain ⟨es, -, -, hlock, -, hserved⟩ := hq.exists_service hqueued
  obtain ⟨rfl, hrun, -, ht, hstep, hanswered⟩ := hserved
  rename_i before after h h' t a
  cases (session?_eq_some.1 hs).symm.trans ht
  have hbefore : Unread i g before h := by
    refine ⟨?_, hrun⟩
    intro e he
    exact Event.isRead_eq_false_of_isOfLock (hlock e (List.mem_append_left _ he))
  refine ⟨_, _, _, hbefore.append (unread_step rfl hstep), session?_eq_some.2 hanswered, ?_⟩
  have hlegs : s.legs = 4 * s.held.length + 4 := by rw [Session.legs, hstage]
  rw [hlegs]
  exact Nat.lt_succ_of_le (s.legs_stored_le (Task.logOf a))

/-- The session asks for the lock, unless it has already. -/
theorem goesOn_of_storing (hq : g.Queue) {packet : Bytes} (hstage : s.stage = .storing packet) :
    GoesOn i g s := by
  cases hqueued : g.isQueued i with
  | true => exact goesOn_of_queued hs hq hstage hqueued
  | false =>
      have hstep := step?_ask (request?_of_storing hs hstage) hqueued
      have hjoined : ({ g with waiting := g.waiting ++ [(i, .echo packet)] } : SharedLog).isQueued i =
          true := by
        refine isQueued_iff.2 (.inr ?_)
        rw [List.map_append]
        exact List.mem_append_right _ List.mem_cons_self
      obtain ⟨es, g', s', hunread, hs', hless⟩ :=
        goesOn_of_queued (g := { g with waiting := g.waiting ++ [(i, .echo packet)] }) hs
          (hq.move (move_of_step? hstep)) hstage hjoined
      exact ⟨_, g', s', (unread_step rfl hstep).append hunread, hs', hless⟩

end Leg

/-- **A session that is not through can go on.** -/
theorem Queue.goesOn (hq : g.Queue) {s : Session} (hs : g.session? i = some s) :
    s.IsThrough ∨ GoesOn i g s := by
  cases hstage : s.stage with
  | receiving => exact .inl (.inl hstage)
  | ended result => exact .inl (.inr ⟨result, hstage⟩)
  | framing => exact .inr (goesOn_of_framing hs hstage)
  | flushing => exact .inr (goesOn_of_flushing hs hstage)
  | echoing left => exact .inr (goesOn_of_echoing hs hstage)
  | storing packet => exact .inr (goesOn_of_storing hs hq hstage)

/-- **From wherever it is, a session can get through with what it has read.** -/
theorem Queue.getsThrough (hq : g.Queue) {s : Session} (hs : g.session? i = some s) :
    ∃ es g' s', Unread i g es g' ∧ g'.session? i = some s' ∧ s'.IsThrough := by
  -- each leg leaves fewer legs, so the induction is on their number
  induction hn : s.legs using Nat.strong_induction_on generalizing g s with
  | _ n ih =>
      rcases hq.goesOn hs with hthrough | ⟨es, g₁, s₁, hleg, hs₁, hless⟩
      · exact ⟨[], g, s, ⟨fun _ m => absurd m List.not_mem_nil, rfl⟩, hs, hthrough⟩
      · obtain ⟨more, g', s', hrest, hs', hthrough⟩ := ih _ (hn ▸ hless) (hq.run hleg.run) hs₁ rfl
        exact ⟨es ++ more, g', s', hleg.append hrest, hs', hthrough⟩

end SharedLog

end EchoLog
