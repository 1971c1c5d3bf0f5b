import EchoLog.Proofs.Session.Identity
import EchoLog.Proofs.Session.Storing
import EchoLog.Proofs.SharedLog.Turns
/-!
# A session that has its store to itself comes to its end

Every event takes something off what is left to do (`SharedLog.remaining`): a read off what the peer has
to say, a look off what is held, a step of the lock off the request, a send off the log; and of the looks at
its token one counts in each wait.  So no run for an input is longer than a bound that depends only on the
input and the log (`At.length_run`); and until the session has ended something can happen (`At.can_go_on`).
-/

namespace EchoLog

/-- Reads that give a stream, so far: chunks from its front on, and no byte only at its end. -/
structure Reads (input : Bytes) (chunks : List Bytes) : Prop where
  front : chunks.flatten <+: input
  whole : [] ∈ chunks → chunks.flatten = input

/-- What a peer with something to say can say next. -/
theorem Reads.next {input : Bytes} {chunks : List Bytes} (h : Reads input chunks) {size : Nat}
    (hsize : 0 < size) : ∃ chunk : Bytes, chunk.length ≤ size ∧ Reads input (chunks ++ [chunk]) := by
  obtain ⟨rest, hrest⟩ := h.front
  cases rest with
  | nil =>
      rw [List.append_nil] at hrest
      refine ⟨[], Nat.zero_le _, ?_, ?_⟩
      · simp [hrest]
      · intro _
        simp [hrest]
  | cons b rest =>
      refine ⟨[b], hsize, ?_, ?_⟩
      · refine ⟨rest, ?_⟩
        simp [← hrest]
      · intro hempty
        have hwhole := h.whole (by simpa using hempty)
        rw [hwhole] at hrest
        simp at hrest

namespace SharedLog

variable {g g' : SharedLog} {c : Chronicle} {e : Event} {i : Nat}

/-! ## What is left to do -/

/-- The looks at its token that a session may still take in one wait. -/
def pollsLeft (s : Session) : Nat :=
  if s.polling then 0 else 1

theorem pollsLeft_le (s : Session) : pollsLeft s ≤ 1 := by
  rw [pollsLeft]
  split
  · exact Nat.zero_le 1
  · exact Nat.le_refl 1

/-- What is left to do for what a session is at; `longest` is a bound on the length of the log. -/
def effort (longest : Nat) (g : SharedLog) (s : Session) : Nat :=
  match s.stage with
  | .receiving => pollsLeft s + 1
  | .framing => 3
  | .flushing => pollsLeft s + 4
  | .echoing left => left.length + pollsLeft s + 5
  | .storing _ =>
    match g.holder with
    | some (_, w) => w.stepsLeft + longest + 7
    | none => if g.waiting.isEmpty then longest + 15 else longest + 14
  | .ended _ => 0

/-- What is left to do for an input of some length: what a session is at, and what it does with the
bytes that it holds and that it has not read. -/
def remaining (longest length : Nat) (g : SharedLog) (c : Chronicle) (s : Session) : Nat :=
  (length - (c.input 0).length) * (longest + 16) + s.held.length * (longest + 13) + g.effort longest s

section Remaining

variable {longest length : Nat} {s s' : Session} {c' : Chronicle}

/-- A read brings bytes, and takes them off what is not read. -/
theorem room_for_receive {i h k : Nat} (hk : 0 < k) (hlength : i + k ≤ length) :
    (length - (i + k)) * (longest + 16) + (h + k) * (longest + 13) + 3 <
      (length - i) * (longest + 16) + h * (longest + 13) + 1 := by
  obtain ⟨v, rfl⟩ : ∃ v, length = i + k + v := ⟨length - (i + k), by omega⟩
  have hv : i + k + v - (i + k) = v := by omega
  have hkv : i + k + v - i = k + v := by omega
  have hmore : k * (longest + 16) = k * (longest + 13) + k * 3 := Nat.mul_add k (longest + 13) 3
  rw [hv, hkv, Nat.add_mul, Nat.add_mul, hmore]
  omega

/-- A packet takes its bytes off what is held. -/
theorem room_for_packet (longest h : Nat) {k : Nat} (hk : 0 < k) :
    h * (longest + 13) + (longest + 15) < (k + h) * (longest + 13) + 3 := by
  obtain ⟨v, rfl⟩ : ∃ v, k = v + 1 := ⟨k - 1, by omega⟩
  rw [Nat.add_mul, Nat.add_mul, Nat.one_mul]
  omega

/-- Something is done, and nothing read or cut. -/
theorem remaining_lt_of_effort (hinput : c'.input 0 = c.input 0) (hheld : s'.held = s.held)
    (heffort : g'.effort longest s' < g.effort longest s) :
    g'.remaining longest length c' s' < g.remaining longest length c s := by
  rw [remaining, remaining, hinput, hheld]
  omega

theorem effort_echo_le (longest : Nat) (g : SharedLog) (s : Session) (left : Bytes) :
    g.effort longest (s.echo left) ≤ left.length + pollsLeft s + 5 := by
  cases left with
  | nil =>
      show pollsLeft s + 4 ≤ 0 + pollsLeft s + 5
      omega
  | cons b left => exact Nat.le_refl _

/-- A look at the token. -/
theorem effort_poll (hwaits : (Task.session s).canLeave = true) (hnot : s.polling = false) :
    g'.effort longest s.poll < g.effort longest s := by
  have hbefore : pollsLeft s = 1 := by rw [pollsLeft, hnot, if_neg Bool.false_ne_true]
  have hafter : pollsLeft s.poll = 0 := rfl
  have hstage : s.poll.stage = s.stage := rfl
  rw [effort, effort, hstage, hbefore, hafter]
  cases hs : s.stage with
  | receiving => exact Nat.lt_succ_self 1
  | echoing left => exact Nat.lt_succ_self _
  | flushing => exact Nat.lt_succ_self 4
  | _ => simp only [Task.canLeave, hs, Bool.false_eq_true] at hwaits

/-- Sending. -/
theorem effort_sent {left : Bytes} (hstage : s.stage = .echoing left) (result : Except IoError Nat) :
    g'.effort longest (s.sent left result) < g.effort longest s := by
  have heffort : g.effort longest s = left.length + pollsLeft s + 5 := by simp only [effort, hstage]
  rw [heffort]
  rcases result with cause | n
  · exact Nat.zero_lt_succ _
  · cases n with
    | zero => exact Nat.zero_lt_succ _
    | succ n =>
        cases left with
        | nil =>
            show pollsLeft s + 4 < 0 + pollsLeft s + 5
            omega
        | cons b left =>
            have hecho := effort_echo_le longest g' s (left.drop n)
            rw [List.length_drop] at hecho
            rw [List.length_cons]
            exact Nat.lt_of_le_of_lt hecho (by omega)

theorem effort_flushed (hstage : s.stage = .flushing) (result : Except IoError Unit) :
    g'.effort longest (s.flushed result) < g.effort longest s := by
  have heffort : g.effort longest s = pollsLeft s + 4 := by simp only [effort, hstage]
  rw [heffort]
  cases result with
  | error cause => exact Nat.zero_lt_succ _
  | ok _ =>
      show 3 < pollsLeft s + 4
      omega

theorem effort_of_holder {packet : Bytes} {w : Work} {i : Nat} (hstage : s.stage = .storing packet)
    (hw : g.holder = some (i, w)) : g.effort longest s = w.stepsLeft + longest + 7 := by
  simp only [effort, hstage, hw]

theorem effort_storing_le (longest : Nat) {packet : Bytes} (hstage : s.stage = .storing packet)
    (hholder : g.holder = none) : g.effort longest s ≤ longest + 15 := by
  simp only [effort, hstage, hholder]
  split <;> omega

end Remaining

namespace At

variable {base sent left : Bytes} {failures : List Failure} {s : Session} {due unread : List Bytes}
  {longest length : Nat}

/-- The log is made of what there was and of what was received. -/
theorem length_log_le (h : At base g c sent failures s due unread left)
    (hkeep : s.framer.remainder = .keep) :
    (base ++ (c.landed 0).flatten).length ≤ base.length + (c.input 0).length := by
  obtain ⟨rest, hrest, -⟩ := h.account.rest hkeep
  have hlength := congrArg List.length hrest
  rw [h.offered, List.flatten_append, List.append_assoc, List.length_append] at hlength
  rw [List.length_append]
  omega

/-- A read. -/
theorem remaining_receive (hstage : s.stage = .receiving) (input : Except IoError Bytes) (g' : SharedLog)
    (hlength : ((c.note g (.receive 0 input) g').input 0).length ≤ length) :
    g'.remaining longest length (c.note g (.receive 0 input) g') (s.receive input) <
      g.remaining longest length c s := by
  have heffort : g.effort longest s = pollsLeft s + 1 := by simp only [effort, hstage]
  have hinput : (c.note g (.receive 0 input) g').input 0 =
      c.input 0 ++ (share 0 (Event.receive 0 input).arrival).flatten := by
    simp only [Chronicle.note, Chronicle.input, share_append, List.flatten_append]
  rcases input with cause | chunk
  · refine remaining_lt_of_effort ?_ rfl ?_
    · rw [hinput]
      exact List.append_nil _
    · rw [heffort]
      exact Nat.zero_lt_succ _
  · cases chunk with
    | nil =>
        refine remaining_lt_of_effort ?_ rfl ?_
        · rw [hinput]
          exact List.append_nil _
        · rw [heffort]
          exact Nat.zero_lt_succ _
    | cons b chunk =>
        have harrival : (share 0 (Event.receive 0 (.ok (b :: chunk))).arrival).flatten = b :: chunk :=
          List.append_nil _
        rw [harrival] at hinput
        rw [hinput, List.length_append] at hlength
        rw [remaining, remaining, heffort, hinput, List.length_append]
        have hheld : (s.receive (.ok (b :: chunk))).held = s.held ++ b :: chunk := rfl
        have heffort' : g'.effort longest (s.receive (.ok (b :: chunk))) = 3 := rfl
        rw [hheld, heffort', List.length_append]
        exact Nat.lt_of_lt_of_le (room_for_receive (Nat.zero_lt_succ _) hlength) (by omega)

/-- A look. -/
theorem remaining_frame (h : At base g c sent failures s due unread left)
    (hkeep : s.framer.remainder = .keep) (hstage : s.stage = .framing) {g' : SharedLog}
    (hholder : g'.holder = none) (hinput : (c.note g (.frame 0) g').input 0 = c.input 0) :
    g'.remaining longest length (c.note g (.frame 0) g') s.frame <
      g.remaining longest length c s := by
  have heffort : g.effort longest s = 3 := by simp only [effort, hstage]
  have hpolls := pollsLeft_le s.frame
  rcases Framer.look_cases h.account.tracks with ⟨l, rest, hl, -, hheld, e⟩ | ⟨-, -, e⟩ | ⟨-, e⟩
  · have hnext : s.frame.stage = .storing l := by simp only [Session.frame, e]
    have hheld' : s.frame.held = rest := by
      simp only [Session.frame, e, hkeep, Remainder.kept]
    have heffort' := effort_storing_le longest hnext hholder
    have hroom := room_for_packet longest rest.length hl.length_pos
    rw [remaining, remaining, hinput, heffort, hheld, hheld', List.length_append]
    omega
  · have hnext : s.frame.stage = .receiving := by simp only [Session.frame, e]
    have heffort' : g'.effort longest s.frame = pollsLeft s.frame + 1 := by simp only [effort, hnext]
    refine remaining_lt_of_effort hinput (by simp only [Session.frame, e]) ?_
    rw [heffort, heffort']
    omega
  · refine remaining_lt_of_effort hinput (by simp only [Session.frame, e]) ?_
    rw [heffort]
    simp only [Session.frame, e, effort]
    omega

/-- An answer. -/
theorem effort_stored (h : At base g c sent failures s due unread left) {i : Nat} {answer : Answer}
    (hw : g.holder = some (i, .finished answer))
    (hlongest : (base ++ (c.landed 0).flatten).length ≤ longest) (g' : SharedLog) :
    g'.effort longest (s.stored (Task.logOf answer)) < g.effort longest s := by
  obtain ⟨rfl, packet, hstage⟩ := h.of_holder hw
  rw [effort_of_holder hstage hw]
  cases h.standing with
  | answered _ hholder _ =>
      cases hw.symm.trans hholder
      have hecho := effort_echo_le longest g' s (base ++ (c.landed 0).flatten)
      have hpolls := pollsLeft_le s
      simp only [Task.logOf, Session.stored, Work.stepsLeft]
      omega
  | failing _ hholder hfail _ =>
      cases hw.symm.trans hholder
      cases hfail
      exact Nat.zero_lt_succ _
  | writing _ hholder _ hbytes =>
      cases hw.symm.trans hholder
      cases hbytes
  | _ => simp_all

/-- Steps of the lock that leave the session as it is. -/
theorem effort_of_lock (h : At base g c sent failures s due unread left) (hm : Move g e g')
    (hs' : g'.session? 0 = some s) (he : e = .grant ∨ (∃ fault, e = .file fault) ∨ ∃ i, e = .ask i) :
    g'.effort longest s < g.effort longest s := by
  cases hm with
  | ask hr hqueued =>
      obtain ⟨hholder, hwaiting⟩ := h.waiting_eq_nil hr hqueued
      obtain ⟨-, packet, hstage, -⟩ := h.of_request? hr
      simp only [effort, hstage, hholder, hwaiting, List.nil_append, List.isEmpty_nil,
        List.isEmpty_cons, if_true, if_neg (Bool.false_ne_true)]
      omega
  | @grant i r rest hnone hw =>
      have hr := h.queue.waiting (i, r) (by rw [hw]; exact List.mem_cons_self)
      have hsteps := Work.stepsLeft_ofRequest_le g.store r
      obtain ⟨-, packet, hstage, -⟩ := h.of_request? hr
      simp only [effort, hstage, hnone, hw, List.isEmpty_cons, if_neg (Bool.false_ne_true)]
      omega
  | @file i w fault hw hmore =>
      obtain ⟨-, packet, hstage⟩ := h.of_holder hw
      have hsteps := Work.stepsLeft_step fault g.store g.disk hmore
      simp only [effort, hstage, hw]
      omega
  | own more ht hown => rcases he with rfl | ⟨_, rfl⟩ | ⟨_, rfl⟩ <;> cases hown
  | release => rcases he with e | ⟨_, e⟩ | ⟨_, e⟩ <;> cases e
  | fire => rcases he with e | ⟨_, e⟩ | ⟨_, e⟩ <;> cases e
  | outside => rcases he with e | ⟨_, e⟩ | ⟨_, e⟩ <;> cases e

/-- **Every event takes something off what is left to do.** -/
theorem remaining_lt (h : At base g c sent failures s due unread left)
    (hkeep : s.framer.remainder = .keep) (he : e.isInside = true) (hm : Move g e g')
    {s' : Session} (hs' : g'.session? 0 = some s')
    (hlength : ((c.note g e g').input 0).length ≤ length) (hlongest : base.length + length ≤ longest) :
    g'.remaining longest length (c.note g e g') s' < g.remaining longest length c s := by
  have ht' := session?_eq_some.1 hs'
  have hstill : g'.task? 0 = g.task? 0 → s' = s := by
    intro htask
    cases (htask.symm.trans ht').symm.trans h.task?_eq
    rfl
  cases hm with
  | @own i _ t t' more ht hown =>
      obtain ⟨rfl, rfl⟩ := h.of_task? ht
      rw [h.isCancelled_eq] at hown
      cases (task?_report_self ht more).symm.trans ht'
      cases hown with
      | poll hwaits hnot _ => exact remaining_lt_of_effort rfl rfl (effort_poll hwaits hnot)
      | receive hstage _ _ => exact remaining_receive hstage _ _ hlength
      | frame hstage => exact h.remaining_frame hkeep hstage (h.holder_of_framing hstage) rfl
      | send hstage _ => exact remaining_lt_of_effort rfl (s.held_sent _ _) (effort_sent hstage _)
      | flush hstage _ => exact remaining_lt_of_effort rfl (s.held_flushed _) (effort_flushed hstage _)
      | leave _ hfired => cases hfired
  | ask hr hqueued =>
      cases hstill rfl
      refine remaining_lt_of_effort rfl rfl ?_
      exact h.effort_of_lock (.ask hr hqueued) hs' (.inr (.inr ⟨_, rfl⟩))
  | grant hnone hw =>
      cases hstill rfl
      exact remaining_lt_of_effort rfl rfl (h.effort_of_lock (.grant hnone hw) hs' (.inl rfl))
  | file hw hmore =>
      cases hstill rfl
      exact remaining_lt_of_effort rfl rfl (h.effort_of_lock (.file hw hmore) hs' (.inr (.inl ⟨_, rfl⟩)))
  | @release i answer t hw ht =>
      obtain ⟨rfl, rfl⟩ := h.of_task? ht
      have hself : ({ g.setTask 0 ((Task.session s).answered answer) with holder := none } :
          SharedLog).task? 0 = some ((Task.session s).answered answer) := task?_setTask_self ht
      cases hself.symm.trans ht'
      have hlog := h.length_log_le hkeep
      refine remaining_lt_of_effort rfl (s.held_stored _) (h.effort_stored hw ?_ _)
      exact hlog.trans ((Nat.add_le_add_left hlength _).trans hlongest)
  | fire hi => cases he
  | outside change => cases he

end At

theorem length_input_le {c c' : Chronicle} (h : share i c.received <+: share i c'.received) :
    (c.input i).length ≤ (c'.input i).length := by
  obtain ⟨more, hmore⟩ := h
  rw [Chronicle.input, Chronicle.input, ← hmore, List.flatten_append, List.length_append]
  omega

end SharedLog

open SharedLog

theorem Traced.received_prefix {t t' : Traced} {es : List Event} (hrun : t.run? es = some t')
    (i : Nat) : share i t.past.received <+: share i t'.past.received :=
  run_moves (P := fun _ c => share i t.past.received <+: share i c.received)
    (fun h _ => h.trans ⟨_, (Chronicle.received_note _ _ _ _ i).symm⟩) (List.prefix_refl _) hrun

namespace SharedLog

variable {base sent : Bytes} {failures : List Failure} {peer : Endpoint}
  {settings : SessionSettings}

/-- **A run is as long as what it takes off what is left to do, at most.** -/
theorem Alone.length_run {t t' : Traced} {es : List Event}
    (h : Alone base t.now t.past sent failures) (hkeep : settings.remainder = .keep)
    (hsession : ∀ s, t.now.session? 0 = some s → s.IsOf peer settings)
    (hinside : es.all Event.isInside = true) (hrun : t.run? es = some t') {longest length : Nat}
    (hlength : (t'.past.input 0).length ≤ length) (hlongest : base.length + length ≤ longest)
    {s s' : Session} (hs : t.now.session? 0 = some s) (hs' : t'.now.session? 0 = some s') :
    es.length + t'.now.remaining longest length t'.past s' ≤
      t.now.remaining longest length t.past s := by
  induction es generalizing t s sent failures with
  | nil =>
      cases hrun
      cases hs.symm.trans hs'
      exact Nat.le_of_eq (Nat.zero_add _)
  | cons e es ih =>
      obtain ⟨u, hu, hrest⟩ := Option.bind_eq_some_iff.1 hrun
      obtain ⟨g, hg, rfl⟩ := Option.map_eq_some_iff.1 hu
      rw [List.all_cons, Bool.and_eq_true] at hinside
      have hm := move_of_step? hg
      have hnext := h.move hinside.1 hm
      have hr : ∃ r, g.session? 0 = some r := by
        obtain ⟨r, _, _, _, hat⟩ := hnext
        exact ⟨r, session?_eq_some.2 hat.task?_eq⟩
      obtain ⟨r, hr⟩ := hr
      have hrest' : es.length + t'.now.remaining longest length t'.past s' ≤
          g.remaining longest length (t.past.note t.now e g) r :=
        ih hnext (hm.isOf hsession) hinside.2 hrest hr
      obtain ⟨s₀, _, _, _, hat₀⟩ := h
      cases hs.symm.trans (session?_eq_some.2 hat₀.task?_eq)
      have hshort := (length_input_le (Traced.received_prefix hrest 0)).trans hlength
      have hless := hat₀.remaining_lt ((hsession s hs).remainder.trans hkeep) hinside.1 hm hr hshort
        hlongest
      rw [List.length_cons]
      omega

/-! ## Until the end something can happen -/

namespace At

variable {g : SharedLog} {c : Chronicle} {s : Session} {due unread : List Bytes} {left : Bytes}

theorem read_enabled (h : At base g c sent failures s due unread left) (hstage : s.stage = .receiving)
    {chunk : Bytes} (hchunk : chunk.length ≤ s.readSize) :
    ∃ g', g.step? (.receive 0 (.ok chunk)) = some g' :=
  step?_receive (session?_eq_some.2 h.task?_eq) hstage h.isCancelled_eq (decide_eq_true hchunk)

/-- A session that does not wait for bytes has something to do that is no read. -/
theorem still_enabled (h : At base g c sent failures s due unread left) (hresult : s.result? = none)
    (hstage : s.stage ≠ .receiving) :
    ∃ e : Event, e.isInside = true ∧ e.arrival = [] ∧ (g.step? e).isSome = true := by
  have hs := session?_eq_some.2 h.task?_eq
  cases hs' : s.stage with
  | receiving => exact absurd hs' hstage
  | framing =>
      refine ⟨.frame 0, rfl, rfl, ?_⟩
      rw [step?_frame hs hs', Option.isSome_some]
  | storing packet =>
      have hr := request?_of_storing hs hs'
      cases hqueued : g.isQueued 0 with
      | true =>
          obtain ⟨e, he, g', hg'⟩ := h.queue.lock_can_move hqueued
          simp only [List.mem_cons, List.not_mem_nil, or_false] at he
          rcases he with rfl | rfl | rfl <;> exact ⟨_, rfl, rfl, by rw [hg', Option.isSome_some]⟩
      | false =>
          refine ⟨.ask 0, rfl, rfl, ?_⟩
          rw [step?_ask hr hqueued, Option.isSome_some]
  | echoing left =>
      refine ⟨.send 0 (.ok 1), rfl, rfl, ?_⟩
      rw [step?_send hs hs' h.isCancelled_eq, Option.isSome_some]
  | flushing =>
      refine ⟨.flush 0 (.ok ()), rfl, rfl, ?_⟩
      rw [step?_flush hs hs' h.isCancelled_eq, Option.isSome_some]
  | ended r =>
      rw [Session.result?, hs'] at hresult
      cases hresult

/-- **Until its end a session that has its store to itself can go on**, with what its peer has to say. -/
theorem can_go_on {t : Traced} (h : At base t.now t.past sent failures s due unread left)
    (hsize : 0 < s.readSize) (hresult : s.result? = none) {input : Bytes}
    (hreads : Reads input (share 0 t.past.received)) :
    ∃ e t', e.isInside = true ∧ t.step? e = some t' ∧ Reads input (share 0 t'.past.received) := by
  by_cases hstage : s.stage = .receiving
  · obtain ⟨chunk, hchunk, hnext⟩ := hreads.next hsize
    obtain ⟨g', hg'⟩ := h.read_enabled hstage hchunk
    refine ⟨_, ⟨g', _⟩, rfl, by rw [Traced.step?, hg', Option.map_some], ?_⟩
    rw [Chronicle.received_note]
    exact hnext
  · obtain ⟨e, hinside, harrival, henabled⟩ := h.still_enabled hresult hstage
    obtain ⟨g', hg'⟩ := Option.isSome_iff_exists.1 henabled
    refine ⟨e, ⟨g', _⟩, hinside, by rw [Traced.step?, hg', Option.map_some], ?_⟩
    rw [Chronicle.received_note, harrival, share_nil, List.append_nil]
    exact hreads

end At

end SharedLog

end EchoLog
