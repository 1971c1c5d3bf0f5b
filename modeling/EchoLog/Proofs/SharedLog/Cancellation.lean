import EchoLog.Proofs.SharedLog.Linear
import EchoLog.Proofs.SharedLog.Polls
import EchoLog.Proofs.SharedLog.Turns
/-!
# Sessions whose token has fired

A token is for good (`Move.isCancelled`).  From the moment it has fired the session has no more to do
with its peer than what is left of one poll (`RestOfPoll`, in `EchoLog.Proofs.SharedLog.Polls`), and it may
commit one packet more at most (`Move.spends`): the one that it is having stored, or the next one in what it
holds (`SharedLog.unsettled`, `Move.settles`), or the next one after the rest of the poll.  If it was waiting
for its peer it can do nothing but leave, that rest apart; if it was having a packet stored, it waits for the
store as if nothing had happened, and the store comes to its end (`Pursues`, in
`EchoLog.Proofs.SharedLog.Turns`).

The rest of a poll is not nothing: a session that waits for a read when its token fires can still commit a
packet (`read_outruns_token`).

`LeavesCleanly` puts this together for a run on a log that was just created, from any moment at which
the token has fired to any later one.
-/

namespace EchoLog

namespace SharedLog

variable {g g' : SharedLog} {c : Chronicle} {e : Event} {i : Nat}

/-- A session whose token has fired, and that has nothing to do with its peer, looks for a packet or
leaves. -/
theorem own_cases {s : Session} {t' : Task} (hown : Task.Own i true e (.session s) t')
    (hsilent : e.isContact i = false) :
    (s.stage = .framing ∧ t' = .session s.frame) ∨
      ((Task.session s).canLeave = true ∧ t' = .session s.leave) := by
  have hcontact : (i == i) = true := beq_self_eq_true i
  cases hown with
  | poll _ _ hfree => cases hfree
  | receive => cases hcontact.symm.trans hsilent
  | frame hstage => exact .inl ⟨hstage, rfl⟩
  | send => cases hcontact.symm.trans hsilent
  | flush => cases hcontact.symm.trans hsilent
  | leave hleave => exact .inr ⟨hleave, rfl⟩

/-! ## What it may still commit -/

/-- What is not committed yet of a packet that a task is having stored: all or nothing. -/
def inStore (holder : Option (Nat × Work)) (i : Nat) (packet : Bytes) : List Bytes :=
  match holder with
  | some (j, w) => if j = i then w.bytes?.toList else [packet]
  | none => [packet]

theorem inStore_of_holder {holder : Option (Nat × Work)} {w : Work} (h : holder = some (i, w))
    (packet : Bytes) : inStore holder i packet = w.bytes?.toList := by
  subst h
  exact if_pos rfl

theorem inStore_other {j : Nat} (hji : j ≠ i) (w : Work) (packet : Bytes) :
    inStore (some (j, w)) i packet = [packet] :=
  if_neg hji

theorem inStore_of_holder_ne {holder : Option (Nat × Work)} (h : ∀ w, holder ≠ some (i, w))
    (packet : Bytes) : inStore holder i packet = [packet] := by
  unfold inStore
  split
  · rename_i j w
    refine inStore_other ?_ w packet
    rintro rfl
    exact h w rfl
  · rfl

/-- Another handle to the file is no other packet. -/
theorem inStore_withHandle (f : Handle → Handle) (holder : Option (Nat × Work)) (packet : Bytes) :
    inStore (holder.map fun (j, w) => (j, w.withHandle f)) i packet = inStore holder i packet := by
  have hbytes : ∀ w : Work, (w.withHandle f).bytes? = w.bytes? := by
    intro w
    cases w <;> rfl
  cases holder with
  | none => rfl
  | some p => simp only [inStore, Option.map_some, hbytes]

/-- The packet that a session whose token has fired may still commit: the one that it is having stored,
as long as that is not committed, or the next that it finds in what it holds. -/
def unsettled (g : SharedLog) (i : Nat) : List Bytes :=
  match g.session? i with
  | none => []
  | some s =>
    match s.stage with
    | .framing => (Task.session s.frame).ready
    | .storing packet => inStore g.holder i packet
    | _ => []

section Unsettled

variable {s : Session}

theorem unsettled_of_framing (hs : g.session? i = some s) (hstage : s.stage = .framing) :
    g.unsettled i = (Task.session s.frame).ready := by
  simp only [unsettled, hs, hstage]

theorem unsettled_of_storing {packet : Bytes} (hs : g.session? i = some s)
    (hstage : s.stage = .storing packet) : g.unsettled i = inStore g.holder i packet := by
  simp only [unsettled, hs, hstage]

/-- A session that does not hold the lock has unsettled what it has ready, or will have next. -/
theorem unsettled_of_ready (hs : g.session? i = some s) (hw : ∀ w, g.holder ≠ some (i, w))
    (hstage : s.stage ≠ .framing) : g.unsettled i = (Task.session s).ready := by
  cases hs' : s.stage with
  | storing packet =>
      rw [unsettled_of_storing hs hs', inStore_of_holder_ne hw]
      simp only [Task.ready, Task.request?, hs', Option.bind_some, Request.bytes?, Option.toList_some]
  | framing => exact absurd hs' hstage
  | _ => simp only [unsettled, hs, Task.ready, Task.request?, hs', Option.bind_none,
      Option.toList_none]

theorem unsettled_of_inStore (htask : g'.task? i = g.task? i)
    (hstore : ∀ packet, g.request? i = some (.echo packet) →
      inStore g'.holder i packet = inStore g.holder i packet) : g'.unsettled i = g.unsettled i := by
  have hsession : g'.session? i = g.session? i := by rw [session?, session?, htask]
  cases hs : g.session? i with
  | none => simp only [unsettled, hsession, hs]
  | some s =>
      cases hstage : s.stage with
      | storing packet =>
          rw [unsettled_of_storing hs hstage, unsettled_of_storing (hsession.trans hs) hstage]
          exact hstore packet (request?_of_storing hs hstage)
      | _ => simp only [unsettled, hsession, hs, hstage]

/-- It is one packet at most. -/
theorem length_unsettled_le (g : SharedLog) (i : Nat) : (g.unsettled i).length ≤ 1 := by
  have htoList : ∀ o : Option Bytes, o.toList.length ≤ 1 := by
    intro o
    cases o <;> simp
  unfold unsettled
  split
  · exact Nat.zero_le 1
  · split
    · exact htoList _
    · unfold inStore
      split
      · split
        · exact htoList _
        · exact Nat.le_refl 1
      · exact Nat.le_refl 1
    · exact Nat.zero_le 1

theorem unsettled_of_canLeave (hs : g.session? i = some s) (h : (Task.session s).canLeave = true) :
    g.unsettled i = [] := by
  cases hs' : s.stage <;> simp_all [Task.canLeave, unsettled]

/-- A session that waits for its peer, or is about to, or has come to its end, has nothing unsettled. -/
theorem unsettled_eq_nil (hs : g.session? i = some s) (htracks : s.framer.Tracks s.held)
    (h : (Task.session s).canLeave = true ∨ (s.stage = .framing ∧ newline ∉ s.held) ∨
      s.result?.isSome = true) : g.unsettled i = [] := by
  rcases h with h | ⟨hstage, hopen⟩ | h
  · exact unsettled_of_canLeave hs h
  · rw [unsettled_of_framing hs hstage]
    rcases Framer.look_cases htracks with ⟨l, rest, hl, -, hheld, -⟩ | ⟨-, -, e⟩ | ⟨-, e⟩
    · obtain ⟨body, -, rfl⟩ := hl
      rw [hheld] at hopen
      simp at hopen
    · simp only [Session.frame, e, Task.ready, Task.request?, Option.bind_none, Option.toList_none]
    · simp only [Session.frame, e, Task.ready, Task.request?, Option.bind_none, Option.toList_none]
  · cases hs' : s.stage <;> simp_all [Session.result?, unsettled]

end Unsettled

/-- What a session commits in a step comes off what it had unsettled. -/
def Settles (i : Nat) (g : SharedLog) (c : Chronicle) (g' : SharedLog) (c' : Chronicle) : Prop :=
  ∃ done, c'.landed i = c.landed i ++ done ∧ done ++ g'.unsettled i <+: g.unsettled i

theorem Settles.trans {g'' : SharedLog} {c' c'' : Chronicle} (h : Settles i g c g' c')
    (h' : Settles i g' c' g'' c'') : Settles i g c g'' c'' := by
  obtain ⟨done, hlanded, hdone⟩ := h
  obtain ⟨done', hlanded', hdone'⟩ := h'
  refine ⟨done ++ done', by rw [hlanded', hlanded, List.append_assoc], ?_⟩
  rw [List.append_assoc]
  exact ((List.prefix_append_right_inj done).2 hdone').trans hdone

/-- A session of which nothing is noted, and whose packet is as far as it was. -/
theorem settles_of_inStore {c' : Chronicle} (hlanded : c'.landed i = c.landed i)
    (htask : g'.task? i = g.task? i)
    (hstore : ∀ packet, g.request? i = some (.echo packet) →
      inStore g'.holder i packet = inStore g.holder i packet) : Settles i g c g' c' := by
  refine ⟨[], by rw [hlanded, List.append_nil], [], ?_⟩
  rw [unsettled_of_inStore htask hstore, List.append_nil, List.nil_append]

section Settling

variable {s : Session} {packet : Bytes}

/-- A session that looks for a packet or leaves. -/
theorem settles_own {t' : Task} (hs : g.session? i = some s) (hself : g'.task? i = some t')
    (hfree : ∀ w, g'.holder ≠ some (i, w)) {c' : Chronicle} (hlanded : c'.landed i = c.landed i)
    (h : (s.stage = .framing ∧ t' = .session s.frame) ∨
      ((Task.session s).canLeave = true ∧ t' = .session s.leave)) : Settles i g c g' c' := by
  refine ⟨[], by rw [hlanded, List.append_nil], ?_⟩
  rcases h with ⟨hstage, rfl⟩ | ⟨-, rfl⟩
  · have hnext : s.frame.stage ≠ .framing := by
      simp only [Session.frame]
      split <;> simp
    refine ⟨[], ?_⟩
    rw [unsettled_of_ready (session?_eq_some.2 hself) hfree hnext, unsettled_of_framing hs hstage,
      List.append_nil, List.nil_append]
  · rw [unsettled_of_ready (session?_eq_some.2 hself) hfree (by simp [Session.leave])]
    exact List.nil_prefix

/-- A file step of the session's own request commits its packet, or gives it up, or goes on. -/
theorem settles_file {w w' : Work} {fault : Option Fault} (hs : g.session? i = some s)
    (hstage : s.stage = .storing packet) (htask : g'.task? i = g.task? i)
    (hw : g.holder = some (i, w)) (hw' : g'.holder = some (i, w'))
    (hcourse : w'.isFailing = true ∨ (w'.isPast = true ∧ w.isFailing = false) ∨
      ∃ bytes, w.bytes? = some bytes ∧ w'.bytes? = some bytes) :
    Settles i g c g' (c.note g (.file fault) g') := by
  have hs' : g'.session? i = some s := by rw [session?, htask]; exact hs
  refine ⟨w.landing w', (c.landed_file fault hw hw').1, ?_⟩
  rw [unsettled_of_storing hs hstage, inStore_of_holder hw, unsettled_of_storing hs' hstage,
    inStore_of_holder hw']
  rcases hcourse with hfail | ⟨hpast, -⟩ | ⟨bytes, hb, hb'⟩
  · have hnone : w'.bytes? = none := by
      cases hb : w'.bytes? with
      | none => rfl
      | some bytes =>
          rw [(Work.isWriting_of_bytes? hb).2.2] at hfail
          cases hfail
    rw [Work.landing_of_not_isPast (Work.isPast_eq_false hfail), hnone]
    exact List.nil_prefix
  · refine ⟨[], ?_⟩
    rw [Work.landing_of_isPast hpast, bytes?_of_isPast hpast, Option.toList_none, List.append_nil,
      List.append_nil]
  · refine ⟨[], ?_⟩
    rw [Work.landing_of_not_isPast (Work.isWriting_of_bytes? hb').2.1, hb, hb', List.append_nil,
      List.nil_append]

/-- A session is answered: its packet is committed by then, or given up. -/
theorem settles_release {answer : Answer} (hself : g'.task? i = some ((Task.session s).answered answer))
    (hfree : g'.holder = none) {c' : Chronicle} (hlanded : c'.landed i = c.landed i) :
    Settles i g c g' c' := by
  refine ⟨[], by rw [hlanded, List.append_nil], ?_⟩
  have hnext : (s.stored (Task.logOf answer)).stage ≠ .framing := by
    cases Task.logOf answer with
    | error f => simp [Session.stored, Session.fail]
    | ok log =>
        simp only [Session.stored, Session.echo]
        split <;> simp
  have hready : (Task.session (s.stored (Task.logOf answer))).ready = [] :=
    Task.ready_answered (.session s) answer
  rw [unsettled_of_ready (session?_eq_some.2 hself) (holder_ne_of_free hfree) hnext, hready]
  exact List.nil_prefix

/-- **Once its token has fired a session commits what it had unsettled, and nothing else**, as long as it
has nothing to do with its peer. -/
theorem Move.settles (hm : Move g e g') (hq : g.Queue) (hs : g.session? i = some s)
    (hfired : g.isCancelled i = true) (hsilent : e.isContact i = false) :
    Settles i g c g' (c.note g e g') := by
  have ht := session?_eq_some.1 hs
  cases hm with
  | @own k _ t t' more htk hown =>
      rw [Chronicle.note_own hown (task?_report_self htk more)]
      by_cases hki : k = i
      · subst hki
        cases ht.symm.trans htk
        have hfree : ∀ w, g.holder ≠ some (k, w) := fun w hw => hq.holder_ne_of_own ht hown hw rfl
        rw [hfired] at hown
        exact settles_own hs (task?_report_self ht more) hfree rfl (own_cases hown hsilent)
      · exact settles_of_inStore rfl (task?_setTask_other (Ne.symm hki)) fun _ _ => rfl
  | ask hr hqueued => exact settles_of_inStore rfl rfl fun _ _ => rfl
  | @grant k r rest hnone hw =>
      have hr := hq.waiting (k, r) (by rw [hw]; exact List.mem_cons_self)
      refine settles_of_inStore rfl rfl ?_
      intro packet hpacket
      rw [inStore_of_holder_ne (holder_ne_of_free hnone)]
      by_cases hki : k = i
      · subst hki
        cases hr.symm.trans hpacket
        exact inStore_of_holder rfl packet
      · exact inStore_other hki _ packet
  | @file k w fault hw hmore =>
      have hcourse := Work.step_course fault g.store g.disk hmore
      by_cases hki : k = i
      · subst hki
        obtain ⟨packet, hstage⟩ := hq.storing_of_holder hs hw
        exact settles_file hs hstage rfl hw rfl hcourse
      · refine settles_of_inStore ((c.landed_file fault hw rfl).2 i hki) rfl ?_
        · intro packet _
          rw [inStore_of_holder_ne (holder_ne_of_ne hw hki)]
          exact inStore_other hki _ packet
  | @release k a t hw htk =>
      by_cases hki : k = i
      · subst hki
        cases ht.symm.trans htk
        have hself : ({ g.setTask k ((Task.session s).answered a) with holder := none } :
            SharedLog).task? k = some ((Task.session s).answered a) := task?_setTask_self ht
        exact settles_release hself rfl rfl
      · refine settles_of_inStore rfl (task?_setTask_other (Ne.symm hki)) ?_
        intro packet _
        rw [inStore_of_holder_ne (holder_ne_of_ne hw hki)]
        rfl
  | fire hk => exact settles_of_inStore rfl (task?_fire g _ i) fun _ _ => rfl
  | outside change =>
      exact settles_of_inStore rfl rfl fun packet _ => inStore_withHandle _ g.holder packet

/-! ## How many packets it may still commit -/

/-- How many packets a session whose token has fired may still commit: one, if it has turned to its peer, for
what comes of that, or else what it has unsettled. -/
def allowance (g : SharedLog) (i : Nat) : Nat :=
  if (g.session? i).any Session.isTurning then 1 else (g.unsettled i).length

theorem allowance_le (g : SharedLog) (i : Nat) : g.allowance i ≤ 1 := by
  rw [allowance]
  split
  · exact Nat.le_refl 1
  · exact length_unsettled_le g i

theorem allowance_of_turning (hs : g.session? i = some s) (h : s.isTurning = true) :
    g.allowance i = 1 := by
  rw [allowance, hs, Option.any_some, if_pos h]

theorem allowance_of_not (hs : g.session? i = some s) (h : s.isTurning = false) :
    g.allowance i = (g.unsettled i).length := by
  rw [allowance, hs, Option.any_some, h, if_neg Bool.false_ne_true]

/-- What a session commits comes off what it is allowed. -/
def Spends (i : Nat) (g : SharedLog) (c : Chronicle) (g' : SharedLog) (c' : Chronicle) : Prop :=
  ∃ done, c'.landed i = c.landed i ++ done ∧ done.length + g'.allowance i ≤ g.allowance i

theorem Spends.trans {g'' : SharedLog} {c' c'' : Chronicle} (h : Spends i g c g' c')
    (h' : Spends i g' c' g'' c'') : Spends i g c g'' c'' := by
  obtain ⟨done, hlanded, hdone⟩ := h
  obtain ⟨done', hlanded', hdone'⟩ := h'
  refine ⟨done ++ done', by rw [hlanded', hlanded, List.append_assoc], ?_⟩
  rw [List.length_append]
  omega

/-- What comes of a poll: nothing is committed in it, and one packet may be next. -/
theorem Move.spends_of_contact (hm : Move g e g') (hs : g.session? i = some s)
    (hfired : g.isCancelled i = true) (hcontact : e.isContact i = true) :
    Spends i g c g' (c.note g e g') := by
  cases hm with
  | @own k _ t t' more ht hown =>
      have hki : k = i := by
        by_contra hne
        have hplace : e.place? ≠ some i := by
          rw [hown.place?]
          exact fun hk => hne (Option.some.inj hk)
        rw [isContact_of_place? hplace] at hcontact
        cases hcontact
      subst hki
      cases (session?_eq_some.1 hs).symm.trans ht
      rw [hfired] at hown
      have hturning : s.isTurning = true := hown.isTurning_of_contact hcontact
      refine ⟨[], ?_, ?_⟩
      · rw [Chronicle.note_own hown (task?_report_self ht more), List.append_nil]
        rfl
      · rw [allowance_of_turning hs hturning, List.length_nil, Nat.zero_add]
        exact allowance_le _ k
  | _ => cases hcontact

/-- **Once its token has fired a session commits one packet more at most.** -/
theorem Move.spends (hm : Move g e g') (hq : g.Queue) (hs : g.session? i = some s)
    (hwait : s.PollsInWait) (hfired : g.isCancelled i = true) : Spends i g c g' (c.note g e g') := by
  cases hcontact : e.isContact i with
  | true => exact hm.spends_of_contact hs hfired hcontact
  | false =>
      obtain ⟨done, hlanded, hdone⟩ := hm.settles (c := c) hq hs hfired hcontact
      refine ⟨done, hlanded, ?_⟩
      have hlength := hdone.length_le
      rw [List.length_append] at hlength
      obtain ⟨s', hs', -⟩ := hm.session?_kind hs
      cases hturning : s.isTurning with
      | true =>
          rw [Session.isTurning, Bool.and_eq_true] at hturning
          rw [unsettled_of_canLeave hs hturning.2, List.length_nil] at hlength
          have hle := allowance_le g' i
          rw [allowance_of_turning hs (Bool.and_eq_true _ _ ▸ hturning)]
          omega
      | false =>
          have hturning' := hm.isTurning_eq_false hq hs hwait hfired hs' hturning
          rw [allowance_of_not hs hturning, allowance_of_not hs' hturning']
          exact hlength

end Settling

/-! ## What it can still do -/

/-- A session that waits for its peer after its token has fired leaves, sooner or later: it is as it was,
and can leave, or it has left. -/
def Leaves (g : SharedLog) (i : Nat) (s : Session) : Prop :=
  (g.session? i = some s ∧ ∃ g', g.step? (.leave i) = some g' ∧ g'.session? i = some s.leave) ∨
    g.session? i = some s.leave

theorem leave_enabled {s : Session} (hs : g.session? i = some s) (hfired : g.isCancelled i = true)
    (hleave : (Task.session s).canLeave = true) :
    ∃ g', g.step? (.leave i) = some g' ∧ g'.session? i = some s.leave :=
  ⟨_, step?_leave hs hfired hleave, session?_setTask hs⟩

/-- **It cannot do anything else**, but what is left of a poll. -/
theorem Move.leaves (hm : Move g e g') (hq : g.Queue) {s : Session}
    (hleave : (Task.session s).canLeave = true) (hfired : g.isCancelled i = true)
    (hsilent : e.isContact i = false) (h : g.Leaves i s) : g'.Leaves i s := by
  have hsame : g'.task? i = g.task? i → g'.Leaves i s := by
    intro htask
    have hsession : g'.session? i = g.session? i := by rw [session?, session?, htask]
    rcases h with ⟨hs, -⟩ | hs
    · have hs' := hsession.trans hs
      exact .inl ⟨hs', leave_enabled hs' (hm.isCancelled hfired) hleave⟩
    · exact .inr (hsession.trans hs)
  cases hm with
  | @own k _ t t' more ht hown =>
      by_cases hki : k = i
      · subst hki
        rw [hfired] at hown
        rcases h with ⟨hs, -⟩ | hs
        · cases (session?_eq_some.1 hs).symm.trans ht
          rcases own_cases hown hsilent with ⟨hstage, rfl⟩ | ⟨-, rfl⟩
          · simp only [Task.canLeave, hstage] at hleave
            cases hleave
          · exact .inr (session?_eq_some.2 (task?_report_self ht more))
        · -- a session that has left does nothing
          cases (session?_eq_some.1 hs).symm.trans ht
          rcases own_cases hown hsilent with ⟨hstage, -⟩ | ⟨hleave', -⟩
          · cases hstage
          · cases hleave'
      · exact hsame (task?_setTask_other (Ne.symm hki))
  | ask => exact hsame rfl
  | grant => exact hsame rfl
  | file => exact hsame rfl
  | @release k a t hw ht =>
      by_cases hki : k = i
      · subst hki
        obtain ⟨r, hr, -⟩ := hq.holder k _ hw
        rcases h with ⟨hs, -⟩ | hs
        · rw [request?, session?_eq_some.1 hs, Option.bind_some] at hr
          cases hstage : s.stage <;> simp_all [Task.request?, Task.canLeave]
        · rw [request?, session?_eq_some.1 hs, Option.bind_some] at hr
          cases hr
      · exact hsame (task?_setTask_other (Ne.symm hki))
  | fire => exact hsame (task?_fire g _ i)
  | outside => exact hsame rfl

/-! ## From the firing on -/

theorem received_of_isContact (h : e.isContact i = false) :
    share i (c.note g e g').received = share i c.received := by
  have harrival : share i e.arrival = [] := by
    cases e with
    | receive j input =>
        have hji : j ≠ i := beq_eq_false_iff_ne.1 h
        cases input with
        | error cause => rfl
        | ok chunk => exact share_other hji [chunk]
    | _ => rfl
  rw [Chronicle.received_note, harrival, List.append_nil]

/-- What a session whose token fired at some moment keeps from then on. -/
structure Halted (i : Nat) (t : Traced) (s : Session) (g : SharedLog) (c : Chronicle) : Prop where
  queue : g.Queue
  fired : g.isCancelled i = true
  waits : ∀ s, g.session? i = some s → s.PollsInWait
  kind : (g.task? i).map Task.kind = some (Task.session s).kind
  spends : Spends i t.now t.past g c

theorem Halted.move {t : Traced} {s : Session} (h : Halted i t s g c) (hm : Move g e g') :
    Halted i t s g' (c.note g e g') := by
  obtain ⟨s', hs', -⟩ := exists_session_of_kind h.kind
  exact
    { queue := h.queue.move hm
      fired := hm.isCancelled h.fired
      waits := hm.pollsInWait h.waits
      kind := (hm.kind i).trans h.kind
      spends := h.spends.trans (hm.spends h.queue hs' (h.waits s' hs') h.fired) }

/-- What it keeps besides, as long as it has nothing to do with its peer. -/
structure Quieted (i : Nat) (t : Traced) (s : Session) (g : SharedLog) (c : Chronicle) : Prop where
  settles : Settles i t.now t.past g c
  received : share i c.received = share i t.past.received
  leaves : (Task.session s).canLeave = true → g.Leaves i s

theorem Quieted.move {t : Traced} {s : Session} (h : Quieted i t s g c) (hhalted : Halted i t s g c)
    (hsilent : e.isContact i = false) (hm : Move g e g') : Quieted i t s g' (c.note g e g') := by
  obtain ⟨s', hs', -⟩ := exists_session_of_kind hhalted.kind
  exact
    { settles := h.settles.trans (hm.settles hhalted.queue hs' hhalted.fired hsilent)
      received := (received_of_isContact hsilent).trans h.received
      leaves := fun hleave =>
        hm.leaves hhalted.queue hleave hhalted.fired hsilent (h.leaves hleave) }

theorem settles_refl (i : Nat) (g : SharedLog) (c : Chronicle) : Settles i g c g c :=
  ⟨[], (List.append_nil _).symm, List.prefix_refl _⟩

theorem spends_refl (i : Nat) (g : SharedLog) (c : Chronicle) : Spends i g c g c :=
  ⟨[], (List.append_nil _).symm, Nat.le_of_eq (Nat.zero_add _)⟩

/-- A run in which the session has nothing to do with its peer. -/
theorem Halted.quieted_of_run {t t' : Traced} {s : Session} {es : List Event}
    (h : Halted i t s t.now t.past) (hs : t.now.session? i = some s)
    (hsilent : ∀ e ∈ es, e.isContact i = false) (hrun : t.run? es = some t') :
    Quieted i t s t'.now t'.past := by
  have hfirst : Quieted i t s t.now t.past :=
    ⟨settles_refl i t.now t.past, rfl, fun hleave => .inl ⟨hs, leave_enabled hs h.fired hleave⟩⟩
  have halong : Along (fun _ e => !e.isContact i) t.now es = true :=
    Traced.along_of_forall t.now fun e he => by rw [hsilent e he, Bool.not_false]
  refine (Traced.run_induction (P := fun g c => Halted i t s g c ∧ Quieted i t s g c) ?_ ⟨h, hfirst⟩
    halong hrun).2
  intro g g' c e hnot hboth hm
  exact ⟨hboth.1.move hm, hboth.2.move hboth.1 (Bool.not_eq_true' _ ▸ hnot) hm⟩

/-- What a session commits in a run from the firing on. -/
theorem Halted.commits {t t' : Traced} {s : Session} {es : List Event} (h : Halted i t s t.now t.past)
    (hs : t.now.session? i = some s) (htracks : s.framer.Tracks s.held) (hrun : t.run? es = some t') :
    ∃ more, t'.past.landed i = t.past.landed i ++ more ∧ more.length ≤ 1 ∧
      ((∀ e ∈ es, e.isContact i = false) → more <+: t.now.unsettled i ∧
        ((Task.session s).canLeave = true ∨ (s.stage = .framing ∧ newline ∉ s.held) → more = [])) := by
  have hhalted : Halted i t s t'.now t'.past :=
    Traced.run_moves (P := Halted i t s) (fun h hm => h.move hm) h hrun
  obtain ⟨more, hlanded, hmore⟩ := hhalted.spends
  have hallowed := allowance_le t.now i
  refine ⟨more, hlanded, by omega, ?_⟩
  intro hsilent
  obtain ⟨done, hlanded', hdone⟩ := (h.quieted_of_run hs hsilent hrun).settles
  cases List.append_cancel_left (hlanded.symm.trans hlanded')
  have hpre : more <+: t.now.unsettled i := (List.prefix_append _ _).trans hdone
  refine ⟨hpre, ?_⟩
  intro hwaiting
  rw [unsettled_eq_nil hs htracks (by tauto)] at hpre
  exact List.prefix_nil.1 hpre

end SharedLog

theorem Traced.run?_append (t : Traced) (es es' : List Event) :
    t.run? (es ++ es') = (t.run? es).bind fun t => t.run? es' := by
  induction es generalizing t with
  | nil => rfl
  | cons e es ih =>
      rw [List.cons_append, run?, run?, Option.bind_assoc]
      exact congrArg _ (funext ih)

open SharedLog

/-- A session begins without having looked at its token. -/
theorem SharedLog.pollsInWait_of_seats {disk : Disk} {store : Store} {seats : List Seat}
    (hseats : ∀ seat ∈ seats, seat.task.Starting) {i : Nat} (s : Session)
    (hs : ({ disk := disk, store := store, seats := seats } : SharedLog).session? i = some s) :
    s.PollsInWait := by
  cases starting_of_seats hseats (session?_eq_some.1 hs) with
  | session => exact Session.pollsInWait_of_not rfl

/-- A session whose token has fired, from that moment to a later one: `s` is the session at that moment,
and `es` is the run between the two. -/
structure LeavesCleanly (i : Nat) (s : Session) (t : Traced) (es : List Event) (t' : Traced) :
    Prop where
  /-- It neither reads nor sends any more, but for what is left of the poll in the middle of which it was; -/
  silent : RestOfPoll i s (es.filter (·.isContact i))
  /-- and not even that if it was not in the middle of one. -/
  silenced : s.isTurning = false → ∀ e ∈ es, e.isContact i = false
  /-- It commits one packet more at most.  Without a rest of a poll this is the one which it was having
  stored, or had whole in what it held; and none if it was waiting for its peer or about to. -/
  commits : ∃ more, t'.past.landed i = t.past.landed i ++ more ∧ more.length ≤ 1 ∧
    ((∀ e ∈ es, e.isContact i = false) → more <+: t.now.unsettled i ∧
      ((Task.session s).canLeave = true ∨ (s.stage = .framing ∧ newline ∉ s.held) → more = []))
  /-- Whatever was committed for it are whole lines. -/
  whole : ∀ l ∈ t'.past.landed i, IsLine l ∧ l.length ≤ s.framer.limit
  /-- Under the keeping policy they are the first lines of what it has received: -/
  first : s.framer.remainder = .keep → t'.past.landed i <+: lines (t'.past.input i)
  /-- of what it had received by then, if there is no rest of a poll. -/
  received : (∀ e ∈ es, e.isContact i = false) → t'.past.input i = t.past.input i
  /-- What it ever had ready is committed, but for what it waits for now, unless the store refused it. -/
  kept : t'.now.Refused i ∨ share i t'.past.offered = t'.past.landed i ++ t'.now.owed i
  /-- What it was having stored is pursued to the answer of the store. -/
  pursued : ∀ packet, s.stage = .storing packet → Pursues i t.now es t'.now
  /-- If it was waiting for its peer, it leaves, unless the rest of a poll comes first. -/
  leaves : (Task.session s).canLeave = true → (∀ e ∈ es, e.isContact i = false) →
    t'.now.Leaves i s ∧ s.leave.result? = some (.ok .cancelled)

/-- **A cancelled session leaves cleanly, whenever its token fires.**  On a log that was just created,
let a run come to a state in which the token of a session has fired, and go on.  Whatever fails, and
whatever other processes do, the session leaves cleanly.  And as long as they do nothing and no rollback
fails, the file is made of whole commits whenever the lock is free. -/
theorem cancelled_session_leaves_cleanly {disk fresh : Disk} {path : Path} {sync : Bool}
    {store : Store} (hcreate : Store.create disk path sync = .ok (store, fresh)) {seats : List Seat}
    (hseats : ∀ seat ∈ seats, seat.task.Starting) {es es' : List Event} {t t' : Traced}
    (hrun : Traced.run? ⟨{ disk := fresh, store := store, seats := seats }, {}⟩ es = some t)
    {i : Nat} {s : Session} (hs : t.now.session? i = some s) (hfired : t.now.isCancelled i = true)
    (hrun' : t.run? es' = some t') :
    LeavesCleanly i s t es' t' ∧
      (Along isUndisturbed { disk := fresh, store := store, seats := seats } (es ++ es') = true →
        t'.now.holder = none →
        t'.now.disk.content? t'.now.store.path = some (wholeLog t'.past.commits)) := by
  have hintact := History.intact_create hcreate
  have hstart := steady_start hintact.file hintact.counter hseats
  have hbooks : ∀ {u u' : Traced} {es : List Event},
      u.now.Queue ∧ u.now.Accounts u.past ∧ u.now.Balanced u.past → u.run? es = some u' →
      u'.now.Queue ∧ u'.now.Accounts u'.past ∧ u'.now.Balanced u'.past :=
    Traced.run_moves (P := fun g c => g.Queue ∧ g.Accounts c ∧ g.Balanced c)
      (fun h hm => ⟨h.1.move hm, h.2.1.move h.1 hm, h.2.2.move h.1 hm⟩)
  obtain ⟨hqueue, haccounts, hbalanced⟩ :=
    hbooks ⟨hstart.queue, hstart.accounts, hstart.balanced⟩ hrun
  obtain ⟨-, haccounts', hbalanced'⟩ := hbooks ⟨hqueue, haccounts, hbalanced⟩ hrun'
  have hwaits : ∀ s, t.now.session? i = some s → s.PollsInWait :=
    Traced.run_moves (P := fun g _ => ∀ s, g.session? i = some s → s.PollsInWait)
      (fun h hm => hm.pollsInWait h) (pollsInWait_of_seats hseats) hrun
  have ht := session?_eq_some.1 hs
  have hnow : t.now.run? es' = some t'.now := by rw [← Traced.run?_now, hrun', Option.map_some]
  have hfirst : Halted i t s t.now t.past :=
    ⟨hqueue, hfired, hwaits, by rw [ht]; rfl, spends_refl i t.now t.past⟩
  obtain ⟨s', hs', hlimit, hpolicy⟩ :=
    exists_session_of_kind ((Traced.kind_of_run hrun' i).trans hfirst.kind)
  have haccount := haccounts'.task i _ (session?_eq_some.1 hs')
  constructor
  · have hrest := restOfPoll_of_run hqueue hs hwaits hfired hnow
    have htracks := (haccounts.task i _ ht).tracks
    refine ⟨hrest, hrest.silent, hfirst.commits hs htracks hrun', ?_, ?_, ?_, ?_, ?_, ?_⟩
    · intro l hl
      rw [← hlimit]
      exact haccount.packets l ((hbalanced'.landed_prefix i).subset hl)
    · intro hkeep
      exact (hbalanced'.landed_prefix i).trans (haccount.packets_first (hpolicy.trans hkeep)).1
    · intro hsilent
      rw [Chronicle.input, Chronicle.input, (hfirst.quieted_of_run hs hsilent hrun').received]
    · obtain ⟨rest, hrest, hor⟩ := hbalanced' i
      refine hor.imp_right ?_
      rintro rfl
      exact hrest
    · intro packet hstage
      have hr : t.now.request? i = some (.echo packet) := by
        rw [request?, ht, Option.bind_some, Task.request?, hstage]
      exact pursues_of_run hqueue hr hnow
    · intro hleave hsilent
      exact ⟨(hfirst.quieted_of_run hs hsilent hrun').leaves hleave, rfl⟩
  · intro hkind hfree
    have hwhole : Traced.run? ⟨{ disk := fresh, store := store, seats := seats }, {}⟩ (es ++ es') =
        some t' := by
      rw [Traced.run?_append, hrun]
      exact hrun'
    exact ((Traced.steady_of_run hcreate hseats hkind hwhole).recorded.file_of_free hfree).1

/-- A session looks at its token and turns to its peer; then the token fires. -/
def SharedLog.overtaken : List Event :=
  [.poll 0, .fire 0]

/-- What it had turned to brings a packet, which is stored; only then it leaves. -/
def SharedLog.outrun : List Event :=
  [.receive 0 (.ok (utf8 "a\n")), .frame 0, .ask 0, .grant, .file none, .file none, .file none,
    .file none, .release, .leave 0]

/-- A session that waits for a read when its token fires, with nothing in what it holds, still reads, and
commits a packet. -/
theorem read_outruns_token : ∃ t t' s, Traced.run? ⟨crowd, {}⟩ overtaken = some t ∧
    t.run? outrun = some t' ∧ t.now.session? 0 = some s ∧ t.now.isCancelled 0 = true ∧
    s.stage = .receiving ∧ s.held = [] ∧ t.past.landed 0 = [] ∧ t'.past.landed 0 = [utf8 "a\n"] ∧
    t'.now.content = utf8 "a\n" := by
  have hrun : (Traced.run? ⟨crowd, {}⟩ overtaken).map (fun t =>
      (t.now.isCancelled 0, t.past.landed 0, t.now.session? 0, (t.run? outrun).map fun t' =>
        (t'.past.landed 0, t'.now.content))) = some (true, [],
        some (Session.start (.quad 127 0 0 1 1) {}).poll, some ([utf8 "a\n"], utf8 "a\n")) := by rfl
  obtain ⟨t, hrun, hend⟩ := Option.map_eq_some_iff.1 hrun
  simp only [Prod.mk.injEq] at hend
  obtain ⟨hfired, hnone, hs, hend⟩ := hend
  obtain ⟨t', hrun', hend⟩ := Option.map_eq_some_iff.1 hend
  obtain ⟨hlanded, hcontent⟩ := Prod.mk.inj hend
  exact ⟨t, t', _, hrun, hrun', hs, hfired, rfl, rfl, hnone, hlanded, hcontent⟩

/-- A session that holds two packets and a half has the first stored while another waits for the lock;
then its token fires. -/
def SharedLog.hurry : List Event :=
  [.receive 1 (.ok (utf8 "one\ntwo\nthr")), .frame 1, .ask 1, .receive 0 (.ok (utf8 "a\n")), .grant,
    .file none, .file none, .frame 0, .ask 0, .fire 1]

/-- It waits for the store, and leaves; the other goes on. -/
def SharedLog.retreat : List Event :=
  [.file none, .file none, .release, .leave 1, .grant, .file none, .file none, .file none, .file none,
    .release, .send 0 (.ok 6)]

/-- The theorem at a token that fires between the write and the flush of an append. -/
theorem retreat_is_clean : ∃ t t' s, Traced.run? ⟨crowd, {}⟩ hurry = some t ∧
    t.run? retreat = some t' ∧ t.now.session? 1 = some s ∧ s.held = utf8 "two\nthr" ∧
    LeavesCleanly 1 s t retreat t' ∧ t'.now.content = utf8 "one\na\n" ∧
    t'.now.disk.content? t'.now.store.path = some (wholeLog t'.past.commits) := by
  have hcreate : Store.create {} ⟨[], "data"⟩ false = .ok (crowd.store, crowd.disk) := rfl
  have hseats : ∀ seat ∈ crowd.seats, seat.task.Starting := by
    simp only [crowd, List.forall_mem_cons]
    exact ⟨.session .., .session .., .writer .., .caller _ (.inl rfl), List.forall_mem_nil _⟩
  have hkind : Along isUndisturbed crowd (hurry ++ retreat) = true := by decide +kernel
  have hfire : (Traced.run? ⟨crowd, {}⟩ hurry).map (fun t =>
      (t.now.isCancelled 1, (t.now.session? 1).map (·.held), (t.run? retreat).map fun t' =>
        (t'.now.holder.isNone, t'.now.content))) =
      some (true, some (utf8 "two\nthr"), some (true, utf8 "one\na\n")) := by decide +kernel
  obtain ⟨t, hrun, hfire⟩ := Option.map_eq_some_iff.1 hfire
  simp only [Prod.mk.injEq] at hfire
  obtain ⟨hfired, hheld, hend⟩ := hfire
  obtain ⟨s, hs, hheld⟩ := Option.map_eq_some_iff.1 hheld
  obtain ⟨t', hrun', hend⟩ := Option.map_eq_some_iff.1 hend
  simp only [Prod.mk.injEq, Option.isNone_iff_eq_none] at hend
  obtain ⟨hfree, hcontent⟩ := hend
  obtain ⟨hclean, hfile⟩ :=
    cancelled_session_leaves_cleanly hcreate hseats hrun hs hfired hrun'
  exact ⟨t, t', s, hrun, hrun', hs, hheld, hclean, hcontent, hfile hkind hfree⟩

end EchoLog
