import EchoLog.Proofs.Session.Identity
import EchoLog.Proofs.SharedLog.Queue
/-!
# A token that fires in the middle of a poll

A session looks at its token and then turns to its peer; it does both in one poll, but not at one moment.
If the token fires in between, the session does not see it before its next poll, and what is left of this
one still happens: the read that it had turned to, or sends of the echo in hand and the flush after them
(`RestOfPoll`).  That is all: from the moment its token has fired until the end of the run, a session has no
more to do with its peer than the rest of one poll (`restOfPoll_of_run`), and nothing at all if it was not
in the middle of one.
-/

namespace EchoLog

/-- Whether an event is one between the session at a place and its peer. -/
def Event.isContact (i : Nat) : Event → Bool
  | .receive j _ => j == i
  | .send j _ => j == i
  | .flush j _ => j == i
  | _ => false

namespace Session

variable {s s' : Session} {i : Nat} {cancelled : Bool} {e : Event}

/-- Whether a session has looked at its token in this wait for its peer, and turns to its peer next. -/
def isTurning (s : Session) : Bool :=
  s.polling && (Task.session s).canLeave

/-- A session looks at its token in its waits for its peer only; the last such look may be that of the poll
in which it came to its end. -/
def PollsInWait (s : Session) : Prop :=
  s.polling = true → (Task.session s).canLeave = true ∨ s.result?.isSome = true

theorem isTurning_eq_false_of_end (h : s.result?.isSome = true) : s.isTurning = false := by
  rw [isTurning, Bool.and_eq_false_iff]
  refine .inr (Bool.eq_false_iff.2 fun hwaits => ?_)
  rw [result?_of_canLeave hwaits] at h
  cases h

theorem isTurning_eq_false (h : s.polling = false) : s.isTurning = false := by
  rw [isTurning, h, Bool.false_and]

theorem isTurning_receive (s : Session) (input : Except IoError Bytes) :
    (s.receive input).isTurning = false := by
  rcases input with cause | chunk
  · exact isTurning_eq_false_of_end rfl
  · cases chunk with
    | nil => exact isTurning_eq_false_of_end rfl
    | cons b chunk => exact isTurning_eq_false rfl

theorem isTurning_flushed (s : Session) (result : Except IoError Unit) :
    (s.flushed result).isTurning = false := by
  cases result with
  | error cause => exact isTurning_eq_false_of_end rfl
  | ok _ => exact isTurning_eq_false rfl

theorem isTurning_stored (h : s.polling = false) (answer : Except Failure Bytes) :
    (s.stored answer).isTurning = false := by
  cases answer with
  | error f => exact isTurning_eq_false_of_end rfl
  | ok log => exact isTurning_eq_false h

/-- A session in the middle of its loop is in no poll. -/
theorem PollsInWait.polling_eq_false (h : s.PollsInWait)
    (hstage : s.stage = .framing ∨ ∃ packet, s.stage = .storing packet) : s.polling = false := by
  by_contra hpolls
  rcases h (Bool.not_eq_false _ ▸ hpolls) with hwaits | hend
  · rcases hstage with hs | ⟨packet, hs⟩ <;> simp only [Task.canLeave, hs, Bool.false_eq_true] at hwaits
  · rcases hstage with hs | ⟨packet, hs⟩ <;>
      simp only [result?, hs, Option.isSome_none, Bool.false_eq_true] at hend

theorem pollsInWait_echo (s : Session) (left : Bytes) : (s.echo left).PollsInWait := by
  intro _
  cases left <;> exact .inl rfl

theorem pollsInWait_end (h : s.result?.isSome = true) : s.PollsInWait :=
  fun _ => .inr h

theorem pollsInWait_of_not (h : s.polling = false) : s.PollsInWait := by
  intro hpolls
  rw [h] at hpolls
  cases hpolls

/-- **It looks at its token in its waits only**, whatever it does, -/
theorem PollsInWait.own (h : s.PollsInWait)
    (hown : Task.Own i cancelled e (.session s) (.session s')) : s'.PollsInWait := by
  cases hown with
  | poll hwaits => exact fun _ => .inl hwaits
  | @receive _ input =>
      rcases input with cause | chunk
      · exact pollsInWait_end rfl
      · cases chunk with
        | nil => exact pollsInWait_end rfl
        | cons b chunk => exact pollsInWait_of_not rfl
  | frame hstage => exact pollsInWait_of_not (h.polling_eq_false (.inl hstage))
  | @send _ left result hstage =>
      rcases result with cause | n
      · exact pollsInWait_end rfl
      · cases n with
        | zero => exact pollsInWait_end rfl
        | succ n => exact pollsInWait_echo s _
  | @flush _ result =>
      cases result with
      | error cause => exact pollsInWait_end rfl
      | ok _ => exact pollsInWait_of_not rfl
  | leave => exact pollsInWait_end rfl

/-- and when the store answers. -/
theorem pollsInWait_stored (s : Session) (answer : Except Failure Bytes) :
    (s.stored answer).PollsInWait := by
  cases answer with
  | error f => exact pollsInWait_end rfl
  | ok log => exact pollsInWait_echo s log

end Session

/-- Only a session that is in the middle of a poll turns to its peer once its token has fired. -/
theorem Task.Own.isTurning_of_contact {i : Nat} {e : Event} {s : Session} {t' : Task}
    (hown : Task.Own i true e (.session s) t') (hcontact : e.isContact i = true) :
    s.isTurning = true := by
  have hturning : s.polling = true → (Task.session s).canLeave = true → s.isTurning = true := by
    intro hpolls hwaits
    rw [Session.isTurning, hpolls, hwaits, Bool.and_self]
  cases hown with
  | receive hstage hpolls => exact hturning (hpolls rfl) (by rw [Task.canLeave, hstage])
  | send hstage hpolls => exact hturning (hpolls rfl) (by rw [Task.canLeave, hstage])
  | flush hstage hpolls => exact hturning (hpolls rfl) (by rw [Task.canLeave, hstage])
  | poll => cases hcontact
  | frame => cases hcontact
  | leave => cases hcontact

/-- What a session can still do with its peer once its token has fired: the rest of the poll in the middle
of which it is. -/
inductive RestOfPoll (i : Nat) (s : Session) : List Event → Prop where
  | nothing : RestOfPoll i s []
  /-- The read that it had turned to. -/
  | read (input : Except IoError Bytes) : s.polling = true → s.stage = .receiving →
      RestOfPoll i s [.receive i input]
  /-- Some sends of the echo in hand, -/
  | sends {left : Bytes} (results : List (Except IoError Nat)) : s.polling = true →
      s.stage = .echoing left → RestOfPoll i s (results.map (.send i))
  /-- all of them and the flush, -/
  | echo {left : Bytes} (results : List (Except IoError Nat)) (result : Except IoError Unit) :
      s.polling = true → s.stage = .echoing left →
      RestOfPoll i s (results.map (.send i) ++ [.flush i result])
  /-- or the flush alone. -/
  | flush (result : Except IoError Unit) : s.polling = true → s.stage = .flushing →
      RestOfPoll i s [.flush i result]

namespace RestOfPoll

variable {i : Nat} {s s' : Session} {e : Event} {es : List Event}

/-- **A session that is not in the middle of a poll does nothing with its peer.** -/
theorem eq_nil (h : RestOfPoll i s es) (hnot : s.isTurning = false) : es = [] := by
  have hwaits : s.polling = true → (Task.session s).canLeave = true → False := by
    intro hpolls hwaits
    rw [Session.isTurning, hpolls, hwaits] at hnot
    cases hnot
  cases h with
  | nothing => rfl
  | read _ hpolls hstage => exact (hwaits hpolls (by rw [Task.canLeave, hstage])).elim
  | sends _ hpolls hstage => exact (hwaits hpolls (by rw [Task.canLeave, hstage])).elim
  | echo _ _ hpolls hstage => exact (hwaits hpolls (by rw [Task.canLeave, hstage])).elim
  | flush _ hpolls hstage => exact (hwaits hpolls (by rw [Task.canLeave, hstage])).elim

theorem silent (h : RestOfPoll i s (es.filter (·.isContact i))) (hnot : s.isTurning = false) :
    ∀ e ∈ es, e.isContact i = false := by
  intro e he
  exact Bool.eq_false_iff.2 (List.filter_eq_nil_iff.1 (h.eq_nil hnot) e he)

/-- A send more in front. -/
theorem sent {left : Bytes} (hpolls : s.polling = true) (hstage : s.stage = .echoing left)
    (result : Except IoError Nat) (h : RestOfPoll i (s.sent left result) es) :
    RestOfPoll i s (.send i result :: es) := by
  cases h with
  | nothing => exact .sends [result] hpolls hstage
  | sends results => exact .sends (result :: results) hpolls hstage
  | echo results last => exact .echo (result :: results) last hpolls hstage
  | flush last => exact .echo [result] last hpolls hstage
  | read _ _ hnext =>
      exfalso
      rcases result with cause | n
      · cases hnext
      · cases n with
        | zero => cases hnext
        | succ n =>
            have hwaits : ∀ rest : Bytes, (s.echo rest).stage ≠ .receiving := by
              intro rest
              cases rest <;> simp [Session.echo]
            exact hwaits _ hnext

/-- One event of its own more in front. -/
theorem cons (hwait : s.PollsInWait) (hown : Task.Own i true e (.session s) (.session s'))
    (h : RestOfPoll i s' es) : RestOfPoll i s (if e.isContact i then e :: es else es) := by
  cases hown with
  | poll _ _ hfree => cases hfree
  | receive hstage hpolls =>
      rw [h.eq_nil (Session.isTurning_receive s _)]
      simp only [Event.isContact, beq_self_eq_true, if_true]
      exact .read _ (hpolls rfl) hstage
  | frame hstage =>
      have hnot : s.frame.polling = false := hwait.polling_eq_false (.inl hstage)
      rw [h.eq_nil (Session.isTurning_eq_false hnot)]
      exact .nothing
  | send hstage hpolls =>
      simp only [Event.isContact, beq_self_eq_true, if_true]
      exact h.sent (hpolls rfl) hstage _
  | flush hstage hpolls =>
      rw [h.eq_nil (Session.isTurning_flushed s _)]
      simp only [Event.isContact, beq_self_eq_true, if_true]
      exact .flush _ (hpolls rfl) hstage
  | leave =>
      rw [h.eq_nil (Session.isTurning_eq_false_of_end rfl)]
      exact .nothing

end RestOfPoll

namespace SharedLog

variable {g g' : SharedLog} {i : Nat} {s : Session} {es : List Event}

/-- An event that is no move of a task's own is not between it and its peer. -/
theorem isContact_of_place? {e : Event} (h : e.place? ≠ some i) : e.isContact i = false := by
  cases e with
  | receive j _ => exact beq_eq_false_iff_ne.2 fun hji => h (congrArg some hji)
  | send j _ => exact beq_eq_false_iff_ne.2 fun hji => h (congrArg some hji)
  | flush j _ => exact beq_eq_false_iff_ne.2 fun hji => h (congrArg some hji)
  | _ => rfl

theorem Move.pollsInWait {e : Event} (hm : Move g e g')
    (h : ∀ s, g.session? i = some s → s.PollsInWait) : ∀ s, g'.session? i = some s → s.PollsInWait :=
  hm.keeps (fun h hown => h.own hown) (fun answer _ => Session.pollsInWait_stored _ answer) h

/-- Once its token has fired, a session does not begin another poll. -/
theorem Move.isTurning_eq_false {e : Event} {s' : Session} (hm : Move g e g') (hq : g.Queue)
    (hs : g.session? i = some s) (hwait : s.PollsInWait) (hfired : g.isCancelled i = true)
    (hs' : g'.session? i = some s') (h : s.isTurning = false) : s'.isTurning = false := by
  obtain ⟨r, hr, hcases⟩ := hm.session_cases hs'
  cases hs.symm.trans hr
  rcases hcases with ⟨rfl, -⟩ | hown | ⟨w, answer, hw, -, rfl⟩
  · exact h
  · rw [hfired] at hown
    cases hown with
    | poll _ _ hfree => cases hfree
    | receive => exact Session.isTurning_receive s _
    | frame hstage => exact Session.isTurning_eq_false (hwait.polling_eq_false (.inl hstage))
    | send hstage hpolls =>
        rw [Session.isTurning, hpolls rfl, Task.canLeave, hstage] at h
        cases h
    | flush => exact Session.isTurning_flushed s _
    | leave => exact Session.isTurning_eq_false_of_end rfl
  · obtain ⟨packet, hstage⟩ := hq.storing_of_holder hs hw
    exact Session.isTurning_stored (hwait.polling_eq_false (.inr ⟨packet, hstage⟩)) answer

/-- **Once its token has fired, a session has no more to do with its peer than the rest of a poll.** -/
theorem restOfPoll_of_run (hq : g.Queue) (hs : g.session? i = some s)
    (hwait : ∀ s, g.session? i = some s → s.PollsInWait) (hfired : g.isCancelled i = true)
    (hrun : g.run? es = some g') : RestOfPoll i s (es.filter (·.isContact i)) := by
  induction es generalizing g s with
  | nil => exact .nothing
  | cons e es ih =>
      obtain ⟨g₁, he, hrest⟩ := Option.bind_eq_some_iff.1 hrun
      have hm := move_of_step? he
      obtain ⟨s₁, hs₁, -⟩ := hm.session?_kind hs
      have hnext := ih (hq.move hm) hs₁ (hm.pollsInWait hwait) (hm.isCancelled hfired) hrest
      rw [List.filter_cons]
      obtain ⟨r, hr, hcases⟩ := hm.session_cases hs₁
      cases hs.symm.trans hr
      rcases hcases with ⟨rfl, hplace⟩ | hown | ⟨w, answer, hw, rfl, rfl⟩
      · rw [isContact_of_place? hplace, if_neg Bool.false_ne_true]
        exact hnext
      · rw [hfired] at hown
        exact hnext.cons (hwait s hs) hown
      · -- the store answers a session that was not in the middle of a poll
        obtain ⟨packet, hstage⟩ := hq.storing_of_holder hs hw
        have hnot : s.polling = false := (hwait s hs).polling_eq_false (.inr ⟨packet, hstage⟩)
        rw [hnext.eq_nil (Session.isTurning_stored hnot answer)]
        exact .nothing

end SharedLog

end EchoLog
