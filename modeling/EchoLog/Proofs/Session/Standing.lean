import EchoLog.Proofs.SharedLog.Linear
/-!
# A session that has its store to itself

Where nobody else uses the store, and the token never fires, a session and its store go through the
same few situations for one packet after the other.  `Standing` lists them, with what is left to do in
each: the packet that is cut and not committed (`due`), the log that is committed and not read back
(`unread`), the bytes that the peer has not accepted (`left`), and the failure that ended the session,
if one did.  `At` keeps the books for it: what was received, cut, committed, read back and sent, on top
of a log that held `base` when the session began.

Here are the events of the session itself: each leads from one situation to another, whatever fails
(`At.receive`, `At.frame`, `At.send`, `At.flush`).  Those of the lock and the file are in
`EchoLog.Proofs.Session.Storing`.
-/

namespace EchoLog

/-! ## What is noted of a run besides its chronicle -/

/-- The logs right after each of some appends in a row, of which the first is made to `base`. -/
def snapshots (base : Bytes) : List Bytes → List Bytes
  | [] => []
  | l :: ls => (base ++ l) :: snapshots (base ++ l) ls

theorem snapshots_concat (base : Bytes) (ls : List Bytes) (l : Bytes) :
    snapshots base (ls ++ [l]) = snapshots base ls ++ [base ++ ls.flatten ++ l] := by
  induction ls generalizing base with
  | nil => simp only [List.nil_append, snapshots, List.flatten_nil, List.append_nil]
  | cons m ls ih =>
      rw [List.cons_append, snapshots, snapshots, ih, List.cons_append, List.flatten_cons,
        List.append_assoc base m]

theorem snapshots_dropLast (base : Bytes) (ls : List Bytes) :
    snapshots base ls.dropLast = (snapshots base ls).dropLast := by
  rcases List.eq_nil_or_concat ls with rfl | ⟨ls, l, rfl⟩
  · rfl
  · rw [List.concat_eq_append, snapshots_concat, List.dropLast_concat, List.dropLast_concat]

/-- Whether an event is neither a token that fires nor a change by another process. -/
def Event.isInside : Event → Bool
  | .fire _ => false
  | .outside _ => false
  | _ => true

namespace SharedLog

/-- What there is to note of the events of a run, each in the state in which it happens. -/
def gather {α : Type} (note : SharedLog → Event → List α) : SharedLog → List Event → List α
  | _, [] => []
  | g, e :: es => note g e ++ ((g.step? e).map fun g => gather note g es).getD []

/-- The bytes that a peer accepts. -/
def accepted (g : SharedLog) : Event → Bytes
  | .send i (.ok n) =>
    match g.session? i with
    | none => []
    | some s =>
      match s.stage with
      | .echoing left => left.take n
      | _ => []
  | _ => []

/-- The failures that a session meets: of a read, of sending, or of the store. -/
def failing (g : SharedLog) : Event → List Failure
  | .receive i (.error cause) =>
    (g.session? i).toList.map fun s => .connection (.receive s.peer cause)
  | .send i (.error cause) => (g.session? i).toList.map fun s => .connection (.send s.peer cause)
  | .send i (.ok 0) =>
    (g.session? i).toList.map fun s => .connection (.send s.peer (.ofKind .writeZero))
  | .flush i (.error cause) => (g.session? i).toList.map fun s => .connection (.send s.peer cause)
  | .release =>
    match g.holder with
    | some (_, .finished (.error f)) => [f]
    | _ => []
  | _ => []

end SharedLog

/-! ## The situations -/

/-- Whether a session is sending a log, or has failed to. -/
def Session.Speaks (s : Session) : Prop :=
  (∃ left, s.stage = .echoing left) ∨ s.stage = .flushing ∨
    ∃ peer cause, s.stage = .ended (.error (.connection (.send peer cause)))

/-- Work that has failed: the file is being cut back, or the answer is there. -/
inductive Work.Fails : Work → Prop where
  | cutting (file : Handle) (cause : IoError) : Work.Fails (.cutting file cause)
  | failed (cause : IoError) : Work.Fails (.failed cause)

/-- A packet whose request to the store failed is still due, or its log is not read back: not both. -/
inductive Undone (log packet : Bytes) : (due unread : List Bytes) → Prop where
  | refused : Undone log packet [packet] []
  | notReadBack : Undone log packet [] [log]

namespace SharedLog

/-- What the file holds. -/
def Holds (g : SharedLog) (log : Bytes) : Prop :=
  g.disk.content? g.store.path = some log

/-- The situations of a session that has its store to itself; `log` is what was committed. -/
inductive Standing (g : SharedLog) (s : Session) (log : Bytes) :
    (due unread : List Bytes) → (left : Bytes) → (failures : List Failure) → Prop where
  | receiving : s.stage = .receiving → g.Holds log → s.held.length ≤ s.framer.limit →
      Standing g s log [] [] [] []
  | framing : s.stage = .framing → g.Holds log → Standing g s log [] [] [] []
  | echoing {left : Bytes} : s.stage = .echoing left → g.Holds log → Standing g s log [] [] left []
  | flushing : s.stage = .flushing → g.Holds log → Standing g s log [] [] [] []
  | asking {packet : Bytes} : s.stage = .storing packet → g.holder = none → g.Holds log →
      Standing g s log [packet] [] [] []
  | writing {packet : Bytes} {w : Work} : s.stage = .storing packet → g.holder = some (0, w) →
      WritePhase g.store.path g.disk packet true log w → w.bytes? = some packet →
      Standing g s log [packet] [] [] []
  | reading {packet : Bytes} : s.stage = .storing packet → g.holder = some (0, .reading) →
      g.Holds log → Standing g s log [] [log] [] []
  | answered {packet : Bytes} : s.stage = .storing packet →
      g.holder = some (0, .finished (.ok (.log log))) → g.Holds log → Standing g s log [] [log] [] []
  | failing {packet : Bytes} {w : Work} {due unread : List Bytes} : s.stage = .storing packet →
      g.holder = some (0, w) → w.Fails → Undone log packet due unread →
      Standing g s log due unread [] []
  | closed : s.stage = .ended (.ok (.peerClosed s.held.length)) → s.held.length ≤ s.framer.limit →
      Standing g s log [] [] [] []
  | oversized : s.stage = .ended (.error s.framer.tooLarge) → ¬ Fits s.framer.limit s.held →
      fitting s.framer.limit s.held = [] → Standing g s log [] [] [] []
  | notReceived {cause : IoError} :
      s.stage = .ended (.error (.connection (.receive s.peer cause))) → newline ∉ s.held →
      s.held.length ≤ s.framer.limit → Standing g s log [] [] [] [.connection (.receive s.peer cause)]
  | notSent {cause : IoError} {left : Bytes} :
      s.stage = .ended (.error (.connection (.send s.peer cause))) →
      Standing g s log [] [] left [.connection (.send s.peer cause)]
  | notStored {packet : Bytes} {cause : IoError} {due unread : List Bytes} :
      s.stage = .ended (.error (.storage cause)) → Undone log packet due unread →
      Standing g s log due unread [] [.storage cause]

/-- Sending starts, or there is nothing to send. -/
theorem Standing.echo {g : SharedLog} {log : Bytes} (h : g.Holds log) (s : Session) (left : Bytes) :
    Standing g (s.echo left) log [] [] left [] := by
  cases left with
  | nil => exact .flushing rfl h
  | cons b left => exact .echoing rfl h

theorem Standing.left_eq {g : SharedLog} {s : Session} {log left rest : Bytes}
    {due unread : List Bytes} {failures : List Failure}
    (h : Standing g s log due unread left failures) (hstage : s.stage = .echoing rest) :
    rest = left := by
  cases h with
  | echoing hstage' _ => exact Stage.echoing.inj (hstage.symm.trans hstage')
  | _ => simp_all

theorem Standing.failures_eq_nil {g : SharedLog} {s : Session} {log left : Bytes}
    {due unread : List Bytes} {failures : List Failure}
    (h : Standing g s log due unread left failures) (hresult : s.result? = none) : failures = [] := by
  cases h <;> simp_all [Session.result?]

/-- A log that is not read back yet has nothing of it left to send. -/
theorem Standing.unread_cases {g : SharedLog} {s : Session} {log left : Bytes}
    {due unread : List Bytes} {failures : List Failure}
    (h : Standing g s log due unread left failures) :
    unread = [] ∨ (unread = [log] ∧ left = []) := by
  have hundone : ∀ {packet : Bytes}, Undone log packet due unread → unread = [] ∨ unread = [log] := by
    intro packet hundone
    cases hundone
    · exact .inl rfl
    · exact .inr rfl
  cases h with
  | reading => exact .inr ⟨rfl, rfl⟩
  | answered => exact .inr ⟨rfl, rfl⟩
  | failing _ _ _ h => exact (hundone h).imp_right (⟨·, rfl⟩)
  | notStored _ h => exact (hundone h).imp_right (⟨·, rfl⟩)
  | _ => exact .inl rfl

/-- The books of a session that has its store to itself, on top of a log that held `base`. -/
structure At (base : Bytes) (g : SharedLog) (c : Chronicle) (sent : Bytes) (failures : List Failure)
    (s : Session) (due unread : List Bytes) (left : Bytes) : Prop where
  queue : g.Queue
  seats : g.seats = [⟨.session s, false⟩]
  account : s.Account (c.input 0) (share 0 c.offered)
  offered : share 0 c.offered = c.landed 0 ++ due
  logs : c.logs 0 = snapshots base (c.landed 0)
  returned : c.logs 0 = share 0 c.returned ++ unread
  sent : sent ++ left = (share 0 c.returned).flatten
  last : left <:+ (share 0 c.returned).getLastD []
  spoken : s.Speaks → share 0 c.returned ≠ []
  closed : (∃ n, s.stage = .ended (.ok (.peerClosed n))) → [] ∈ share 0 c.received
  standing : Standing g s (base ++ (c.landed 0).flatten) due unread left failures

namespace At

variable {base sent left : Bytes} {g g' : SharedLog} {c : Chronicle} {failures : List Failure}
  {s : Session} {due unread : List Bytes} {e : Event}

theorem task?_eq (h : At base g c sent failures s due unread left) :
    g.task? 0 = some (.session s) := by
  rw [task?, h.seats]
  rfl

theorem of_task? (h : At base g c sent failures s due unread left) {i : Nat} {t : Task}
    (ht : g.task? i = some t) : i = 0 ∧ t = .session s := by
  rw [task?, h.seats] at ht
  cases i with
  | zero => exact ⟨rfl, (Option.some.inj ht).symm⟩
  | succ i => cases ht

theorem isCancelled_eq (h : At base g c sent failures s due unread left) :
    g.isCancelled 0 = false := by
  rw [isCancelled, h.seats]
  rfl

/-- What the session asks for, while it asks for something. -/
theorem of_request? (h : At base g c sent failures s due unread left) {i : Nat} {r : Request}
    (hr : g.request? i = some r) : i = 0 ∧ ∃ packet, s.stage = .storing packet ∧ r = .echo packet := by
  obtain ⟨t, ht, hr⟩ := Option.bind_eq_some_iff.1 hr
  obtain ⟨rfl, rfl⟩ := h.of_task? ht
  cases hstage : s.stage with
  | storing packet =>
      simp only [Task.request?, hstage, Option.some.injEq] at hr
      exact ⟨rfl, packet, rfl, hr.symm⟩
  | _ => simp [Task.request?, hstage] at hr

theorem of_holder (h : At base g c sent failures s due unread left) {i : Nat} {w : Work}
    (hw : g.holder = some (i, w)) : i = 0 ∧ ∃ packet, s.stage = .storing packet := by
  obtain ⟨r, hr, -⟩ := h.queue.holder i w hw
  obtain ⟨hi, packet, hstage, -⟩ := h.of_request? hr
  exact ⟨hi, packet, hstage⟩

/-- After a move of the session itself: nothing is committed or read back, and the peer may have
accepted some of what was left. -/
theorem moved (h : At base g c sent failures s [] [] left) {s' : Session}
    (hown : Task.Own 0 false e (.session s) (.session s')) (more : List Notice)
    {g' : SharedLog} (hg : g' = (g.setTask 0 (.session s')).report more)
    (hspoken : s'.Speaks → s.Speaks)
    (hclosed : (∃ n, s'.stage = .ended (.ok (.peerClosed n))) → [] ∈ share 0 e.arrival)
    {left' : Bytes} (hsent : g.accepted e ++ left' = left) (hlast : left' <:+ left)
    (hstanding : Standing g' s' (base ++ (c.landed 0).flatten) (Task.session s').ready [] left'
      (failures ++ g.failing e)) :
    At base g' (c.note g e g') (sent ++ g.accepted e) (failures ++ g.failing e) s'
      (Task.session s').ready [] left' := by
  have hmove : Move g e g' := by
    rw [hg]
    refine .own more h.task?_eq ?_
    rw [h.isCancelled_eq]
    exact hown
  have hself : g'.task? 0 = some (.session s') := by
    rw [hg]
    exact task?_report_self h.task?_eq more
  rw [Chronicle.note_own hown hself]
  refine ⟨h.queue.move hmove, ?_, ?_, ?_, h.logs, h.returned, ?_, hlast.trans h.last,
    fun hs => h.spoken (hspoken hs), ?_, hstanding⟩
  · simp only [hg, report, setTask, h.seats, List.modify_cons, if_true]
  · have haccount := Task.Account.own (t := .session s) h.account hown
    rw [Chronicle.input, share_append, share_append, share_self, List.flatten_append]
    exact haccount
  · rw [share_append, share_self, h.offered, List.append_nil]
    rfl
  · rw [List.append_assoc, hsent]
    exact h.sent
  · intro hn
    rw [share_append]
    exact List.mem_append_right _ (hclosed hn)

theorem holds_own {log : Bytes} {t : Task} {more : List Notice} {g' : SharedLog}
    (hg : g' = (g.setTask 0 t).report more) (h : g.Holds log) : g'.Holds log := by
  rw [hg]
  exact h

/-- A look at the token changes nothing. -/
theorem poll (h : At base g c sent failures s due unread left)
    (hwaits : (Task.session s).canLeave = true) (hnot : s.polling = false) (more : List Notice)
    {g' : SharedLog} (hg : g' = (g.setTask 0 (.session s.poll)).report more) :
    At base g' (c.note g (.poll 0) g') (sent ++ g.accepted (.poll 0))
      (failures ++ g.failing (.poll 0)) s.poll (Task.session s.poll).ready [] left := by
  have hown : Task.Own 0 false (.poll 0) (.session s) (.session s.poll) := .poll hwaits hnot rfl
  have hclosed : (∃ n, s.poll.stage = .ended (.ok (.peerClosed n))) →
      [] ∈ share 0 (Event.poll 0).arrival := by
    rintro ⟨n, hn⟩
    simp only [Task.canLeave, show s.stage = .ended (.ok (.peerClosed n)) from hn] at hwaits
    cases hwaits
  have hready := Task.ready_poll hwaits
  cases h.standing with
  | receiving hstage hfile hshort =>
      refine h.moved hown more hg id hclosed rfl (List.suffix_refl _) ?_
      rw [hready]
      exact .receiving hstage (holds_own hg hfile) hshort
  | echoing hstage hfile =>
      refine h.moved hown more hg id hclosed rfl (List.suffix_refl _) ?_
      rw [hready]
      exact .echoing hstage (holds_own hg hfile)
  | flushing hstage hfile =>
      refine h.moved hown more hg id hclosed rfl (List.suffix_refl _) ?_
      rw [hready]
      exact .flushing hstage (holds_own hg hfile)
  | _ => simp_all [Task.canLeave]

theorem receive (h : At base g c sent failures s due unread left) (hstage : s.stage = .receiving)
    {input : Except IoError Bytes} (hfits : fits s input = true) (more : List Notice) {g' : SharedLog}
    (hg : g' = (g.setTask 0 (.session (s.receive input))).report more) :
    At base g' (c.note g (.receive 0 input) g') (sent ++ g.accepted (.receive 0 input))
      (failures ++ g.failing (.receive 0 input)) (s.receive input)
      (Task.session (s.receive input)).ready [] [] := by
  have hs := session?_eq_some.2 h.task?_eq
  have hown : Task.Own 0 false (.receive 0 input) (.session s) (.session (s.receive input)) :=
    .receive hstage (fun hfired => by cases hfired) hfits
  cases h.standing with
  | receiving _ hfile hshort =>
      refine h.moved hown more hg ?_ ?_ rfl (List.suffix_refl _) ?_
      · rcases input with cause | chunk
        · rintro (⟨_, e⟩ | e | ⟨_, _, e⟩) <;> cases e
        · cases chunk <;> rintro (⟨_, e⟩ | e | ⟨_, _, e⟩) <;> cases e
      · rintro ⟨n, hn⟩
        rcases input with cause | chunk
        · cases hn
        · cases chunk with
          | nil => exact List.mem_singleton.2 rfl
          | cons b chunk => cases hn
      · rw [Task.ready_receive]
        rcases input with cause | chunk
        · simp only [failing, hs, Option.toList_some, List.map_singleton, List.nil_append]
          exact .notReceived rfl (h.account.drained (.inl hstage)) hshort
        · cases chunk with
          | nil => exact .closed rfl hshort
          | cons b chunk => exact .framing rfl (holds_own hg hfile)
  | _ => simp_all

/-- A session that looks for a packet does not hold the lock. -/
theorem holder_of_framing (h : At base g c sent failures s due unread left)
    (hstage : s.stage = .framing) : g.holder = none := by
  cases hw : g.holder with
  | none => rfl
  | some p =>
      obtain ⟨packet, hstage'⟩ := (h.of_holder hw).2
      rw [hstage] at hstage'
      cases hstage'

theorem frame (h : At base g c sent failures s due unread left) (hstage : s.stage = .framing)
    (more : List Notice) {g' : SharedLog}
    (hg : g' = (g.setTask 0 (.session s.frame)).report more) :
    At base g' (c.note g (.frame 0) g') (sent ++ g.accepted (.frame 0))
      (failures ++ g.failing (.frame 0)) s.frame (Task.session s.frame).ready [] [] := by
  have hown : Task.Own 0 false (.frame 0) (.session s) (.session s.frame) := .frame hstage
  have hholder : g'.holder = none := by
    rw [hg]
    exact h.holder_of_framing hstage
  cases h.standing with
  | framing _ hfile =>
      refine h.moved hown more hg ?_ ?_ rfl (List.suffix_refl _) ?_
      · simp only [Session.Speaks, Session.frame]
        split <;> rintro (⟨_, e⟩ | e | ⟨_, _, e⟩) <;> cases e
      · rintro ⟨n, hn⟩
        simp only [Session.frame] at hn
        split at hn <;> cases hn
      · rcases Framer.look_cases h.account.tracks with ⟨l, rest, -, -, -, e⟩ | ⟨-, hle, e⟩ | ⟨hnot, e⟩
        · have hnext : s.frame.stage = .storing l := by simp only [Session.frame, e]
          have hready : (Task.session s.frame).ready = [l] := by
            simp only [Task.ready, Task.request?, hnext, Option.bind_some, Request.bytes?,
              Option.toList_some]
          rw [hready]
          exact .asking hnext hholder (holds_own hg hfile)
        · have hnext : s.frame.stage = .receiving := by simp only [Session.frame, e]
          have hready : (Task.session s.frame).ready = [] := by
            simp only [Task.ready, Task.request?, hnext, Option.bind_none, Option.toList_none]
          rw [hready]
          refine .receiving hnext (holds_own hg hfile) ?_
          simp only [Session.frame, e]
          exact hle
        · have hnext : s.frame = s.fail s.framer.tooLarge := by
            simp only [Session.frame, e, Session.fail]
          have hfirst := Framer.fitting_of_oversized h.account.tracks (by rw [e])
          rw [hnext]
          exact .oversized rfl hnot hfirst
  | _ => simp_all

/-- The peer accepts some of the log, or sending fails. -/
theorem send (h : At base g c sent failures s due unread left) (hstage : s.stage = .echoing left)
    (result : Except IoError Nat) (more : List Notice) {g' : SharedLog}
    (hg : g' = (g.setTask 0 (.session (s.sent left result))).report more) :
    ∃ left', At base g' (c.note g (.send 0 result) g') (sent ++ g.accepted (.send 0 result))
      (failures ++ g.failing (.send 0 result)) (s.sent left result)
      (Task.session (s.sent left result)).ready [] left' := by
  have hs := session?_eq_some.2 h.task?_eq
  have hown : Task.Own 0 false (.send 0 result) (.session s) (.session (s.sent left result)) :=
    .send hstage fun hfired => by cases hfired
  have hspeaks : s.Speaks := .inl ⟨left, hstage⟩
  cases h.standing with
  | echoing _ hfile =>
      rcases result with cause | n
      · refine ⟨left, h.moved hown more hg (fun _ => hspeaks) ?_ rfl (List.suffix_refl _) ?_⟩
        · rintro ⟨n, hn⟩
          cases hn
        · simp only [failing, hs, Option.toList_some, List.map_singleton, List.nil_append]
          exact .notSent rfl
      · have haccepted : g.accepted (.send 0 (.ok n)) = left.take n := by
          simp only [accepted, hs, hstage]
        cases n with
        | zero =>
            refine ⟨left, h.moved hown more hg (fun _ => hspeaks) ?_ ?_ (List.suffix_refl _) ?_⟩
            · rintro ⟨n, hn⟩
              cases hn
            · rw [haccepted]
              rfl
            · simp only [failing, hs, Option.toList_some, List.map_singleton, List.nil_append]
              exact .notSent rfl
        | succ n =>
            refine ⟨left.drop (n + 1),
              h.moved hown more hg (fun _ => hspeaks) ?_ ?_ (List.drop_suffix _ _) ?_⟩
            · rintro ⟨m, hm⟩
              simp only [Session.sent, Session.echo] at hm
              split at hm <;> cases hm
            · rw [haccepted, List.take_append_drop]
            · rw [Task.ready_sent]
              exact .echo (holds_own hg hfile) s (left.drop (n + 1))
  | _ => simp_all

theorem flush (h : At base g c sent failures s due unread left) (hstage : s.stage = .flushing)
    (result : Except IoError Unit) (more : List Notice) {g' : SharedLog}
    (hg : g' = (g.setTask 0 (.session (s.flushed result))).report more) :
    At base g' (c.note g (.flush 0 result) g') (sent ++ g.accepted (.flush 0 result))
      (failures ++ g.failing (.flush 0 result)) (s.flushed result)
      (Task.session (s.flushed result)).ready [] [] := by
  have hs := session?_eq_some.2 h.task?_eq
  have hown : Task.Own 0 false (.flush 0 result) (.session s) (.session (s.flushed result)) :=
    .flush hstage fun hfired => by cases hfired
  have hspeaks : s.Speaks := .inr (.inl hstage)
  cases h.standing with
  | flushing _ hfile =>
      refine h.moved hown more hg (fun _ => hspeaks) ?_ rfl (List.suffix_refl _) ?_
      · rintro ⟨n, hn⟩
        cases result <;> cases hn
      · rw [Task.ready_flushed]
        cases result with
        | error cause =>
            simp only [failing, hs, Option.toList_some, List.map_singleton, List.nil_append]
            exact .notSent rfl
        | ok _ => exact .framing rfl (holds_own hg hfile)
  | _ => simp_all

end At

end SharedLog

end EchoLog
