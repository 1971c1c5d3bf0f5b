import EchoLog.Proofs.Session.Effort
/-!
# One session, end to end

A session that keeps what follows a packet has its store to itself, and its token never fires.  Its peer
says `input`, in chunks of any size that a read may take.  Whatever was in the log before, and whatever
fails, the session commits the lines of the input one by one, as long as none is over the limit, and
sends the whole log after each of them (`Served`).  It comes to its end after a bounded number of
events, and how it ends is settled by the input, or by the first failure that it meets (`Finish`).
-/

namespace EchoLog

/-- What a session has done by some moment for an input, on top of a log that held `base`. -/
structure Served (base input : Bytes) (limit : Nat) (c : Chronicle) (sent : Bytes) : Prop where
  /-- What it has received is the front of the input. -/
  arrived : c.input 0 <+: input
  /-- The commits are the lines of the input in their order, up to the first that is too long, -/
  commits : c.landed 0 <+: fitting limit input
  /-- and they have been received. -/
  received : c.landed 0 <+: fitting limit (c.input 0)
  /-- The log right after a commit is the log before the session and all commits so far. -/
  logs : c.logs 0 = snapshots base (c.landed 0)
  /-- What was sent is those logs one after another, -/
  echoes : sent <+: (snapshots base (c.landed 0)).flatten
  /-- and only the last may be missing or cut short. -/
  whole : (snapshots base (c.landed 0).dropLast).flatten <+: sent

/-- How a session ends that has met some failures, of which the list has all: `received` is what of the
input it had received by then, and `landed` are its commits. -/
inductive Finish (base input received : Bytes) (limit : Nat) (peer : Endpoint) (landed : List Bytes)
    (sent : Bytes) : List Failure → Except Failure SessionEnd → Prop where
  /-- Nothing failed, all of the input was received, and all lines and the unfinished rest keep the
  limit. -/
  | closed : received = input → Fits limit input → landed = lines input →
      sent = (snapshots base landed).flatten →
      input.length = landed.flatten.length + (unfinished input).length →
      Finish base input received limit peer landed sent []
        (.ok (.peerClosed (unfinished input).length))
  /-- Nothing failed, and something is over the limit, as could be seen from what was received. -/
  | oversized : ¬ Fits limit received → ¬ Fits limit input → landed = fitting limit input →
      sent = (snapshots base landed).flatten →
      Finish base input received limit peer landed sent [] (.error (.packetTooLarge limit))
  /-- A read failed, and nothing received before it was over the limit: all lines that had been received
  are committed, and all logs sent. -/
  | notReceived (cause : IoError) : Fits limit received → landed = lines received →
      sent = (snapshots base landed).flatten →
      Finish base input received limit peer landed sent [.connection (.receive peer cause)]
        (.error (.connection (.receive peer cause)))
  /-- Sending failed, and no line over the limit came before: the packet whose log could not be sent whole
  is committed, it is the last, and the logs before its own were sent. -/
  | notSent (cause : IoError) : landed ≠ [] → landed <+: fitting limit received →
      (snapshots base landed.dropLast).flatten <+: sent → sent <+: (snapshots base landed).flatten →
      Finish base input received limit peer landed sent [.connection (.send peer cause)]
        (.error (.connection (.send peer cause)))
  /-- The store refused a packet, the next after those that are committed. -/
  | refused (cause : IoError) (packet : Bytes) : landed ++ [packet] <+: fitting limit received →
      sent = (snapshots base landed).flatten →
      Finish base input received limit peer landed sent [.storage cause] (.error (.storage cause))
  /-- The store failed to give the log back after a packet that is committed. -/
  | notReadBack (cause : IoError) : landed ≠ [] → landed <+: fitting limit received →
      sent = (snapshots base landed.dropLast).flatten →
      Finish base input received limit peer landed sent [.storage cause] (.error (.storage cause))

namespace SharedLog

/-- A session that has a store to itself. -/
def alone (disk : Disk) (store : Store) (peer : Endpoint) (settings : SessionSettings) : SharedLog where
  disk := disk
  store := store
  seats := [⟨.session (.start peer settings), false⟩]

theorem alone_start {disk : Disk} {store : Store} {base : Bytes}
    (hfile : disk.content? store.path = some base) (peer : Endpoint) (settings : SessionSettings) :
    At base (alone disk store peer settings) {} [] [] (.start peer settings) [] [] [] where
  queue := queue_start disk store _
  seats := rfl
  account := Session.account_start peer settings
  offered := rfl
  logs := rfl
  returned := rfl
  sent := rfl
  last := List.suffix_refl _
  spoken := by rintro (⟨_, e⟩ | e | ⟨_, _, e⟩) <;> cases e
  closed := by rintro ⟨n, e⟩; cases e
  standing := .receiving rfl (hfile.trans (congrArg some (List.append_nil base).symm)) (Nat.zero_le _)

namespace At

variable {base sent left input : Bytes} {g : SharedLog} {c : Chronicle} {failures : List Failure}
  {s : Session} {due unread : List Bytes} {peer : Endpoint} {settings : SessionSettings}

theorem not_cancelled (h : At base g c sent failures s due unread left) :
    s.stage ≠ .ended (.ok .cancelled) := by
  intro hs
  cases h.standing <;> simp_all

/-- What was cut and what is held are what was received. -/
theorem cut_and_held (h : At base g c sent failures s due unread left)
    (hkeep : s.framer.remainder = .keep) : (share 0 c.offered).flatten ++ s.held = c.input 0 := by
  obtain ⟨rest, hrest, hheld⟩ := h.account.rest hkeep
  rw [← hheld h.not_cancelled]
  exact hrest

/-- The input is what was committed, what was cut and not committed, what is held, and what has not
arrived. -/
theorem input_eq (h : At base g c sent failures s due unread left)
    (hkeep : s.framer.remainder = .keep) (hreads : Reads input (share 0 c.received)) :
    ∃ rest, input = (c.landed 0).flatten ++ (due.flatten ++ s.held ++ rest) := by
  obtain ⟨rest, hrest⟩ := hreads.front
  have hcut := h.cut_and_held hkeep
  rw [h.offered, List.flatten_append, Chronicle.input] at hcut
  refine ⟨rest, ?_⟩
  rw [← hrest, ← hcut]
  simp only [List.append_assoc]

theorem lines_of_landed (h : At base g c sent failures s due unread left) :
    ∀ l ∈ c.landed 0, IsLine l ∧ l.length ≤ s.framer.limit := by
  intro l hl
  refine h.account.packets l ?_
  rw [h.offered]
  exact List.mem_append_left _ hl

/-- What was cut are the lines of what was received, up to the first that is too long. -/
theorem cut_prefix (h : At base g c sent failures s due unread left)
    (hkeep : s.framer.remainder = .keep) :
    c.landed 0 ++ due <+: fitting s.framer.limit (c.input 0) := by
  rw [← h.offered, ← h.cut_and_held hkeep, (fits_flatten_append h.account.packets _).2]
  exact List.prefix_append _ _

theorem commits (h : At base g c sent failures s due unread left)
    (hkeep : s.framer.remainder = .keep) (hreads : Reads input (share 0 c.received)) :
    c.landed 0 <+: fitting s.framer.limit input := by
  obtain ⟨rest, rfl⟩ := h.input_eq hkeep hreads
  rw [(fits_flatten_append h.lines_of_landed _).2]
  exact List.prefix_append _ _

/-- A log that is not read back is that of the last commit. -/
theorem returned_of_unread {log : Bytes} (h : At base g c sent failures s due [log] left) :
    c.landed 0 ≠ [] ∧ share 0 c.returned = snapshots base (c.landed 0).dropLast := by
  have hreturned := h.returned
  rw [h.logs] at hreturned
  refine ⟨?_, ?_⟩
  · intro hnone
    rw [hnone] at hreturned
    simp [snapshots] at hreturned
  · rw [snapshots_dropLast, hreturned, List.dropLast_concat]

/-- The logs that were sent are those of all commits, or of all but the last. -/
theorem returned_cases (h : At base g c sent failures s due unread left) :
    share 0 c.returned = snapshots base (c.landed 0) ∨
      (c.landed 0 ≠ [] ∧ left = [] ∧ share 0 c.returned = snapshots base (c.landed 0).dropLast) := by
  rcases h.standing.unread_cases with rfl | ⟨rfl, hleft⟩
  · have hreturned := h.returned
    rw [h.logs, List.append_nil] at hreturned
    exact .inl hreturned.symm
  · obtain ⟨hne, hbut⟩ := h.returned_of_unread
    exact .inr ⟨hne, hleft, hbut⟩

/-- What was sent lies between the logs before the last and all logs. -/
theorem sent_between (h : At base g c sent failures s due unread left) :
    sent <+: (snapshots base (c.landed 0)).flatten ∧
      (snapshots base (c.landed 0).dropLast).flatten <+: sent := by
  have hsent := h.sent
  rcases h.returned_cases with hall | ⟨-, hleft, hbut⟩
  · rw [hall] at hsent
    refine ⟨⟨left, hsent⟩, ?_⟩
    have hlast := h.last
    rw [hall] at hlast
    rw [snapshots_dropLast]
    rcases List.eq_nil_or_concat (snapshots base (c.landed 0)) with hnone | ⟨before, last, hconcat⟩
    · rw [hnone]
      exact List.nil_prefix
    · -- what is left is a part of the last log, so what was sent ends in that log
      rw [List.concat_eq_append] at hconcat
      rw [hconcat] at hlast hsent ⊢
      simp only [List.getLastD_concat] at hlast
      obtain ⟨front, hfront⟩ := hlast
      rw [List.flatten_append, List.flatten_singleton, ← hfront, ← List.append_assoc] at hsent
      rw [List.dropLast_concat, List.append_cancel_right hsent]
      exact List.prefix_append _ _
  · rw [hleft, List.append_nil, hbut] at hsent
    refine ⟨?_, hsent ▸ List.prefix_refl _⟩
    rw [hsent, snapshots_dropLast]
    obtain ⟨more, hmore⟩ := List.dropLast_prefix (snapshots base (c.landed 0))
    refine ⟨more.flatten, ?_⟩
    conv => rhs; rw [← hmore]
    rw [List.flatten_append]

theorem served (h : At base g c sent failures s due unread left)
    (hkeep : s.framer.remainder = .keep) (hreads : Reads input (share 0 c.received)) :
    Served base input s.framer.limit c sent where
  arrived := hreads.front
  commits := h.commits hkeep hreads
  received := (List.prefix_append _ _).trans (h.cut_prefix hkeep)
  logs := h.logs
  echoes := h.sent_between.1
  whole := h.sent_between.2

/-- Where nothing is left to send and no log is to be read back, all logs were sent. -/
theorem sent_eq (h : At base g c sent failures s due [] []) :
    sent = (snapshots base (c.landed 0)).flatten := by
  have hreturned := h.returned
  have hsent := h.sent
  rw [List.append_nil] at hreturned hsent
  rw [hsent, ← hreturned, h.logs]

/-- Where nothing is cut and not committed, and no line is held, the commits are all lines that have
arrived. -/
theorem landed_eq (h : At base g c sent failures s [] unread left)
    (hkeep : s.framer.remainder = .keep) (hopen : newline ∉ s.held) :
    c.landed 0 = lines (c.input 0) ∧ s.held = unfinished (c.input 0) := by
  have hcut := h.cut_and_held hkeep
  have hlines : ∀ l ∈ c.landed 0, IsLine l := fun l hl => (h.lines_of_landed l hl).1
  rw [h.offered, List.append_nil] at hcut
  rw [← hcut, lines_flatten_append hlines, unfinished_flatten_append hlines, lines_open hopen,
    unfinished_open hopen, List.append_nil]
  exact ⟨rfl, rfl⟩

/-- **How the session ends.** -/
theorem finish (h : At base g c sent failures s due unread left) (hof : s.IsOf peer settings)
    (hkeep : settings.remainder = .keep) (hreads : Reads input (share 0 c.received))
    {r : Except Failure SessionEnd} (hr : s.result? = some r) :
    Finish base input (c.input 0) settings.maxPacketBytes peer (c.landed 0) sent failures r := by
  have hkeep' := hof.remainder.trans hkeep
  have hcut := h.cut_prefix hkeep'
  rw [← hof.limit, ← hof.peer]
  cases h.standing with
  | closed hstage hshort =>
      rw [Session.result?, hstage] at hr
      cases hr
      have hwhole : c.input 0 = input := hreads.whole (h.closed ⟨_, hstage⟩)
      obtain ⟨hlanded, hheld⟩ := h.landed_eq hkeep' (h.account.drained (.inr ⟨_, hstage⟩))
      rw [hwhole] at hlanded hheld
      have hlength := congrArg List.length (flatten_lines_append input)
      rw [List.length_append, ← hlanded] at hlength
      rw [hheld]
      refine .closed hwhole ⟨?_, hheld ▸ hshort⟩ hlanded h.sent_eq hlength.symm
      intro l hl
      rw [← hlanded] at hl
      exact (h.lines_of_landed l hl).2
  | oversized hstage hnot hfirst =>
      rw [Session.result?, hstage] at hr
      cases hr
      -- what is over the limit is over it in all that was received, and in all of the input
      have hreceived : c.input 0 = (c.landed 0).flatten ++ s.held := by
        rw [← h.cut_and_held hkeep', h.offered, List.append_nil]
      obtain ⟨hfits, hfitting⟩ := fits_flatten_append h.lines_of_landed s.held
      have hover : ¬ Fits s.framer.limit (c.input 0) := by
        rw [hreceived, hfits]
        exact hnot
      obtain ⟨rest, hrest⟩ := hreads.front
      obtain ⟨hover', hsame⟩ := fitting_append hover rest
      rw [Chronicle.input, hrest] at hover' hsame
      refine .oversized hover hover' ?_ h.sent_eq
      rw [hsame, ← Chronicle.input, hreceived, hfitting, hfirst, List.append_nil]
  | notReceived hstage hopen hshort =>
      rw [Session.result?, hstage] at hr
      cases hr
      obtain ⟨hlanded, hheld⟩ := h.landed_eq hkeep' hopen
      refine .notReceived _ ⟨?_, hheld ▸ hshort⟩ hlanded h.sent_eq
      intro l hl
      rw [← hlanded] at hl
      exact (h.lines_of_landed l hl).2
  | notSent hstage =>
      rw [Session.result?, hstage] at hr
      cases hr
      rw [List.append_nil] at hcut
      refine .notSent _ ?_ hcut h.sent_between.2 h.sent_between.1
      intro hnone
      have hspoken := h.spoken (.inr (.inr ⟨_, _, hstage⟩))
      have hreturned := h.returned
      rw [h.logs, hnone, List.append_nil] at hreturned
      exact hspoken hreturned.symm
  | notStored hstage hundone =>
      rw [Session.result?, hstage] at hr
      cases hr
      cases hundone with
      | refused => exact .refused _ _ hcut h.sent_eq
      | notReadBack =>
          obtain ⟨hne, hbut⟩ := h.returned_of_unread
          have hsent := h.sent
          rw [List.append_nil] at hsent hcut
          exact .notReadBack _ hne hcut (hsent.trans (congrArg _ hbut))
  | _ => simp_all [Session.result?]

end At

end SharedLog

open SharedLog

/-- **One session, end to end.**  A session that keeps what follows a packet has a store to itself, whose
log holds `base`; its peer says `input`, and its token never fires.  At every moment it has served its
input so far.  When it has ended, the input and what failed settle how; until then nothing has failed,
and it can go on.  And it ends: no run is longer than the bound. -/
theorem lone_session_serves_its_input {disk : Disk} {store : Store} {base : Bytes}
    (hfile : disk.content? store.path = some base) (peer : Endpoint) {settings : SessionSettings}
    (hkeep : settings.remainder = .keep) {es : List Event} {t : Traced}
    (hinside : es.all Event.isInside = true)
    (hrun : Traced.run? ⟨alone disk store peer settings, {}⟩ es = some t) {input : Bytes}
    (hreads : Reads input (share 0 t.past.received)) :
    let sent := gather accepted (alone disk store peer settings) es
    let failures := gather failing (alone disk store peer settings) es
    Served base input settings.maxPacketBytes t.past sent ∧
      (∃ s, t.now.session? 0 = some s ∧
        (∀ r, s.result? = some r →
          Finish base input (t.past.input 0) settings.maxPacketBytes peer (t.past.landed 0) sent failures
            r) ∧
        (s.result? = none → failures = [] ∧ ∃ e t', e.isInside = true ∧ t.step? e = some t' ∧
          Reads input (share 0 t'.past.received))) ∧
      es.length ≤ input.length * (base.length + input.length + 16) + 2 := by
  intro sent failures
  have hstart := alone_start hfile peer settings
  have hfirst : ∀ s, (alone disk store peer settings).session? 0 = some s →
      s.IsOf peer settings := by
    rintro s ⟨⟩
    exact .start peer settings
  have halone : Alone base (alone disk store peer settings) {} [] [] := ⟨_, _, _, _, hstart⟩
  obtain ⟨s, due, unread, left, hat⟩ := halone.run hinside hrun
  have hs : t.now.session? 0 = some s := session?_eq_some.2 hat.task?_eq
  have hof : s.IsOf peer settings :=
    Traced.run_moves (P := fun g _ => ∀ s, g.session? 0 = some s → s.IsOf peer settings)
      (fun h hm => hm.isOf h) hfirst hrun s hs
  refine ⟨?_, ⟨s, hs, ?_, ?_⟩, ?_⟩
  · rw [← hof.limit]
    exact hat.served (hof.remainder.trans hkeep) hreads
  · intro r hr
    exact hat.finish hof hkeep hreads hr
  · intro hresult
    have hsize : 0 < s.readSize := by
      rw [hof.readSize, SessionSettings.readSize]
      exact Nat.lt_of_lt_of_le Nat.zero_lt_one (Nat.le_max_right _ _)
    exact ⟨hat.standing.failures_eq_nil hresult, hat.can_go_on hsize hresult hreads⟩
  · have hlength : (t.past.input 0).length ≤ input.length := hreads.front.length_le
    have hrun' := halone.length_run hkeep hfirst hinside hrun hlength (Nat.le_refl _)
      (session?_eq_some.2 hstart.task?_eq) hs
    have hbound : (alone disk store peer settings).remaining (base.length + input.length) input.length
        {} (.start peer settings) = input.length * (base.length + input.length + 16) + 0 + 2 := by
      simp [remaining, effort, pollsLeft, Session.start, Chronicle.input]
    exact (Nat.le_of_add_right_le hrun').trans (Nat.le_of_eq hbound)

/-- A session on a log that was not empty. -/
def SharedLog.revisit : SharedLog :=
  alone { nodes := [(["data"], .file (utf8 "old\n"))] } { path := ⟨[], "data"⟩, committed := 4 }
    (.quad 127 0 0 1 1) { chunkSize := 4, maxPacketBytes := 6 }

/-- Two packets in two reads; the second echo breaks off. -/
def SharedLog.brokenOff : List Event :=
  [.receive 0 (.ok (utf8 "ab\nc")), .frame 0, .ask 0, .grant, .file none, .file none, .file none,
    .file none, .release, .send 0 (.ok 3), .send 0 (.ok 9), .flush 0 (.ok ()), .frame 0,
    .receive 0 (.ok (utf8 "\nd")), .frame 0, .ask 0, .grant, .file none, .file none, .file none,
    .file none, .release, .send 0 (.ok 5), .send 0 (.error .brokenPipe)]

/-- The theorem at an echo that breaks off. -/
theorem brokenOff_serves : ∃ t s, Traced.run? ⟨revisit, {}⟩ brokenOff = some t ∧
    t.now.session? 0 = some s ∧
    Finish (utf8 "old\n") (utf8 "ab\nc\nd") (utf8 "ab\nc\nd") 6 (.quad 127 0 0 1 1)
      [utf8 "ab\n", utf8 "c\n"]
      (utf8 "old\nab\nold\na") [.connection (.send (.quad 127 0 0 1 1) .brokenPipe)]
      (.error (.connection (.send (.quad 127 0 0 1 1) .brokenPipe))) := by
  have hfile : ({ nodes := [(["data"], .file (utf8 "old\n"))] } : Disk).content? ⟨[], "data"⟩ =
      some (utf8 "old\n") := by decide +kernel
  have hinside : brokenOff.all Event.isInside = true := by decide +kernel
  have hend : (Traced.run? ⟨revisit, {}⟩ brokenOff).map (fun t =>
      (share 0 t.past.received, t.past.landed 0)) =
      some ([utf8 "ab\nc", utf8 "\nd"], [utf8 "ab\n", utf8 "c\n"]) := by decide +kernel
  have hsent : gather accepted revisit brokenOff = utf8 "old\nab\nold\na" := by decide +kernel
  have hfailures : gather failing revisit brokenOff =
      [.connection (.send (.quad 127 0 0 1 1) .brokenPipe)] := by decide +kernel
  obtain ⟨t, hrun, hend⟩ := Option.map_eq_some_iff.1 hend
  obtain ⟨hreceived, hlanded⟩ := Prod.mk.inj hend
  have hreads : Reads (utf8 "ab\nc\nd") (share 0 t.past.received) := by
    rw [hreceived]
    exact ⟨by decide, by decide⟩
  obtain ⟨-, ⟨s, hs, hfinish, hopen⟩, -⟩ :=
    lone_session_serves_its_input hfile (.quad 127 0 0 1 1) rfl hinside hrun hreads
  refine ⟨t, s, hrun, hs, ?_⟩
  cases hr : s.result? with
  | none =>
      have hnone : gather failing revisit brokenOff = [] := (hopen hr).1
      rw [hfailures] at hnone
      cases hnone
  | some r =>
      have hlast : Finish (utf8 "old\n") (utf8 "ab\nc\nd") (t.past.input 0) 6 (.quad 127 0 0 1 1)
          (t.past.landed 0) (gather accepted revisit brokenOff) (gather failing revisit brokenOff) r :=
        hfinish r hr
      rw [hlanded, hsent, hfailures, Chronicle.input, hreceived] at hlast
      cases hlast with
      | notSent cause hne hcut hlogs hsent => exact .notSent _ hne hcut hlogs hsent

end EchoLog
