import EchoLog.Proofs.Session.Looks
/-!
# What a session holds

A session that waits for bytes holds the packet in progress and no more: no newline, no byte over the
limit, and all of it searched.  A read adds what one read may take, and from then on every look that finds
a packet takes bytes away until the next read (`Session.Light`).  So what a peer can make a session hold is
bounded by the settings, whether it never sends a newline or sends nothing but newlines.

How long it goes on without a read, and that it can always come to the next, is what
`EchoLog.Proofs.Session.Looks` says.
-/

namespace EchoLog

namespace Session

/-- A session holds no more than a packet in progress and one read; while it waits for bytes, no more than
the packet in progress, which it has searched to the end. -/
structure Light (s : Session) : Prop where
  tracks : s.framer.Tracks s.held
  bounded : s.held.length ≤ s.framer.limit + s.readSize
  waiting : s.stage = .receiving →
    newline ∉ s.held ∧ s.held.length ≤ s.framer.limit ∧ s.framer.searched = s.held.length

theorem light_start (peer : Endpoint) (settings : SessionSettings) : (start peer settings).Light where
  tracks := Framer.tracks_of_searched_zero rfl _
  bounded := Nat.zero_le _
  waiting _ := ⟨List.not_mem_nil, Nat.zero_le _, rfl⟩

namespace Light

variable {s : Session}

/-- A session that goes on to anything but a read holds what it held. -/
theorem goes (h : s.Light) {stage : Stage} {polling : Bool} (hstage : stage ≠ .receiving) :
    ({ s with stage := stage, polling := polling } : Session).Light where
  tracks := h.tracks
  bounded := h.bounded
  waiting hwaits := absurd hwaits hstage

theorem poll (h : s.Light) : s.poll.Light :=
  ⟨h.tracks, h.bounded, h.waiting⟩

theorem fail (h : s.Light) (f : Failure) : (s.fail f).Light :=
  h.goes Stage.noConfusion

theorem echo (h : s.Light) (left : Bytes) : (s.echo left).Light :=
  h.goes (by cases left.isEmpty <;> simp)

theorem stored (h : s.Light) (answer : Except Failure Bytes) : (s.stored answer).Light := by
  cases answer with
  | error f => exact h.fail f
  | ok log => exact h.echo log

theorem sent (h : s.Light) (left : Bytes) (result : Except IoError Nat) : (s.sent left result).Light := by
  rcases result with cause | n
  · exact h.fail _
  · cases n with
    | zero => exact h.fail _
    | succ n => exact h.echo _

theorem flushed (h : s.Light) (result : Except IoError Unit) : (s.flushed result).Light := by
  cases result with
  | error cause => exact h.fail _
  | ok _ => exact h.goes Stage.noConfusion

theorem leave (s : Session) : s.leave.Light where
  tracks := Framer.tracks_of_searched_zero rfl _
  bounded := Nat.zero_le _
  waiting hwaits := by cases hwaits

/-- One read comes to a packet in progress. -/
theorem receive (h : s.Light) (hstage : s.stage = .receiving) {input : Except IoError Bytes}
    (hfits : SharedLog.fits s input = true) : (s.receive input).Light := by
  rcases input with cause | chunk
  · exact h.fail _
  · cases chunk with
    | nil => exact h.goes Stage.noConfusion
    | cons b chunk =>
        obtain ⟨-, hheld, -⟩ := h.waiting hstage
        refine ⟨h.tracks.feed _, ?_, fun hwaits => by cases hwaits⟩
        have hread : (b :: chunk).length ≤ s.readSize := of_decide_eq_true hfits
        show (s.held ++ b :: chunk).length ≤ s.framer.limit + s.readSize
        rw [List.length_append]
        exact Nat.add_le_add hheld hread

/-- A look leaves no more than there was, and waits for bytes only with a packet in progress. -/
theorem frame (h : s.Light) : s.frame.Light := by
  have htracks := h.tracks.look
  rcases Framer.look_cases h.tracks with ⟨l, rest, -, -, hheld, e⟩ | ⟨hopen, hshort, e⟩ | ⟨-, e⟩
  all_goals
    rw [e] at htracks
    simp only [Session.frame, e]
  · refine ⟨htracks, ?_, fun hwaits => by cases hwaits⟩
    have hrest : (s.framer.remainder.kept rest).length ≤ s.held.length := by
      rw [hheld, List.length_append]
      cases s.framer.remainder with
      | keep => exact Nat.le_add_left _ _
      | drop => exact Nat.zero_le _
    exact hrest.trans h.bounded
  · exact ⟨htracks, h.bounded, fun _ => ⟨hopen, hshort, rfl⟩⟩
  · exact ⟨htracks, h.bounded, fun hwaits => by cases hwaits⟩

/-- **A session that moves by itself stays light.** -/
theorem own (h : s.Light) {i : Nat} {cancelled : Bool} {e : Event} {s' : Session}
    (hown : Task.Own i cancelled e (.session s) (.session s')) : s'.Light := by
  cases hown with
  | poll => exact h.poll
  | receive hstage _ hfits => exact h.receive hstage hfits
  | frame _ => exact h.frame
  | send _ _ => exact h.sent _ _
  | flush _ _ => exact h.flushed _
  | leave _ _ => exact Light.leave s

end Light

end Session

namespace SharedLog

variable {g g' : SharedLog} {e : Event} {i : Nat}

/-- **No move makes a session hold too much.** -/
theorem Move.light (hm : Move g e g') (h : ∀ s, g.session? i = some s → s.Light) :
    ∀ s, g'.session? i = some s → s.Light :=
  hm.keeps (fun h hown => h.own hown) (fun answer h => h.stored answer) h

end SharedLog

open SharedLog

/-- **A session only ever holds the packet in progress.**  Whatever its settings, its peer, the other tasks
and other processes do, and whatever fails: while it waits for bytes it holds no newline, no more bytes
than the limit, and has searched all of them; at any moment it holds no more than the limit and one read;
and every look that finds a packet leaves it fewer bytes.  So its loop ends.  From any moment on it takes,
until its next read, no more looks than are left: one for each byte that it holds and one more, and none
while it waits for bytes or once it has ended.  And from any moment on it can come to where it waits for
bytes or has ended, without another read. -/
theorem session_holds_packet_in_progress {disk : Disk} {store : Store} {seats : List Seat} {i : Nat}
    {peer : Endpoint} {settings : SessionSettings}
    (hstart : session? { disk := disk, store := store, seats := seats } i =
      some (.start peer settings))
    {es : List Event} {g : SharedLog}
    (hrun : run? { disk := disk, store := store, seats := seats } es = some g) :
    ∃ s, g.session? i = some s ∧
      (s.stage = .receiving → newline ∉ s.held ∧ s.held.length ≤ settings.maxPacketBytes ∧
        s.framer.searched = s.held.length) ∧
      s.held.length ≤ settings.maxPacketBytes + max settings.chunkSize 1 ∧
      (∀ packet, s.frame.stage = .storing packet → s.frame.held.length < s.held.length) ∧
      (∀ es' g', Unread i g es' g' →
        ∃ s', g'.session? i = some s' ∧ es'.countP (·.isLook i) + s'.looksLeft ≤ s.looksLeft) ∧
      ∃ es' g' s', Unread i g es' g' ∧ g'.session? i = some s' ∧ s'.IsThrough := by
  have hfirst : ∀ {P : Session → Prop}, P (.start peer settings) →
      ∀ s, session? { disk := disk, store := store, seats := seats } i = some s → P s := by
    intro P h s hs
    cases hstart.symm.trans hs
    exact h
  have hq : g.Queue := (queue_start disk store seats).run hrun
  obtain ⟨s, hs⟩ := exists_session_of_run ⟨_, hstart⟩ hrun
  have hof : s.IsOf peer settings :=
    run_states (fun h hm => hm.isOf h) (hfirst (.start peer settings)) hrun s hs
  have hlight : s.Light :=
    run_states (fun h hm => hm.light h) (hfirst (Session.light_start peer settings)) hrun s hs
  refine ⟨s, hs, ?_, ?_, fun packet h => Session.held_frame_lt h, ?_, hq.getsThrough hs⟩
  · rw [← hof.limit]
    exact hlight.waiting
  · have hbounded := hlight.bounded
    rw [hof.limit, hof.readSize] at hbounded
    exact hbounded
  · intro es' g' hunread
    obtain ⟨s', hs'⟩ := exists_session_of_run ⟨s, hs⟩ hunread.run
    obtain ⟨r, hr, hlooks⟩ := hq.countP_looks hunread hs'
    cases hs.symm.trans hr
    exact ⟨s', hs', hlooks⟩

/-- A session that reads eight bytes at once and takes packets of four, on a log that was just created. -/
def SharedLog.mouth : SharedLog where
  disk := { nodes := [(["data"], .file [])] }
  store := { path := ⟨[], "data"⟩ }
  seats :=
    [⟨.session (.start (.quad 127 0 0 1 1) { chunkSize := 8, maxPacketBytes := 4 }), false⟩]

/-- One read with two packets and the longest start of a third. -/
def SharedLog.gulp : List Event :=
  [.receive 0 (.ok (utf8 "a\nb\ncccc"))]

/-- Both packets are stored and echoed, and a third look finds no other. -/
def SharedLog.digest : List Event :=
  [.frame 0, .ask 0, .grant, .file none, .file none, .file none, .file none, .release, .send 0 (.ok 2),
    .flush 0 (.ok ()), .frame 0, .ask 0, .grant, .file none, .file none, .file none, .file none, .release,
    .send 0 (.ok 4), .flush 0 (.ok ()), .frame 0]

/-- The theorem after that read, and when the session waits for the next. -/
theorem gulp_is_digested : ∃ g g' s s', mouth.run? gulp = some g ∧ g.session? 0 = some s ∧
    s.held = utf8 "a\nb\ncccc" ∧ s.held.length ≤ 4 + max 8 1 ∧
    g.run? digest = some g' ∧ g'.session? 0 = some s' ∧ s'.held = utf8 "cccc" ∧ newline ∉ s'.held ∧
    s'.held.length ≤ 4 ∧ s'.framer.searched = s'.held.length ∧
    digest.countP (·.isLook 0) + s'.looksLeft ≤ s.looksLeft := by
  have hreads : ∀ e ∈ digest, e.isRead 0 = false := by decide
  have hfirst : (mouth.run? gulp).bind (fun g => (g.session? 0).map (·.held)) =
      some (utf8 "a\nb\ncccc") := by decide +kernel
  have hlast : (mouth.run? (gulp ++ digest)).bind (fun g => (g.session? 0).map fun s =>
      (s.held, (Task.session s).canLeave, s.looksLeft)) = some (utf8 "cccc", true, 0) := by decide +kernel
  obtain ⟨g', hwhole, hlast⟩ := Option.bind_eq_some_iff.1 hlast
  obtain ⟨g, hrun, hrun'⟩ := Option.bind_eq_some_iff.1 ((run?_append _ _ _).symm.trans hwhole)
  obtain ⟨s, hs, -, hbounded, -, hlooks, -⟩ := session_holds_packet_in_progress (i := 0) rfl hrun
  obtain ⟨s', hs', hlooks⟩ := hlooks digest g' ⟨hreads, hrun'⟩
  obtain ⟨r, hr, hwaits, -⟩ := session_holds_packet_in_progress (i := 0) rfl hwhole
  cases hs'.symm.trans hr
  rw [hrun, Option.bind_some, hs, Option.map_some, Option.some.injEq] at hfirst
  rw [hs', Option.map_some, Option.some.injEq, Prod.mk.injEq, Prod.mk.injEq] at hlast
  obtain ⟨hheld, hleaves, hnone⟩ := hlast
  have hstage : s'.stage = .receiving := by
    cases h : s'.stage with
    | receiving => rfl
    | _ => simp [Task.canLeave, Session.looksLeft, h] at hleaves hnone
  obtain ⟨hopen, hshort, hsearched⟩ := hwaits hstage
  exact ⟨g, g', s, s', hrun, hs, hfirst, hbounded, hrun', hs', hheld, hopen, hshort, hsearched, hlooks⟩

end EchoLog
