import EchoLog.Proofs.Framing.Cuts
import EchoLog.Proofs.SharedLog.Steady
import EchoLog.Proofs.Timestamp.Record
/-!
# The log can be framed back

Whatever a session commits is a line of what it received, and whatever a timestamp writer commits is a
record by its own pattern.  So as long as no record is written with a newline in it, the log of an
undisturbed run is a stream of whole lines: a framer that reads it, in any cutting, gives back the
commits one for one and keeps nothing.  The policy of the sessions has no part in this, since what a
session drops never reaches the log.
-/

namespace EchoLog

/-- A timestamp writer has nothing ready but a record by its own pattern. -/
theorem Task.Own.ready_isRecord {i : Nat} {cancelled : Bool} {e : Event} {t t' : Task}
    {format : String} (h : Own i cancelled e t t') (hk : t.kind = .writer format) :
    ∀ r ∈ t'.ready, Timestamp.IsRecord format r := by
  cases h with
  | poll => cases hk
  | receive => cases hk
  | frame => cases hk
  | send => cases hk
  | flush => cases hk
  | leave hleave =>
      rw [Task.ready_leave hleave]
      intro r hr
      cases hr
  | @tick w now time =>
      cases hk
      intro r hr
      cases hrecord : Timestamp.record? time w.format with
      | none =>
          simp only [Task.ready, Task.request?, Timestamp.Writer.tick, hrecord, Option.bind_none,
            Option.toList_none] at hr
          cases hr
      | some record =>
          simp only [Task.ready, Task.request?, Timestamp.Writer.tick, hrecord, Option.bind_some,
            Request.bytes?, Option.toList_some] at hr
          exact ⟨time, record, hrecord, List.mem_singleton.1 hr⟩

namespace SharedLog

variable {g g' : SharedLog} {c : Chronicle} {e : Event}

/-- What timestamp writers have had ready are records by their own patterns. -/
def Stamped (g : SharedLog) (c : Chronicle) : Prop :=
  ∀ i format, (g.task? i).map Task.kind = some (.writer format) →
    ∀ r ∈ share i c.offered, Timestamp.IsRecord format r

/-- **Every move keeps the records in order.** -/
theorem Stamped.move (h : g.Stamped c) (hm : Move g e g') : g'.Stamped (c.note g e g') := by
  intro j format hj r hr
  rw [hm.kind] at hj
  have hold := h j format hj r
  cases hm with
  | @own i _ t t' more ht hown =>
      rw [Chronicle.note_own hown (task?_report_self ht more), share_append, List.mem_append] at hr
      rcases hr with hr | hr
      · exact hold hr
      · by_cases hij : i = j
        · subst hij
          rw [share_self] at hr
          rw [ht] at hj
          exact hown.ready_isRecord (Option.some.inj hj) r hr
        · rw [share_other hij] at hr
          cases hr
  | ask => exact hold hr
  | grant => exact hold hr
  | file => exact hold hr
  | release => exact hold hr
  | fire => exact hold hr
  | outside => exact hold hr

/-- A commit is a packet of a session, or a record of a timestamp writer. -/
theorem Accounts.commit_cases (h : g.Accounts c) (hbalanced : g.Balanced c) (hstamped : g.Stamped c)
    {i : Nat} {m : Commit} (hm : (i, m) ∈ c.commits) :
    (∃ limit policy, (g.task? i).map Task.kind = some (.session limit policy) ∧
      IsLine m.bytes ∧ m.bytes.length ≤ limit) ∨
    ∃ format, (g.task? i).map Task.kind = some (.writer format) ∧
      Timestamp.IsRecord format m.bytes := by
  have hoffered : m.bytes ∈ share i c.offered :=
    (hbalanced.landed_prefix i).subset (List.mem_map_of_mem (mem_share.2 hm))
  cases ht : g.task? i with
  | none =>
      rw [h.nobody i ht] at hoffered
      cases hoffered
  | some t =>
      have haccount := h.task i t ht
      cases t with
      | session s => exact .inl ⟨_, _, rfl, haccount.packets _ hoffered⟩
      | writer w => exact .inr ⟨_, rfl, hstamped i w.format (by rw [ht]; rfl) _ hoffered⟩
      | caller d =>
          rw [haccount.2] at hoffered
          cases hoffered

end SharedLog

/-- **Lines are framed back from what they make up**, however it is cut. -/
theorem Framing.consume_lines {limit : Nat} {ls : List Bytes}
    (hls : ∀ l ∈ ls, IsLine l ∧ l.length ≤ limit) {chunks : List Bytes}
    (hchunks : chunks.flatten = ls.flatten) :
    (Framing.start limit .keep).consume chunks = ⟨⟨0, limit, .keep⟩, [], ls, none⟩ := by
  have hlines : lines chunks.flatten = ls := by
    rw [hchunks]
    simpa [lines_open] using lines_flatten_append (fun l hl => (hls l hl).1) []
  have hrest : unfinished chunks.flatten = [] := by
    rw [hchunks]
    simpa [unfinished_open] using unfinished_flatten_append (fun l hl => (hls l hl).1) []
  have hfits : Fits limit chunks.flatten := by
    refine ⟨?_, by rw [hrest]; exact Nat.zero_le limit⟩
    rw [hlines]
    exact fun l hl => (hls l hl).2
  have hsettled : settled limit chunks.flatten = ⟨⟨0, limit, .keep⟩, [], ls, none⟩ := by
    rw [settled, hlines, hrest]
    rfl
  have hconsume := consume_settled limit chunks [] (fits_nil limit)
  rw [List.nil_append, if_pos hfits, hsettled] at hconsume
  exact hconsume

open SharedLog

/-- **The log can be framed back into what was committed.**  After any undisturbed run on a log that
was just created, in which no pattern writes a time with a newline: when the lock is free the file is a
stream of lines, and a framer that keeps what follows a packet, and whose limit is not below any of
them, finds exactly the commits in their order and is left with nothing, wherever the chunks end.  Each
commit is a line: a packet of a session, within the limit of that session, or a record of a timestamp
writer. -/
theorem log_frames_back {disk fresh : Disk} {path : Path} {sync : Bool} {store : Store}
    (hcreate : Store.create disk path sync = .ok (store, fresh)) {seats : List Seat}
    (hseats : ∀ seat ∈ seats, seat.task.Starting)
    (hplain : ∀ seat ∈ seats, ∀ format, seat.task.kind = .writer format →
      Timestamp.IsPlain format) {es : List Event} {t : Traced}
    (hkind : Along isUndisturbed { disk := fresh, store := store, seats := seats } es = true)
    (hrun : Traced.run? ⟨{ disk := fresh, store := store, seats := seats }, {}⟩ es = some t)
    (hfree : t.now.holder = none) :
    (∃ log, t.now.disk.content? t.now.store.path = some log ∧
      ∀ (limit : Nat) (chunks : List Bytes), chunks.flatten = log →
        (∀ m ∈ t.past.commits, m.2.bytes.length ≤ limit) →
        let w := (Framing.start limit .keep).consume chunks
        w.packets = t.past.commits.map (·.2.bytes) ∧ w.buffer = [] ∧ w.failure = none) ∧
    ∀ m ∈ t.past.commits, IsLine m.2.bytes ∧
      ((∃ seat limit policy, seats[m.1]? = some seat ∧ seat.task.kind = .session limit policy ∧
          m.2.bytes.length ≤ limit) ∨
        ∃ seat format, seats[m.1]? = some seat ∧ seat.task.kind = .writer format ∧
          Timestamp.IsRecord format m.2.bytes) := by
  have hsteady := Traced.steady_of_run hcreate hseats hkind hrun
  have hstamped : t.now.Stamped t.past :=
    Traced.run_moves (fun h hm => h.move hm) (fun _ _ _ r hr => absurd hr List.not_mem_nil) hrun
  have hseat : ∀ {i : Nat} {k : Task.Kind}, (t.now.task? i).map Task.kind = some k →
      ∃ seat, seats[i]? = some seat ∧ seat.task.kind = k := by
    intro i k hk
    rw [Traced.kind_of_run hrun i, task?, Option.map_map, Option.map_eq_some_iff] at hk
    exact hk
  have hcommits : ∀ m ∈ t.past.commits, IsLine m.2.bytes ∧
      ((∃ seat limit policy, seats[m.1]? = some seat ∧ seat.task.kind = .session limit policy ∧
          m.2.bytes.length ≤ limit) ∨
        ∃ seat format, seats[m.1]? = some seat ∧ seat.task.kind = .writer format ∧
          Timestamp.IsRecord format m.2.bytes) := by
    intro m hm
    rcases hsteady.accounts.commit_cases hsteady.balanced hstamped hm with ⟨limit, policy, hk, hline, hle⟩ |
      ⟨format, hk, hrecord⟩
    · obtain ⟨seat, hs, hkind⟩ := hseat hk
      exact ⟨hline, .inl ⟨seat, limit, policy, hs, hkind, hle⟩⟩
    · obtain ⟨seat, hs, hkind⟩ := hseat hk
      have hplain := hplain seat (List.mem_of_getElem? hs) format hkind
      exact ⟨hrecord.isLine hplain, .inr ⟨seat, format, hs, hkind, hrecord⟩⟩
  refine ⟨⟨wholeLog t.past.commits, (hsteady.recorded.file_of_free hfree).1, ?_⟩, hcommits⟩
  intro limit chunks hchunks hlimit
  have hls : ∀ l ∈ t.past.commits.map (·.2.bytes), IsLine l ∧ l.length ≤ limit := by
    intro l hl
    obtain ⟨m, hm, rfl⟩ := List.mem_map.1 hl
    exact ⟨(hcommits m hm).1, hlimit m hm⟩
  rw [Framing.consume_lines hls hchunks]
  exact ⟨rfl, rfl, rfl⟩

/-- Two sessions, one of either policy, a timestamp writer and a reader on a log that was just
created. -/
def SharedLog.mixedCrowd : SharedLog where
  disk := { nodes := [(["data"], .file [])] }
  store := { path := ⟨[], "data"⟩ }
  seats :=
    [⟨.session (.start (.quad 127 0 0 1 1) { maxPacketBytes := 8 }), false⟩,
      ⟨.session (.start (.quad 127 0 0 1 2) { maxPacketBytes := 8, remainder := .drop }), false⟩,
      ⟨.writer (.start 0 0 5 "%%"), false⟩, ⟨.caller ⟨.snapshot, none⟩, false⟩]

/-- A packet whose bytes are dropped behind its newline, a packet that is torn and cut back, a record,
and a packet after it that comes in two pieces. -/
def SharedLog.tangle : List Event :=
  [.receive 1 (.ok (utf8 "a\nlost\n")), .frame 1, .ask 1, .receive 0 (.ok (utf8 "torn\nb")), .grant,
    .frame 0, .file none, .ask 0, .file none, .file none, .file none, .release, .grant, .file none,
    .tick 2 5 ⟨⟨0, 0⟩, .utc⟩, .file (some ⟨.noSpace, 3⟩), .ask 2, .file none, .release, .grant,
    .file none, .send 1 (.ok 2), .flush 1 (.ok ()), .frame 1, .receive 1 (.ok (utf8 "c")), .frame 1,
    .file none, .file none, .release, .receive 1 (.ok (utf8 "c\n")), .frame 1, .ask 1, .grant,
    .file none, .file none, .file none, .file none, .release]

theorem isPlain_percent : Timestamp.IsPlain "%%" := by
  intro t text htext
  have hpercent : Pattern.format? t "%%" = some "%" := by cbv
  rw [hpercent] at htext
  cases htext
  decide

/-- The theorem at a log of two packets and a record, with a packet that was cut back between them. -/
theorem tangle_frames_back : ∃ t, Traced.run? ⟨mixedCrowd, {}⟩ tangle = some t ∧
    t.past.commits.map (·.2.bytes) = [utf8 "a\n", utf8 "timestamp:%\n", utf8 "cc\n"] ∧
    ((Framing.start 16 .keep).consume [utf8 "a\ntime", utf8 "stamp:%\ncc\n"]).packets =
      [utf8 "a\n", utf8 "timestamp:%\n", utf8 "cc\n"] ∧
    ∀ m ∈ t.past.commits, IsLine m.2.bytes := by
  have hcreate : Store.create {} ⟨[], "data"⟩ false = .ok (mixedCrowd.store, mixedCrowd.disk) := rfl
  have hseats : ∀ seat ∈ mixedCrowd.seats, seat.task.Starting := by
    simp only [mixedCrowd, List.forall_mem_cons]
    exact ⟨.session .., .session .., .writer .., .caller _ (.inl rfl), List.forall_mem_nil _⟩
  have hplain : ∀ seat ∈ mixedCrowd.seats, ∀ format, seat.task.kind = .writer format →
      Timestamp.IsPlain format := by
    simp only [mixedCrowd, List.forall_mem_cons]
    refine ⟨nofun, nofun, ?_, nofun, List.forall_mem_nil _⟩
    rintro format ⟨⟩
    exact isPlain_percent
  have hkind : Along isUndisturbed mixedCrowd tangle = true := by decide +kernel
  have hend : (Traced.run? ⟨mixedCrowd, {}⟩ tangle).map
      (fun t => (t.now.holder.isNone, t.now.content, t.past.commits.map (·.2.bytes))) =
      some (true, utf8 "a\ntimestamp:%\ncc\n", [utf8 "a\n", utf8 "timestamp:%\n", utf8 "cc\n"]) := by
    decide +kernel
  obtain ⟨t, hrun, hend⟩ := Option.map_eq_some_iff.1 hend
  simp only [Prod.mk.injEq, Option.isNone_iff_eq_none] at hend
  obtain ⟨hfree, hlog, hcommits⟩ := hend
  obtain ⟨⟨log, hfile, hframed⟩, hlines⟩ :=
    log_frames_back hcreate hseats hplain hkind hrun hfree
  have hlog' : log = utf8 "a\ntimestamp:%\ncc\n" := by rw [← hlog, content, hfile]; rfl
  have hlimit : ∀ m ∈ t.past.commits, m.2.bytes.length ≤ 16 := by
    have h : ∀ l ∈ t.past.commits.map (·.2.bytes), l.length ≤ 16 := by rw [hcommits]; decide
    exact fun m hm => h _ (List.mem_map_of_mem hm)
  have hpackets := (hframed 16 [utf8 "a\ntime", utf8 "stamp:%\ncc\n"]
    (by rw [hlog']; decide) hlimit).1
  refine ⟨t, hrun, hcommits, ?_, fun m hm => (hlines m hm).1⟩
  rw [hpackets, hcommits]

end EchoLog
