import EchoLog.Proofs.Session.Standing
/-!
# A session that has its store to itself has packets stored

The session asks for the lock, gets it, takes the file steps of its request and gets its answer.  Of
the file steps at most one commits the packet (`At.file_commit`); any other leaves what is to be done
as it was (`At.file_same`), so a request that fails is answered with a failure, and its packet was
either not committed or not read back.

Together with the events of the session itself these are all that can happen (`Alone.move`), so the
books are kept along every run (`Alone.run`).
-/

namespace EchoLog

namespace SharedLog

namespace At

variable {base sent left : Bytes} {g g' : SharedLog} {c : Chronicle} {failures : List Failure}
  {s : Session} {due unread : List Bytes}

/-- Where the session asks for something, it is the only one to wait. -/
theorem waiting_eq_nil (h : At base g c sent failures s due unread left) {i : Nat} {r : Request}
    (hr : g.request? i = some r) (hqueued : g.isQueued i = false) :
    g.holder = none ∧ g.waiting = [] := by
  obtain ⟨hholder, hwaiting⟩ := isQueued_eq_false.1 hqueued
  obtain ⟨rfl, -⟩ := h.of_request? hr
  refine ⟨?_, ?_⟩
  · cases hw : g.holder with
    | none => rfl
    | some p =>
        obtain ⟨j, w⟩ := p
        obtain ⟨rfl, -⟩ := h.of_holder hw
        exact absurd hw (hholder w)
  · cases hw : g.waiting with
    | nil => rfl
    | cons p rest =>
        have hp : p ∈ g.waiting := by rw [hw]; exact List.mem_cons_self
        obtain ⟨hzero, -⟩ := h.of_request? (h.queue.waiting p hp)
        exact absurd (hzero ▸ List.mem_map_of_mem hp) hwaiting

theorem ask (h : At base g c sent failures s due unread left) {i : Nat} {r : Request}
    (hr : g.request? i = some r) (hqueued : g.isQueued i = false) {g' : SharedLog}
    (hg : g' = { g with waiting := g.waiting ++ [(i, r)] }) :
    At base g' (c.note g (.ask i) g') (sent ++ g.accepted (.ask i)) (failures ++ g.failing (.ask i)) s
      due unread left := by
  have hqueue : g'.Queue := by
    rw [hg]
    exact h.queue.move (.ask hr hqueued)
  obtain ⟨rfl, packet, hstage, -⟩ := h.of_request? hr
  obtain ⟨hholder, -⟩ := h.waiting_eq_nil hr hqueued
  simp only [accepted, failing, List.append_nil]
  refine ⟨hqueue, by rw [hg]; exact h.seats, h.account, h.offered, h.logs, h.returned, h.sent, h.last,
    h.spoken, h.closed, ?_⟩
  cases h.standing with
  | asking hstage' _ hfile =>
      rw [hg]
      exact .asking hstage' hholder hfile
  | _ => simp_all

theorem grant (h : At base g c sent failures s due unread left) {i : Nat} {r : Request}
    {rest : List (Nat × Request)} (hnone : g.holder = none) (hw : g.waiting = (i, r) :: rest)
    {g' : SharedLog} (hg : g' = { g with holder := some (i, .ofRequest g.store r), waiting := rest }) :
    At base g' (c.note g .grant g') (sent ++ g.accepted .grant) (failures ++ g.failing .grant) s
      due unread left := by
  have hqueue : g'.Queue := by
    rw [hg]
    exact h.queue.move (.grant hnone hw)
  have hr : g.request? i = some r := h.queue.waiting (i, r) (by rw [hw]; exact List.mem_cons_self)
  obtain ⟨rfl, packet, hstage, rfl⟩ := h.of_request? hr
  simp only [accepted, failing, List.append_nil]
  refine ⟨hqueue, by rw [hg]; exact h.seats, h.account, h.offered, h.logs, h.returned, h.sent, h.last,
    h.spoken, h.closed, ?_⟩
  cases h.standing with
  | asking hstage' _ hfile =>
      cases hstage.symm.trans hstage'
      rw [hg]
      exact .writing hstage rfl (.opening hfile) rfl
  | _ => simp_all

/-- A file step that commits nothing. -/
theorem file_same (h : At base g c sent failures s due unread left) {w w' : Work}
    {fault : Option Fault} (hq : g'.Queue) (hseats : g'.seats = g.seats) (hw : g.holder = some (0, w))
    (hw' : g'.holder = some (0, w')) (hlanding : w.landing w' = [])
    (hstanding : Standing g' s (base ++ (c.landed 0).flatten) due unread left failures) :
    At base g' (c.note g (.file fault) g') (sent ++ g.accepted (.file fault))
      (failures ++ g.failing (.file fault)) s due unread left := by
  have hlanded := (c.landed_file fault hw hw').1
  have hlogs := (c.logs_file fault hw hw').1
  rw [hlanding, List.append_nil] at hlanded
  rw [Work.commits, hlanding, List.map_nil, List.map_nil, List.append_nil] at hlogs
  simp only [accepted, failing, List.append_nil]
  refine ⟨hq, hseats.trans h.seats, h.account, ?_, ?_, ?_, h.sent, h.last, h.spoken,
    h.closed, ?_⟩
  · rw [hlanded]
    exact h.offered
  · rw [hlogs, hlanded]
    exact h.logs
  · rw [hlogs]
    exact h.returned
  · rw [hlanded]
    exact hstanding

/-- The file step that commits the packet: its log is to be read back now. -/
theorem file_commit {packet : Bytes} (h : At base g c sent failures s [packet] [] left) {w : Work}
    {fault : Option Fault} (hq : g'.Queue) (hseats : g'.seats = g.seats) (hw : g.holder = some (0, w))
    (hbytes : w.bytes? = some packet) (hw' : g'.holder = some (0, .reading))
    (hstage : s.stage = .storing packet) (hfile : g'.Holds (base ++ (c.landed 0).flatten ++ packet))
    (hleft : left = []) (hfailures : failures = []) :
    At base g' (c.note g (.file fault) g') (sent ++ g.accepted (.file fault))
      (failures ++ g.failing (.file fault)) s [] [base ++ (c.landed 0).flatten ++ packet] left := by
  have hlanding : w.landing .reading = [packet] := by
    rw [Work.landing_of_isPast rfl, hbytes, Option.toList_some]
  have hlanded := (c.landed_file fault hw hw').1
  have hlogs := (c.logs_file fault hw hw').1
  have hcontent : g'.content = base ++ (c.landed 0).flatten ++ packet := by
    rw [content, hfile]
    rfl
  rw [hlanding] at hlanded
  rw [Work.commits, hlanding, hcontent, List.map_singleton, List.map_singleton] at hlogs
  have hflat : (c.landed 0 ++ [packet]).flatten = (c.landed 0).flatten ++ packet := by
    rw [List.flatten_append, List.flatten_singleton]
  simp only [accepted, failing, List.append_nil]
  refine ⟨hq, hseats.trans h.seats, h.account, ?_, ?_, ?_, h.sent, h.last, h.spoken,
    h.closed, ?_⟩
  · rw [hlanded, List.append_nil]
    exact h.offered
  · rw [hlogs, hlanded, snapshots_concat, h.logs]
  · have hreturned := h.returned
    rw [List.append_nil] at hreturned
    rw [hlogs, hreturned]
    rfl
  · rw [hlanded, hflat, ← List.append_assoc, hleft, hfailures]
    exact .reading hstage hw' hfile

theorem file (h : At base g c sent failures s due unread left) {i : Nat} {w : Work}
    {fault : Option Fault} (hw : g.holder = some (i, w)) (hmore : w.answer? = none) {p : Progress}
    (hp : p = w.step fault g.store g.disk) {g' : SharedLog} (hq : g'.Queue)
    (hseats : g'.seats = g.seats) (hw' : g'.holder = some (i, p.work)) (hstore : g'.store = p.store)
    (hdisk : g'.disk = p.disk) :
    ∃ due' unread', At base g' (c.note g (.file fault) g') (sent ++ g.accepted (.file fault))
      (failures ++ g.failing (.file fault)) s due' unread' left := by
  obtain ⟨rfl, packet₀, hpacket₀⟩ := h.of_holder hw
  -- whatever fails, nothing is committed, and what was to be done stays undone
  have hfails : ∀ {packet : Bytes}, s.stage = .storing packet → left = [] → failures = [] →
      p.work.Fails → Undone (base ++ (c.landed 0).flatten) packet due unread →
      ∃ due' unread', At base g' (c.note g (.file fault) g') (sent ++ g.accepted (.file fault))
        (failures ++ g.failing (.file fault)) s due' unread' left := by
    intro packet hstage hleft hfailures hfails hundone
    have hlanding : w.landing p.work = [] := by
      refine Work.landing_of_not_isPast ?_
      generalize p.work = w' at hfails
      cases hfails <;> rfl
    refine ⟨due, unread, h.file_same hq hseats hw hw' hlanding ?_⟩
    rw [hleft, hfailures]
    exact .failing hstage hw' hfails hundone
  cases h.standing with
  | @writing packet w₀ hstage hholder hphase hbytes =>
      cases hw.symm.trans hholder
      rcases hphase.step fault with ⟨hsame, -, hgoes⟩ | hend
      · rw [← hp] at hsame hgoes
        rcases hgoes.bytes?_or_isFailing with hb | hfail
        · have hlanding : w.landing p.work = [] :=
            Work.landing_of_not_isPast (Work.isWriting_of_bytes? hb).2.1
          refine ⟨_, _, h.file_same hq hseats hw hw' hlanding (.writing hstage hw' ?_ hb)⟩
          rw [hstore, hdisk, hsame]
          exact hgoes
        · refine hfails hstage rfl rfl ?_ .refused
          generalize p.work = w' at hgoes hfail
          cases hgoes with
          | cutting n hopened => exact .cutting _ _
          | _ => cases hfail
      · rw [← hp] at hend
        clear hp
        cases hend with
        | committed hfile =>
            refine ⟨_, _, h.file_commit hq hseats hw hbytes hw' hstage ?_ rfl rfl⟩
            rw [Holds, hdisk, hstore]
            exact hfile
        | refused hfile => exact hfails hstage rfl rfl (.failed _) .refused
        | cutBack n hfile => exact hfails hstage rfl rfl (.failed _) .refused
        | notCutBack n hfile => exact hfails hstage rfl rfl (.failed _) .refused
  | @reading packet hstage hholder hfile =>
      cases hw.symm.trans hholder
      have hlanding : Work.reading.landing p.work = [] := by
        unfold Work.landing
        split <;> rfl
      simp only [Work.step] at hp
      split at hp
      · refine hfails hstage rfl rfl ?_ .notReadBack
        rw [hp]
        exact .failed _
      · split at hp
        · refine hfails hstage rfl rfl ?_ .notReadBack
          rw [hp]
          exact .failed _
        · rename_i log hread
          have hlog : log = base ++ (c.landed 0).flatten :=
            Option.some.inj ((Disk.content?_of_read hread).symm.trans hfile)
          refine ⟨_, _, h.file_same hq hseats hw hw' hlanding (.answered hstage ?_ ?_)⟩
          · rw [hw', hp, hlog]
          · rw [Holds, hdisk, hstore, hp]
            exact hfile
  | @failing packet w₀ due unread hstage hholder hfail hundone =>
      cases hw.symm.trans hholder
      refine hfails hstage rfl rfl ?_ hundone
      rw [hp]
      cases hfail with
      | cutting file cause =>
          simp only [Work.step]
          split
          · exact .failed _
          · split <;> exact .failed _
      | failed cause => cases hmore
  | answered hstage hholder hfile =>
      cases hw.symm.trans hholder
      cases hmore
  | _ => simp_all

/-- The session gets the log, and sends it. -/
theorem release_log {log : Bytes} (h : At base g c sent [] s [] [log] [])
    (hw : g.holder = some (0, .finished (.ok (.log log)))) (hstage : s.result? = none)
    (hlog : log = base ++ (c.landed 0).flatten) (hq : g'.Queue) (hfile : g'.Holds log)
    (hseats : g'.seats = [⟨.session (s.echo log), false⟩]) :
    At base g' (c.note g .release g') (sent ++ g.accepted .release) ([] ++ g.failing .release)
      (s.echo log) [] [] log := by
  have hne : s.stage ≠ .ended (.ok .cancelled) := by
    intro hs
    rw [Session.result?, hs] at hstage
    cases hstage
  have hreturned : share 0 (c.note g .release g').returned = share 0 c.returned ++ [log] := by
    have hreply : g.reply = [log].map (0, ·) := by
      rw [reply, hw]
      rfl
    simp only [Chronicle.note, share_append, hreply, share_self]
  have hfailing : g.failing .release = [] := by simp only [failing, hw]
  have hsent := h.sent
  rw [List.append_nil] at hsent
  rw [hfailing]
  simp only [accepted, List.append_nil]
  refine ⟨hq, hseats, h.account.echo hne log, h.offered, h.logs, ?_, ?_, ?_, ?_, ?_, ?_⟩
  · rw [hreturned, List.append_nil]
    exact h.returned
  · rw [hreturned, List.flatten_append, List.flatten_singleton, hsent]
  · rw [hreturned]
    simp
  · intro _
    rw [hreturned]
    simp
  · rintro ⟨n, hn⟩
    simp only [Session.echo] at hn
    split at hn <;> cases hn
  · exact hlog ▸ .echo hfile s log

theorem release_failure (h : At base g c sent [] s due unread []) {cause : IoError}
    (hw : g.holder = some (0, .failed cause)) (hstage : s.result? = none) {packet : Bytes}
    (hundone : Undone (base ++ (c.landed 0).flatten) packet due unread) (hq : g'.Queue)
    (hseats : g'.seats = [⟨.session (s.fail (.storage cause)), false⟩]) :
    At base g' (c.note g .release g') (sent ++ g.accepted .release) ([] ++ g.failing .release)
      (s.fail (.storage cause)) due unread [] := by
  have hne : s.stage ≠ .ended (.ok .cancelled) := by
    intro hs
    rw [Session.result?, hs] at hstage
    cases hstage
  have hreply : g.reply = [] := by simp only [reply, hw, Work.failed]
  have hfailing : g.failing .release = [.storage cause] := by simp only [failing, hw, Work.failed]
  rw [hfailing]
  simp only [Chronicle.note, hreply, accepted, List.append_nil]
  refine ⟨hq, hseats, h.account.fail hne _, h.offered, h.logs, h.returned, h.sent, h.last, ?_, ?_, ?_⟩
  · rintro (⟨_, e⟩ | e | ⟨_, _, e⟩) <;> cases e
  · rintro ⟨n, hn⟩
    cases hn
  · exact .notStored rfl hundone

theorem release (h : At base g c sent failures s due unread left) {i : Nat} {answer : Answer} {t : Task}
    (hw : g.holder = some (i, .finished answer)) (ht : g.task? i = some t) {g' : SharedLog}
    (hq : g'.Queue) (hg : g' = { g.setTask i (t.answered answer) with holder := none }) :
    ∃ s' due' unread' left',
      At base g' (c.note g .release g') (sent ++ g.accepted .release) (failures ++ g.failing .release) s'
        due' unread' left' := by
  obtain ⟨rfl, packet₀, hpacket₀⟩ := h.of_holder hw
  obtain ⟨-, rfl⟩ := h.of_task? ht
  have hresult : s.result? = none := by rw [Session.result?, hpacket₀]
  have hseats : g'.seats = [⟨(Task.session s).answered answer, false⟩] := by
    simp only [hg, setTask, h.seats, List.modify_cons, if_true]
  cases h.standing with
  | answered hstage hholder hfile =>
      cases hw.symm.trans hholder
      exact ⟨_, _, _, _, h.release_log hw hresult rfl hq (by rw [hg]; exact hfile) hseats⟩
  | failing hstage hholder hfail hundone =>
      cases hw.symm.trans hholder
      cases hfail with
      | failed cause => exact ⟨_, _, _, _, h.release_failure hw hresult hundone hq hseats⟩
  | writing hstage hholder hphase hbytes =>
      cases hw.symm.trans hholder
      cases hbytes
  | _ => simp_all

end At

/-- A session that has its store to itself, in one of its situations. -/
def Alone (base : Bytes) (g : SharedLog) (c : Chronicle) (sent : Bytes) (failures : List Failure) :
    Prop :=
  ∃ s due unread left, At base g c sent failures s due unread left

variable {base sent : Bytes} {g g' : SharedLog} {c : Chronicle} {failures : List Failure} {e : Event}

/-- **Every event keeps the books**, as long as no token fires and nobody else changes the file. -/
theorem Alone.move (h : Alone base g c sent failures) (he : e.isInside = true) (hm : Move g e g') :
    Alone base g' (c.note g e g') (sent ++ g.accepted e) (failures ++ g.failing e) := by
  obtain ⟨s, due, unread, left, h⟩ := h
  have hq := h.queue.move hm
  cases hm with
  | @own i _ t t' more ht hown =>
      obtain ⟨rfl, rfl⟩ := h.of_task? ht
      rw [h.isCancelled_eq] at hown
      cases hown with
      | poll hwaits hnot _ => exact ⟨_, _, _, _, h.poll hwaits hnot more rfl⟩
      | receive hstage _ hfits => exact ⟨_, _, _, _, h.receive hstage hfits more rfl⟩
      | frame hstage => exact ⟨_, _, _, _, h.frame hstage more rfl⟩
      | send hstage _ =>
          cases h.standing.left_eq hstage
          obtain ⟨left', h'⟩ := h.send hstage _ more rfl
          exact ⟨_, _, _, _, h'⟩
      | flush hstage _ => exact ⟨_, _, _, _, h.flush hstage _ more rfl⟩
      | leave _ hfired => cases hfired
  | ask hr hqueued => exact ⟨_, _, _, _, h.ask hr hqueued rfl⟩
  | grant hnone hw => exact ⟨_, _, _, _, h.grant hnone hw rfl⟩
  | file hw hmore =>
      obtain ⟨due', unread', h'⟩ := h.file hw hmore rfl hq rfl rfl rfl rfl
      exact ⟨_, _, _, _, h'⟩
  | release hw ht =>
      obtain ⟨s', due', unread', left', h'⟩ := h.release hw ht hq rfl
      exact ⟨_, _, _, _, h'⟩
  | fire hi => cases he
  | outside change => cases he

end SharedLog

open SharedLog

/-- **Every run keeps the books.** -/
theorem SharedLog.Alone.run {base sent : Bytes} {failures : List Failure} {t t' : Traced}
    {es : List Event} (h : Alone base t.now t.past sent failures)
    (hinside : es.all Event.isInside = true) (hrun : t.run? es = some t') :
    Alone base t'.now t'.past (sent ++ gather accepted t.now es)
      (failures ++ gather failing t.now es) := by
  induction es generalizing t sent failures with
  | nil =>
      cases hrun
      simpa only [gather, List.append_nil] using h
  | cons e es ih =>
      obtain ⟨u, hu, hrest⟩ := Option.bind_eq_some_iff.1 hrun
      obtain ⟨g, hg, rfl⟩ := Option.map_eq_some_iff.1 hu
      rw [List.all_cons, Bool.and_eq_true] at hinside
      have hnext := ih (h.move hinside.1 (move_of_step? hg)) hinside.2 hrest
      simp only [gather, hg, Option.map_some, Option.getD_some, ← List.append_assoc]
      exact hnext

end EchoLog
