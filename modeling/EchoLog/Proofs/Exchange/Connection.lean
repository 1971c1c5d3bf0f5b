import EchoLog.Proofs.Exchange.Moves
/-!
# One connection in an exchange

A connection is a link and the session at its seat.  Whatever happens in an exchange, it is one of few
things to a given connection (`Exchange.Turn`): its client calls or reads, its session does something or
is answered by the store, or the event passes it by.  Who takes part in an event is its `Agent`.

What a move notes of one task is in `SharedLog.Books`.
-/

namespace EchoLog

/-! ## One task in a move of the log -/

namespace SharedLog

variable {g g' : SharedLog} {c c' : Chronicle} {e : Event} {k : Nat} {t t' : Task}

/-- A task that does not move by itself and is not answered stays as it is. -/
theorem Move.task?_other (hm : Move g e g') (hplace : e.place? ≠ some k)
    (hanswer : ∀ a, ¬ g.Answers e k a) : g'.task? k = g.task? k := by
  cases hm with
  | @own i _ t t' more ht hown =>
      refine task?_setTask_other ?_
      rintro rfl
      exact hplace hown.place?
  | ask => rfl
  | grant => rfl
  | file => rfl
  | @release i a t hw ht =>
      refine task?_setTask_other ?_
      rintro rfl
      exact hanswer a ⟨rfl, hw⟩
  | fire => exact task?_fire g _ k
  | outside => rfl

theorem Move.own_of_place (hm : Move g e g') (hplace : e.place? = some k) (ht : g.task? k = some t) :
    ∃ t', Task.Own k (g.isCancelled k) e t t' ∧ g'.task? k = some t' := by
  cases hm with
  | @own i _ u u' more hu hown =>
      cases hown.place?.symm.trans hplace
      cases hu.symm.trans ht
      exact ⟨u', hown, task?_report_self hu more⟩
  | _ => cases hplace

/-- What is noted of one task in a move from one state of it to another. -/
structure Books (k : Nat) (t t' : Task) (c c' : Chronicle) : Prop where
  commits : share k c.commits <+: share k c'.commits
  settled : t.request? = none → share k c'.commits = share k c.commits
  offered : t.request? = none → share k c'.offered = share k c.offered ++ t'.ready
  standing : t.request? ≠ none → share k c'.offered = share k c.offered

theorem ready_of_request?_none (h : t.request? = none) : t.ready = [] := by
  rw [Task.ready, h]
  rfl

theorem books_of_same (hoffered : share k c'.offered = share k c.offered)
    (hcommits : share k c.commits <+: share k c'.commits)
    (hsettled : t.request? = none → share k c'.commits = share k c.commits) :
    Books k t t c c' where
  commits := hcommits
  settled := hsettled
  offered h := by rw [hoffered, ready_of_request?_none h, List.append_nil]
  standing _ := hoffered

theorem books_refl (k : Nat) (t : Task) (c : Chronicle) : Books k t t c c :=
  books_of_same rfl (List.prefix_refl _) fun _ => rfl

/-- **What a move notes of a task.** -/
theorem Move.books (hm : Move g e g') (hq : g.Queue) (ht : g.task? k = some t)
    (ht' : g'.task? k = some t') : Books k t t' c (c.note g e g') := by
  have hsame : g'.task? k = g.task? k → t' = t := by
    intro htask
    rw [htask, ht] at ht'
    exact (Option.some.inj ht').symm
  cases hm with
  | @own i _ u u' more hu hown =>
      rw [Chronicle.note_own hown (task?_report_self hu more)]
      by_cases hik : i = k
      · subst hik
        cases hu.symm.trans ht
        cases (task?_report_self hu more).symm.trans ht'
        refine ⟨List.prefix_refl _, fun _ => rfl, ?_, fun h => absurd hown.request?_eq_none h⟩
        intro _
        rw [share_append, share_self]
      · cases hsame (task?_setTask_other (Ne.symm hik))
        refine books_of_same ?_ (List.prefix_refl _) fun _ => rfl
        rw [share_append, share_other hik, List.append_nil]
  | ask =>
      cases hsame rfl
      exact books_of_same rfl (List.prefix_refl _) fun _ => rfl
  | grant =>
      cases hsame rfl
      exact books_refl k t c
  | @file i w fault hw hmore =>
      cases hsame rfl
      refine books_of_same rfl ?_ ?_
      · simp only [Chronicle.note, share_append]
        exact List.prefix_append _ _
      · intro hnone
        have hik : i ≠ k := by
          rintro rfl
          obtain ⟨r, hr, -⟩ := hq.holder i w hw
          rw [request?, ht, Option.bind_some, hnone] at hr
          cases hr
        simp only [Chronicle.note, hw, committed, share_append, share_other hik, List.append_nil]
  | @release i a u hw hu =>
      refine ⟨List.prefix_refl _, fun _ => rfl, ?_, fun _ => rfl⟩
      intro hnone
      have hik : i ≠ k := by
        rintro rfl
        obtain ⟨r, hr, -⟩ := hq.holder i _ hw
        rw [request?, ht, Option.bind_some, hnone] at hr
        cases hr
      cases hsame (task?_setTask_other (Ne.symm hik))
      rw [ready_of_request?_none hnone, List.append_nil]
      rfl
  | fire =>
      cases hsame (task?_fire g _ k)
      exact books_refl k t c
  | outside =>
      cases hsame rfl
      exact books_refl k t c

end SharedLog

/-! ## Agents -/

/-- Who takes part in an exchange: a client, a task at a seat, or the lock with whoever holds it. -/
inductive Agent where
  | client (link : Nat)
  | task (seat : Nat)
  | lock
deriving DecidableEq, Repr

namespace Exchange

/-- The agent that an event is up to.  Calls and ticks are up to nobody here. -/
def agent? (x : Exchange) : ExchangeEvent → Option Agent
  | .call _ _ => none
  | .read i _ => some (.client i)
  | .deliver i _ => x.links[i]?.map fun l => .task l.seat
  | .send i _ => x.links[i]?.map fun l => .task l.seat
  | .flush i => x.links[i]?.map fun l => .task l.seat
  | .frame seat => some (.task seat)
  | .ask seat => some (.task seat)
  | .tick _ _ _ => none
  | _ => some .lock

/-! ## Turns -/

/-- An event that does nothing to a link or to the session at its seat; but the session may ask for the
lock, and if it waits for the lock, it waits no longer than before. -/
structure PassesBy (x : Exchange) (i : Nat) (l : Link) (e : ExchangeEvent) (x' : Exchange) : Prop where
  call : ∀ payload, e ≠ .call i payload
  client : x.agent? e ≠ some (.client i)
  task : x.agent? e = some (.task l.seat) →
    x.log.isQueued l.seat = false ∧ x'.log.isQueued l.seat = true
  queued : x.log.isQueued l.seat = true → x'.log.isQueued l.seat = true
  turns : x.log.isQueued l.seat = true → x'.log.turnsLeft l.seat ≤ x.log.turnsLeft l.seat
  nearer : x.log.isQueued l.seat = true → x.agent? e = some .lock →
    x'.log.turnsLeft l.seat < x.log.turnsLeft l.seat

/-- What an event of an exchange is to a link and the session at its seat. -/
inductive Turn (x : Exchange) (i : Nat) (l : Link) (s : Session) (x' : Exchange) :
    ExchangeEvent → Link → Session → Prop where
  | called {payload : Bytes} : l.call = none →
      Turn x i l s x' (.call i payload)
        { l with toSession := l.toSession ++ Client.packetOf payload
                 call := some { packet := Client.packetOf payload } } s
  | delivered {size : Nat} : s.stage = .receiving → 0 < size → size ≤ l.toSession.length →
      Turn x i l s x' (.deliver i size) { l with toSession := l.toSession.drop size }
        (s.receive (.ok (l.toSession.take size)))
  | framed : s.stage = .framing → Turn x i l s x' (.frame l.seat) l s.frame
  | sent {size : Nat} {left : Bytes} : s.stage = .echoing left → 0 < size → size ≤ left.length →
      Turn x i l s x' (.send i size) { l with toClient := l.toClient ++ left.take size }
        (s.sent left (.ok size))
  | flushed : s.stage = .flushing → Turn x i l s x' (.flush i) l (s.flushed (.ok ()))
  | answered {packet log : Bytes} : s.stage = .storing packet →
      x.log.holder = some (l.seat, .finished (.ok (.log log))) →
      Turn x i l s x' .release l (s.stored (.ok log))
  /-- The client reads, and what it has received does not end with its packet. -/
  | heard {size : Nat} {c : OpenCall} : l.call = some c → 0 < size → size ≤ l.toClient.length →
      endsWith (c.received ++ l.toClient.take size) c.packet = false →
      Turn x i l s x' (.read i size)
        { l with toClient := l.toClient.drop size
                 call := some { c with received := c.received ++ l.toClient.take size } } s
  /-- The client reads, and its call returns. -/
  | returned {size : Nat} {c : OpenCall} : l.call = some c → 0 < size → size ≤ l.toClient.length →
      endsWith (c.received ++ l.toClient.take size) c.packet = true →
      x'.returned = x.returned ++ [⟨i, c.packet, c.received ++ l.toClient.take size⟩] →
      Turn x i l s x' (.read i size) { l with toClient := l.toClient.drop size, call := none } s
  | aside {e : ExchangeEvent} : PassesBy x i l e x' → Turn x i l s x' e l s

variable {x x' : Exchange} {c : Chronicle} {e : ExchangeEvent} {i j : Nat} {l m : Link} {s : Session}

theorem Orderly.seat_ne (h : x.Orderly c) (hl : x.links[i]? = some l) (hm : x.links[j]? = some m)
    (hji : j ≠ i) : m.seat ≠ l.seat := by
  have hi : (x.links.map (·.seat))[i]? = some l.seat := by rw [List.getElem?_map, hl, Option.map_some]
  have hj : (x.links.map (·.seat))[j]? = some m.seat := by rw [List.getElem?_map, hm, Option.map_some]
  intro hseat
  rw [hseat, ← hi] at hj
  exact hji ((List.getElem?_inj (List.getElem?_eq_some_iff.1 (hj.trans hi)).1 h.apart).1 hj)

/-- The outcome of a turn: the link and its session, and what happened to them. -/
def Turns (x : Exchange) (i : Nat) (l : Link) (s : Session) (e : ExchangeEvent) (x' : Exchange) : Prop :=
  ∃ l' s', x'.links[i]? = some l' ∧ x'.log.session? l.seat = some s' ∧ l'.seat = l.seat ∧
    x.Turn i l s x' e l' s'

theorem turns_own {inner : Event} {g : SharedLog} {l' : Link} (hs : x.log.session? l.seat = some s)
    (hg : x.log.step? inner = some g) (hplace : inner.place? = some l.seat)
    (hl' : x'.links[i]? = some l') (hlog : x'.log = g) (hseat : l'.seat = l.seat)
    (hturn : ∀ t', Task.Own l.seat (x.log.isCancelled l.seat) inner (.session s) t' →
      ∃ s', t' = .session s' ∧ x.Turn i l s x' e l' s') : x.Turns i l s e x' := by
  obtain ⟨t', hown, ht'⟩ :=
    (SharedLog.move_of_step? hg).own_of_place hplace (SharedLog.session?_eq_some.1 hs)
  obtain ⟨s', rfl, hturn⟩ := hturn t' hown
  refine ⟨l', s', hl', ?_, hseat, hturn⟩
  rw [hlog]
  exact SharedLog.session?_eq_some.2 ht'

/-- What happens in the log passes the session of the link by. -/
theorem Orderly.turns_aside {inner : Event} {g : SharedLog} (h : x.Orderly c)
    (hs : x.log.session? l.seat = some s) (hg : x.log.step? inner = some g)
    (hplace : inner.place? ≠ some l.seat) (hanswer : ∀ a, ¬ x.log.Answers inner l.seat a)
    (hl' : x'.links[i]? = some l) (hlog : x'.log = g) (hcall : ∀ payload, e ≠ .call i payload)
    (hclient : x.agent? e ≠ some (.client i))
    (htask : x.agent? e = some (.task l.seat) → x.log.isQueued l.seat = false ∧ g.isQueued l.seat = true)
    (hlock : x.agent? e = some .lock → inner.isOfLock = true) : x.Turns i l s e x' := by
  have hm := SharedLog.move_of_step? hg
  have hwaits : x.log.isQueued l.seat = true → SharedLog.Waits l.seat x.log inner g := by
    intro hqueued
    exact (h.steady.queue.turn hqueued hm).resolve_left fun ⟨a, ha⟩ => hanswer a ha
  subst hlog
  refine ⟨l, s, hl', ?_, rfl, .aside ⟨hcall, hclient, htask, ?_, ?_, ?_⟩⟩
  · rw [SharedLog.session?_eq_some, hm.task?_other hplace hanswer]
    exact SharedLog.session?_eq_some.1 hs
  · exact fun hqueued => (hwaits hqueued).queued
  · exact fun hqueued => (hwaits hqueued).turns
  · exact fun hqueued hagent => (hwaits hqueued).nearer (hlock hagent)

theorem turns_elsewhere (hs : x.log.session? l.seat = some s) (hl' : x'.links[i]? = some l)
    (hlog : x'.log = x.log) (hcall : ∀ payload, e ≠ .call i payload)
    (hagent : x.agent? e = none ∨ ∃ j, j ≠ i ∧ x.agent? e = some (.client j)) : x.Turns i l s e x' := by
  have hothers : ∀ a, x.agent? e = some a → ∃ j, j ≠ i ∧ a = .client j := by
    intro a ha
    rcases hagent with hnone | ⟨j, hji, hj⟩
    · cases hnone.symm.trans ha
    · exact ⟨j, hji, (Option.some.inj (hj.symm.trans ha)).symm⟩
  refine ⟨l, s, hl', ?_, rfl, .aside ⟨hcall, ?_, ?_, ?_, ?_, ?_⟩⟩
  · rw [hlog]
    exact hs
  · intro hclient
    obtain ⟨j, hji, hj⟩ := hothers _ hclient
    exact hji (Agent.client.inj hj).symm
  · intro htask
    obtain ⟨j, -, hj⟩ := hothers _ htask
    cases hj
  · rw [hlog]
    exact id
  · rw [hlog]
    exact fun _ => Nat.le_refl _
  · intro _ hlock
    obtain ⟨j, -, hj⟩ := hothers _ hlock
    cases hj

theorem not_answers {g : SharedLog} {inner : Event} {k : Nat} (h : inner ≠ .release) :
    ∀ a, ¬ g.Answers inner k a :=
  fun _ ha => h ha.1

/-- The store answers the session of the link. -/
theorem Orderly.turns_answered (h : x.Orderly c) (hl : x.links[i]? = some l)
    (hs : x.log.session? l.seat = some s) {g : SharedLog} (hg : x.log.step? .release = some g)
    {a : Answer} (hw : x.log.holder = some (l.seat, .finished a)) :
    x.Turns i l s .release { x with log := g } := by
  obtain ⟨packet, hstage⟩ := h.steady.queue.storing_of_holder hs hw
  obtain ⟨r, hr, hserves⟩ := h.steady.queue.holder _ _ hw
  rw [SharedLog.request?, SharedLog.session?_eq_some.1 hs, Option.bind_some, Task.request?, hstage] at hr
  cases hr
  -- the store fails nobody, so the answer is a log
  obtain ⟨log, rfl⟩ : ∃ log, a = .ok (.log log) := by
    cases a with
    | error f => cases h.serene.holder hw
    | ok reply =>
        obtain ⟨log, rfl⟩ := hserves
        exact ⟨log, rfl⟩
  refine ⟨l, s.stored (.ok log), hl, ?_, rfl, .answered hstage hw⟩
  cases SharedLog.move_of_step? hg with
  | @release k a t hw' ht =>
      cases hw.symm.trans hw'
      cases (SharedLog.session?_eq_some.1 hs).symm.trans ht
      exact SharedLog.session?_eq_some.2 (SharedLog.task?_setTask_self ht)
  | own _ _ hown => cases hown

theorem queued_of_ask {g g' : SharedLog} {k : Nat} (hg : g.step? (.ask k) = some g') :
    g.isQueued k = false ∧ g'.isQueued k = true := by
  cases SharedLog.move_of_step? hg with
  | ask hr hqueued =>
      refine ⟨hqueued, SharedLog.isQueued_iff.2 (.inr ?_)⟩
      simp only [List.map_append, List.map_singleton, List.mem_append, List.mem_singleton, or_true]
  | own _ _ hown => cases hown

/-- **Every event of the log alone is a turn of the connection.** -/
theorem Orderly.turns_plain (h : x.Orderly c) (hl : x.links[i]? = some l)
    (hs : x.log.session? l.seat = some s) {inner : Event} {g : SharedLog}
    (he : e.plain? = some inner) (hg : x.log.step? inner = some g) :
    x.Turns i l s e { x with log := g } := by
  cases e with
  | frame seat =>
      cases he
      by_cases hseat : seat = l.seat
      · subst hseat
        refine turns_own hs hg rfl hl rfl rfl ?_
        intro t' hown
        cases hown with
        | frame hstage => exact ⟨_, rfl, .framed hstage⟩
      · refine h.turns_aside hs hg ?_ (not_answers nofun) hl rfl nofun nofun ?_ nofun
        · rintro ⟨⟩
          exact hseat rfl
        · rintro ⟨⟩
          exact absurd rfl hseat
  | ask seat =>
      cases he
      refine h.turns_aside hs hg nofun (not_answers nofun) hl rfl nofun nofun ?_ nofun
      rintro ⟨⟩
      exact queued_of_ask hg
  | grant =>
      cases he
      exact h.turns_aside hs hg nofun (not_answers nofun) hl rfl nofun nofun nofun fun _ => rfl
  | file =>
      cases he
      exact h.turns_aside hs hg nofun (not_answers nofun) hl rfl nofun nofun nofun fun _ => rfl
  | release =>
      cases he
      by_cases hanswer : ∃ a, x.log.Answers .release l.seat a
      · obtain ⟨a, -, hw⟩ := hanswer
        exact h.turns_answered hl hs hg hw
      · exact h.turns_aside hs hg nofun (fun a ha => hanswer ⟨a, ha⟩) hl rfl nofun nofun nofun
          fun _ => rfl
  | tick seat now time =>
      cases he
      refine h.turns_aside hs hg ?_ (not_answers nofun) hl rfl nofun nofun nofun nofun
      -- a session does not tick
      intro hplace
      obtain ⟨t', hown, -⟩ :=
        (SharedLog.move_of_step? hg).own_of_place hplace (SharedLog.session?_eq_some.1 hs)
      cases hown
  | _ => cases he

/-- What happens to another link and its session passes the connection by. -/
theorem Orderly.turns_other (h : x.Orderly c) (hl : x.links[i]? = some l)
    (hs : x.log.session? l.seat = some s) (hm : x.links[j]? = some m) (hji : j ≠ i)
    {inner : Event} {g : SharedLog} (hg : x.log.step? inner = some g)
    (hplace : inner.place? = some m.seat) (hl' : x'.links[i]? = some l) (hlog : x'.log = g)
    (hcall : ∀ payload, e ≠ .call i payload) (hagent : x.agent? e = some (.task m.seat)) :
    x.Turns i l s e x' := by
  have hne := h.seat_ne hl hm hji
  refine h.turns_aside hs hg ?_ ?_ hl' hlog hcall ?_ ?_ ?_
  · rw [hplace]
    intro hseat
    exact hne (Option.some.inj hseat)
  · refine not_answers ?_
    rintro rfl
    cases hplace
  · rw [hagent]
    nofun
  · rw [hagent]
    intro htask
    exact absurd (Agent.task.inj (Option.some.inj htask)) hne
  · rw [hagent]
    nofun

theorem links_setLink_self (hl : x.links[i]? = some l) (l' : Link) :
    (x.setLink i l').links[i]? = some l' := by
  rw [setLink, List.getElem?_set_self (List.getElem?_eq_some_iff.1 hl).1]

theorem links_setLink_other (hji : j ≠ i) (l' : Link) : (x.setLink j l').links[i]? = x.links[i]? := by
  rw [setLink, List.getElem?_set_ne hji]

/-- **Every move of an exchange is a turn of the connection.** -/
theorem Orderly.turns (h : x.Orderly c) (hmove : x.Moves e x') (hl : x.links[i]? = some l)
    (hs : x.log.session? l.seat = some s) : x.Turns i l s e x' := by
  cases hmove with
  | @call j payload m hm hcall =>
      by_cases hji : j = i
      · subst hji
        cases hm.symm.trans hl
        exact ⟨_, s, links_setLink_self hl _, hs, rfl, .called hcall⟩
      · refine turns_elsewhere hs ((links_setLink_other hji _).trans hl) rfl ?_ (.inl rfl)
        rintro payload' ⟨⟩
        exact hji rfl
  | @deliver j size m r g hm _ hpos hsize hg =>
      by_cases hji : j = i
      · subst hji
        cases hm.symm.trans hl
        refine turns_own hs hg rfl (links_setLink_self hl _) rfl rfl ?_
        intro t' hown
        cases hown with
        | receive hstage => exact ⟨_, rfl, .delivered hstage hpos hsize⟩
      · refine h.turns_other hl hs hm hji hg rfl ((links_setLink_other hji _).trans hl) rfl nofun ?_
        rw [agent?, hm, Option.map_some]
  | @send j size m r left g hm hr hstage hpos hsize hg =>
      by_cases hji : j = i
      · subst hji
        cases hm.symm.trans hl
        cases hr.symm.trans hs
        refine turns_own hs hg rfl (links_setLink_self hl _) rfl rfl ?_
        intro t' hown
        cases hown with
        | send hstage' =>
            cases hstage'.symm.trans hstage
            exact ⟨_, rfl, .sent hstage hpos hsize⟩
      · refine h.turns_other hl hs hm hji hg rfl ((links_setLink_other hji _).trans hl) rfl nofun ?_
        rw [agent?, hm, Option.map_some]
  | @flush j m g hm hg =>
      by_cases hji : j = i
      · subst hji
        cases hm.symm.trans hl
        refine turns_own hs hg rfl hl rfl rfl ?_
        intro t' hown
        cases hown with
        | flush hstage => exact ⟨_, rfl, .flushed hstage⟩
      · refine h.turns_other hl hs hm hji hg rfl hl rfl nofun ?_
        rw [agent?, hm, Option.map_some]
  | @read j size m o hm hcall hpos hsize =>
      by_cases hji : j = i
      · subst hji
        cases hm.symm.trans hl
        have hlog : (x.afterRead j { l with toClient := l.toClient.drop size } o
            (l.toClient.take size)).log.session? l.seat = some s := by
          rw [log_afterRead]
          exact hs
        cases hends : endsWith (o.received ++ l.toClient.take size) o.packet with
        | false =>
            refine ⟨{ l with
              toClient := l.toClient.drop size
              call := some { o with received := o.received ++ l.toClient.take size } }, s, ?_, hlog, rfl,
              .heard hcall hpos hsize hends⟩
            simp only [afterRead, hends]
            exact links_setLink_self hl _
        | true =>
            refine ⟨{ l with toClient := l.toClient.drop size, call := none }, s, ?_, hlog, rfl,
              .returned hcall hpos hsize hends ?_⟩
            · simp only [afterRead, hends]
              exact links_setLink_self hl _
            · simp only [afterRead, hends]
              rfl
      · refine turns_elsewhere hs ?_ (log_afterRead ..) ?_ (.inr ⟨j, hji, rfl⟩)
        · simp only [afterRead]
          split <;> exact (links_setLink_other hji _).trans hl
        · rintro payload' ⟨⟩
  | plain he hg => exact h.turns_plain hl hs he hg

theorem Orderly.books (h : x.Orderly c) (hmove : x.Moves e x') {k : Nat} {s' : Session}
    (hs : x.log.session? k = some s) (hs' : x'.log.session? k = some s') :
    SharedLog.Books k (.session s) (.session s') c (x.recount c e x') := by
  rcases hmove.inner with ⟨hnone, hlog⟩ | ⟨inner, hinner, hm, -⟩
  · rw [hlog] at hs'
    cases hs.symm.trans hs'
    rw [recount, hnone]
    exact SharedLog.books_refl k _ c
  · rw [recount, hinner]
    exact hm.books h.steady.queue (SharedLog.session?_eq_some.1 hs) (SharedLog.session?_eq_some.1 hs')

end Exchange

end EchoLog
