import EchoLog.Proofs.Exchange.Phases
/-!
# Calls and connections at rest

Every turn of a connection takes a call on or leaves it as it is, and the turn in which the call returns
gives it the log as of the commit of its packet and leaves the connection at rest (`UnderWay.turn`).  A
connection at rest stays so until its client calls (`AtRest.turn`).

Whoever has to do the next of a call can do it (`UnderWay.canAct`).
-/

namespace EchoLog

namespace Exchange

variable {x x' : Exchange} {c c' : Chronicle} {e : ExchangeEvent} {i : Nat} {l l' : Link}
  {s s' : Session} {p : Bytes} {earlier : List Commit}

/-! ## Turns -/

/-- **A turn takes a call on, or leaves it as it is, or the call returns with the log as of its commit
and leaves the connection at rest.** -/
theorem UnderWay.turn {rank : ℕ ×ₗ ℕ} {helper : Agent}
    (h : UnderWay x.log c i l s p earlier rank helper) (hp : IsLine p)
    (hnew : ∀ m, (share l.seat c.commits)[earlier.length]? = some m →
      ∀ line ∈ lines m.before, ¬ p <:+ line)
    (hseen : Seen x c e x' l.seat s s') (hturn : x.Turn i l s x' e l' s') :
    Outcome x e x' (x.recount c e x') i l' s' p earlier rank helper := by
  cases h with
  | travelling h => exact h.turn hp hseen hturn
  | asking h hqueued =>
      rcases h.turn hp hseen hturn with ⟨log, hreturns⟩ | ⟨hstores, rfl, rfl, hpass⟩
      · exact hreturns.goesOn (Prod.Lex.toLex_lt_toLex.2 (.inl Nat.zero_lt_two))
      · cases hqueued' : x'.log.isQueued l'.seat with
        | true =>
            refine .goesOn (.waiting hstores hqueued') (.inl ?_)
            exact Prod.Lex.toLex_lt_toLex.2 (.inl Nat.one_lt_two)
        | false =>
            refine .goesOn (.asking hstores hqueued') (.inr ⟨rfl, rfl, ?_⟩)
            intro htask
            cases (hpass.task htask).2.symm.trans hqueued'
  | waiting h hqueued =>
      rcases h.turn hp hseen hturn with ⟨log, hreturns⟩ | ⟨hstores, rfl, rfl, hpass⟩
      · exact hreturns.goesOn (Prod.Lex.toLex_lt_toLex.2 (.inl Nat.zero_lt_one))
      · refine .goesOn (.waiting hstores (hpass.queued hqueued)) ?_
        rcases Nat.lt_or_eq_of_le (hpass.turns hqueued) with hless | hsame
        · exact .inl (lex_of_lt hless)
        · refine .inr ⟨by rw [hsame], rfl, ?_⟩
          intro hlock
          exact absurd hsame (Nat.ne_of_lt (hpass.nearer hqueued hlock))
  | returning h => exact h.turn hp hnew hseen hturn

theorem UnderWay.call {g : SharedLog} {rank : ℕ ×ₗ ℕ} {helper : Agent}
    (h : UnderWay g c i l s p earlier rank helper) : ∃ received, l.call = some ⟨p, received⟩ := by
  cases h with
  | travelling h => exact ⟨[], h.call⟩
  | asking h => exact ⟨[], h.call⟩
  | waiting h => exact ⟨[], h.call⟩
  | returning h => exact ⟨_, h.call⟩

/-- **A turn leaves a connection at rest**, with what was committed for it, or it is a call on it. -/
theorem AtRest.turn (h : AtRest l s) (hseen : Seen x c e x' l.seat s s')
    (hturn : x.Turn i l s x' e l' s') :
    (AtRest l' s' ∧ ∀ payload, e ≠ .call i payload) ∨
      ∃ payload, e = .call i payload ∧ ((Client.packetOf payload).length ≤ s.framer.limit →
        Travels (x.recount c e x') l' s' (Client.packetOf payload) (share l.seat c.commits)) := by
  have hfree := h.idle.request?_eq_none
  have hcommits := hseen.books.settled hfree
  cases hturn with
  | @called payload hcall =>
      refine .inr ⟨payload, rfl, fun hlimit => ⟨h.idle, ?_, hlimit, h.toClient, rfl, hcommits⟩⟩
      rw [h.held, h.toSession, List.nil_append, List.nil_append]
  | delivered _ hpos hsize =>
      rw [h.toSession, List.length_nil] at hsize
      omega
  | framed hstage =>
      have hopen : newline ∉ s.held := by
        rw [h.held]
        exact List.not_mem_nil
      have hframe := frame_open s hopen (by rw [h.held]; exact Nat.zero_le _)
      refine .inl ⟨⟨h.toSession, h.toClient, h.call, ?_, ?_⟩, nofun⟩
      · rw [hframe]
        exact .inl rfl
      · rw [hframe]
        exact h.held
  | sent hstage => rcases h.idle with e | e | e <;> cases e.symm.trans hstage
  | flushed =>
      exact .inl ⟨⟨h.toSession, h.toClient, h.call, .inr (.inl rfl), h.held⟩, nofun⟩
  | answered hstage => rcases h.idle with e | e | e <;> cases e.symm.trans hstage
  | heard hcall => cases hcall.symm.trans h.call
  | returned hcall => cases hcall.symm.trans h.call
  | aside hpass => exact .inl ⟨h, hpass.call⟩

/-! ## Whoever has to do the next of a call can do it -/

/-- Whether an agent can do something. -/
def CanAct (x : Exchange) (a : Agent) : Prop :=
  ∃ e, x.agent? e = some a ∧ ∃ x', x.step? e = some x'

theorem canAct_plain {inner : Event} {g : SharedLog} {a : Agent} (hagent : x.agent? e = some a)
    (hstep : x.step? e = x.withLog inner) (hg : x.log.step? inner = some g) : x.CanAct a := by
  refine ⟨e, hagent, { x with log := g }, ?_⟩
  rw [hstep, withLog, hg]
  rfl

theorem Orderly.canAct_lock (h : x.Orderly c) {k : Nat} (hqueued : x.log.isQueued k = true) :
    x.CanAct .lock := by
  obtain ⟨inner, hinner, g, hg⟩ := h.steady.queue.lock_can_move hqueued
  simp only [List.mem_cons, List.not_mem_nil, or_false] at hinner
  rcases hinner with rfl | rfl | rfl
  · exact canAct_plain (e := .release) rfl rfl hg
  · exact canAct_plain (e := .grant) rfl rfl hg
  · exact canAct_plain (e := .file) rfl rfl hg

theorem canAct_frame {k : Nat} (hs : x.log.session? k = some s) (hstage : s.stage = .framing) :
    x.CanAct (.task k) :=
  canAct_plain (e := .frame k) rfl rfl (SharedLog.step?_frame hs hstage)

section CanAct

variable (h : x.Orderly c) (hl : x.links[i]? = some l) (hs : x.log.session? l.seat = some s)

include h hl hs

theorem Orderly.canAct_flush (hstage : s.stage = .flushing) : x.CanAct (.task l.seat) := by
  have hg := SharedLog.step?_flush hs hstage (h.uncancelled l.seat) (.ok ())
  refine canAct_plain (e := .flush i) ?_ ?_ hg
  · rw [agent?, hl, Option.map_some]
  · simp only [step?, hl, bind, Option.bind_some]

theorem Orderly.canAct_send {left : Bytes} (hstage : s.stage = .echoing left) (hleft : left ≠ []) :
    x.CanAct (.task l.seat) := by
  have hg := SharedLog.step?_send hs hstage (h.uncancelled l.seat) (.ok 1)
  have hpos : 1 ≤ left.length := List.length_pos_iff.2 hleft
  refine ⟨.send i 1, by rw [agent?, hl, Option.map_some], ?_⟩
  simp only [step?, hl, hs, hstage, bind, Option.bind_some, withLog, hg, Option.map_some, hpos,
    decide_true, Nat.zero_lt_one, Bool.and_self, if_true]
  exact ⟨_, rfl⟩

theorem Orderly.canAct_deliver (hstage : s.stage = .receiving) (hmore : l.toSession ≠ []) :
    x.CanAct (.task l.seat) := by
  have hroom : 1 ≤ s.readSize := h.roomy _ _ hs
  have hpos : 1 ≤ l.toSession.length := List.length_pos_iff.2 hmore
  have hfits : SharedLog.fits s (.ok (l.toSession.take 1)) = true := by
    simp only [SharedLog.fits, List.length_take, decide_eq_true_eq]
    omega
  obtain ⟨g, hg⟩ := SharedLog.step?_receive hs hstage (h.uncancelled l.seat) hfits
  refine ⟨.deliver i 1, by rw [agent?, hl, Option.map_some], ?_⟩
  simp only [step?, hl, hs, bind, Option.bind_some, withLog, hg, Option.map_some, hpos, hroom,
    decide_true, Nat.zero_lt_one, Bool.and_self, if_true]
  exact ⟨_, rfl⟩

end CanAct

/-- **Whoever has to do the next of a call can do it.** -/
theorem UnderWay.canAct {rank : ℕ ×ₗ ℕ} {helper : Agent}
    (h : UnderWay x.log c i l s p earlier rank helper) (hp : IsLine p) (ho : x.Orderly c)
    (hl : x.links[i]? = some l) (hs : x.log.session? l.seat = some s) : x.CanAct helper := by
  cases h with
  | travelling h =>
      rcases h.idle with hstage | hstage | hstage
      · refine ho.canAct_deliver hl hs hstage ?_
        -- a session that waits for bytes holds no newline, so the packet is not all there
        intro hnone
        have hopen : newline ∉ s.held :=
          Session.Account.drained
            (ho.steady.accounts.task _ _ (SharedLog.session?_eq_some.1 hs)) (.inl hstage)
        obtain ⟨body, -, rfl⟩ := hp
        have hheld : s.held = body ++ [newline] := by rw [← h.packet, hnone, List.append_nil]
        rw [hheld] at hopen
        exact hopen (List.mem_append_right _ (List.mem_singleton.2 rfl))
      · exact canAct_frame hs hstage
      · exact ho.canAct_flush hl hs hstage
  | asking h hqueued =>
      have hr := SharedLog.request?_of_storing hs h.stage
      exact canAct_plain (e := .ask l.seat) rfl rfl (SharedLog.step?_ask hr hqueued)
  | waiting h hqueued => exact ho.canAct_lock hqueued
  | returning h =>
      split
      · rename_i hnone
        have hmore := h.more
        rw [hnone, List.nil_append] at hmore
        cases h.sends with
        | echoing hstage hleft => exact ho.canAct_send hl hs hstage hleft
        | idle => exact absurd rfl hmore
      · rename_i hsome
        have hpos : 1 ≤ l.toClient.length := List.length_pos_iff.2 hsome
        refine ⟨.read i 1, rfl, ?_⟩
        simp only [step?, hl, h.call, bind, Option.bind_some, hpos, decide_true, Nat.zero_lt_one,
          Bool.and_self, if_true]
        exact ⟨_, rfl⟩

end Exchange

end EchoLog
